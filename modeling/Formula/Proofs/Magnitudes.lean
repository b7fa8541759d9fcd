import Formula.Decimal.Shortest

/-!
# Formula.Proofs.Magnitudes

The finite magnitudes in ascending order, and the decimals that read as each.

Counted from zero, the magnitude with number `n` has the exponent and fraction fields
that are written in the bits of `n`.  Between it and the next lies the point halfway to
both, so the decimals that read as magnitudes fill the intervals between these points;
a point itself goes to the neighbour with the even number.

* `halfway` — the points, as multiples of `2 ^ -1076`;
* `high_nth` — two neighbours have the same point between them;
* `holds_nth_iff` — a decimal reads as a magnitude when it is between two points;
* `eq_of_holds` — no decimal reads as two magnitudes;
* `shortest_injective` — so the shortest decimal of a magnitude is that of no other.
-/

namespace Formula.Binary

/-! ## Magnitudes in order -/

/-- The magnitude with number `n`. -/
def nth (n : Nat) : Binary := ofFields (n / 0x10000000000000) (n % 0x10000000000000)

/-- How often its distance to the next is twice that of the least. -/
def shift (n : Nat) : Nat := n / 0x10000000000000 - 1

/-- The point halfway to the magnitude before it, in units of `2 ^ -1076`. -/
def halfway (n : Nat) : Nat := (nth n).low * Nat.pow 2 (shift n)

/-- The fields of a double make a magnitude with a number. -/
theorem ofFields_eq_nth {e f : Nat} (hf : f < 0x10000000000000) :
    ofFields e f = nth (e * 0x10000000000000 + f) := by
  have he : (e * 0x10000000000000 + f) / 0x10000000000000 = e := by omega
  have hmod : (e * 0x10000000000000 + f) % 0x10000000000000 = f := by omega
  rw [nth, he, hmod]

theorem exponent_nth (n : Nat) : (nth n).exponent = (shift n : Int) - 1074 := by
  simp only [nth, ofFields, shift]
  split <;> simp only <;> omega

theorem mantissa_nth_mod (n : Nat) : (nth n).mantissa % 2 = n % 2 := by
  simp only [nth, ofFields]
  split <;> simp only <;> omega

theorem low_lt_high (b : Binary) : b.low < b.high := by
  simp only [low, high]
  omega

/-- Two neighbours of one exponent have the same point between them. -/
theorem high_ofFields {e f : Nat} (hf : f + 1 < 0x10000000000000) :
    (ofFields e f).high = (ofFields e (f + 1)).low := by
  by_cases he : e = 0
  · simp only [high, low, ofFields, he, if_true, Bool.false_eq_true, if_false]
    omega
  · have hwide : ¬ (f + 1 = 0 ∧ 1 < e) := by omega
    simp only [high, low, ofFields, he, if_false, decide_eq_false hwide, Bool.false_eq_true]
    omega

/-- So have the greatest magnitude of one exponent and the least of the next, which is
twice as far from the magnitude after it. -/
theorem high_ofFields_last (e : Nat) :
    (ofFields e 0xFFFFFFFFFFFFF).high * Nat.pow 2 (e - 1) =
      (ofFields (e + 1) 0).low * Nat.pow 2 e := by
  cases e with
  | zero => rfl
  | succ e =>
    have hpow : Nat.pow 2 (e + 1) = Nat.pow 2 e * 2 := rfl
    have hnarrow : decide (0 = 0 ∧ 1 < e + 1 + 1) = true := by simp
    rw [hpow, Nat.add_sub_cancel, ofFields, ofFields, if_neg (Nat.succ_ne_zero _),
      if_neg (Nat.succ_ne_zero _), high, low, hnarrow]
    simp only [if_true]
    omega

/-- Two neighbours have the same point halfway between them. -/
theorem high_nth (n : Nat) : (nth n).high * Nat.pow 2 (shift n) = halfway (n + 1) := by
  by_cases hlast : n % 0x10000000000000 = 0xFFFFFFFFFFFFF
  · have he : (n + 1) / 0x10000000000000 = n / 0x10000000000000 + 1 := by omega
    have hf : (n + 1) % 0x10000000000000 = 0 := by omega
    rw [halfway, nth, nth, shift, shift, he, hf, hlast, Nat.add_sub_cancel]
    exact high_ofFields_last _
  · have he : (n + 1) / 0x10000000000000 = n / 0x10000000000000 := by omega
    have hf : (n + 1) % 0x10000000000000 = n % 0x10000000000000 + 1 := by omega
    rw [halfway, nth, nth, shift, shift, he, hf, high_ofFields (by omega)]

theorem halfway_lt_succ (n : Nat) : halfway n < halfway (n + 1) := by
  rw [← high_nth]
  exact Nat.mul_lt_mul_of_pos_right (low_lt_high _) (Nat.pow_pos (by decide))

/-- The points ascend. -/
theorem halfway_lt_of_lt {m n : Nat} (h : m < n) : halfway m < halfway n := by
  induction h with
  | refl => exact halfway_lt_succ m
  | step _ ih => exact Nat.lt_trans ih (halfway_lt_succ _)

/-! ## The decimals that read as a magnitude -/

/-- How many units of `2 ^ -(s + 2)` make one. -/
def unitsInOne (s : Nat) : Nat := Nat.pow 2 (s + 2)

theorem unitsInOne_pos (s : Nat) : 0 < unitsInOne s := Nat.pow_pos (by decide)

theorem unitInv_pos (b : Binary) : 0 < b.unitInv := Nat.pow_pos (by decide)

theorem unit_mul_unitsInOne {b : Binary} {k s : Nat} (h : b.exponent = (k : Int) - s) :
    b.unit * unitsInOne s = b.unitInv * Nat.pow 2 k := by
  have hpow : ∀ m n, Nat.pow 2 (m + n) = Nat.pow 2 m * Nat.pow 2 n := Nat.pow_add 2
  have hexponents : (b.exponent - 2).toNat + (s + 2) = (2 - b.exponent).toNat + k := by omega
  rw [unit, unitInv, unitsInOne, ← hpow, hexponents, hpow]

section Compare

variable {b : Binary} {k s p m n : Nat} (h : b.exponent = (k : Int) - s)

include h

/-- Both sides of a comparison in units of a magnitude, and in smaller units. -/
theorem mul_unit_mul_unitsInOne :
    m * (b.unit * p) * unitsInOne s = m * Nat.pow 2 k * p * b.unitInv := by
  have hunit := unit_mul_unitsInOne h
  calc m * (b.unit * p) * unitsInOne s
    _ = m * (b.unit * unitsInOne s) * p := by grind
    _ = m * (b.unitInv * Nat.pow 2 k) * p := by rw [hunit]
    _ = m * Nat.pow 2 k * p * b.unitInv := by grind

theorem mul_unit_le_iff :
    m * (b.unit * p) ≤ n * b.unitInv ↔ m * Nat.pow 2 k * p ≤ n * unitsInOne s := by
  rw [← Nat.mul_le_mul_right_iff (unitsInOne_pos s), mul_unit_mul_unitsInOne h,
    Nat.mul_right_comm n, Nat.mul_le_mul_right_iff (unitInv_pos b)]

theorem le_mul_unit_iff :
    n * b.unitInv ≤ m * (b.unit * p) ↔ n * unitsInOne s ≤ m * Nat.pow 2 k * p := by
  rw [← Nat.mul_le_mul_right_iff (unitsInOne_pos s), mul_unit_mul_unitsInOne h,
    Nat.mul_right_comm n, Nat.mul_le_mul_right_iff (unitInv_pos b)]

end Compare

/-- A decimal reads as a magnitude when it lies between the points on either side.  The
points themselves read as the magnitude where its number is even. -/
theorem holds_nth_iff {n : Nat} {d : Decimal} :
    (nth n).holds d = true ↔
      if n % 2 = 0 then
        halfway n * Nat.pow 10 d.places ≤ d.coefficient * unitsInOne 1074 ∧
          d.coefficient * unitsInOne 1074 ≤ halfway (n + 1) * Nat.pow 10 d.places
      else
        halfway n * Nat.pow 10 d.places < d.coefficient * unitsInOne 1074 ∧
          d.coefficient * unitsInOne 1074 < halfway (n + 1) * Nat.pow 10 d.places := by
  have hexponent : (nth n).exponent = (shift n : Int) - (1074 : Nat) := exponent_nth n
  rw [← high_nth, halfway, holds, mantissa_nth_mod]
  split
  · rw [Bool.and_eq_true, decide_eq_true_iff, decide_eq_true_iff, mul_unit_le_iff hexponent,
      le_mul_unit_iff hexponent]
  · rw [Bool.and_eq_true, decide_eq_true_iff, decide_eq_true_iff, ← Nat.not_le, ← Nat.not_le,
      le_mul_unit_iff hexponent, mul_unit_le_iff hexponent, Nat.not_le, Nat.not_le]

/-! ## No two magnitudes share one -/

/-- A decimal that reads as a magnitude does not read as a greater one. -/
theorem not_holds_of_lt {m n : Nat} {d : Decimal} (hlt : m < n) (hm : (nth m).holds d = true) :
    (nth n).holds d ≠ true := by
  intro hn
  have hpos : 0 < Nat.pow 10 d.places := Nat.pow_pos (by decide)
  rw [holds_nth_iff] at hm hn
  by_cases hnext : m + 1 = n
  · subst hnext
    grind
  · have hpoints : halfway (m + 1) * Nat.pow 10 d.places < halfway n * Nat.pow 10 d.places :=
      Nat.mul_lt_mul_of_pos_right (halfway_lt_of_lt (by omega)) hpos
    grind

/-- No decimal reads as two magnitudes. -/
theorem eq_of_holds {m n : Nat} {d : Decimal} (hm : (nth m).holds d = true)
    (hn : (nth n).holds d = true) : m = n := by
  obtain hlt | heq | hlt := Nat.lt_trichotomy m n
  · exact absurd hn (not_holds_of_lt hlt hm)
  · exact heq
  · exact absurd hm (not_holds_of_lt hlt hn)

/-- **The shortest decimal of a magnitude is that of no other.** -/
theorem shortest_injective {m n : Nat} (h : (nth m).shortest = (nth n).shortest) : m = n :=
  eq_of_holds (holds_shortest (nth m)) (h ▸ holds_shortest (nth n))

end Formula.Binary
