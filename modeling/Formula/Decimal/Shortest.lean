import Formula.Decimal.Basic
import Formula.Decimal.Binary

/-!
# Formula.Decimal.Shortest

The decimal with the fewest digits that reads back as a given double.

A real number reads as the double `m * 2 ^ q` when it lies between the points
halfway to the two neighbours, ends included where `m` is even.  In units of
`2 ^ (q - 2)` the double is `4 * m` and those points are `4 * m + 2` above and
`4 * m - 2` below, or `4 * m - 1` below where the lower neighbour is nearer.
All comparisons are between natural numbers, so nothing is rounded.

* `Binary.holds` — whether a decimal reads as the double;
* `Binary.shortest` — the choice;
* `holds_shortest` — the choice reads as the double.
-/

namespace Formula.Binary

/-! ## The decimals that read as a double -/

/-- The point halfway to the double below, in units of `2 ^ (exponent - 2)`. -/
def low (b : Binary) : Nat := 4 * b.mantissa - if b.narrowBelow then 1 else 2

/-- The point halfway to the double above, in the same units. -/
def high (b : Binary) : Nat := 4 * b.mantissa + 2

/-- The unit `2 ^ (exponent - 2)` is `unit / unitInv`. -/
def unit (b : Binary) : Nat := Nat.pow 2 (b.exponent - 2).toNat

@[inherit_doc unit]
def unitInv (b : Binary) : Nat := Nat.pow 2 (2 - b.exponent).toNat

/-- Whether a decimal reads as the double `b`. -/
def holds (b : Binary) (d : Decimal) : Bool :=
  let x := d.coefficient * b.unitInv
  let y := b.unit * Nat.pow 10 d.places
  if b.mantissa % 2 = 0 then b.low * y ≤ x && x ≤ b.high * y
  else b.low * y < x && x < b.high * y

/-! ## The choice -/

/-- The magnitude itself as a decimal, which always has one: a half has one
place, a quarter two, and so on. -/
def exact (b : Binary) : Decimal :=
  ⟨b.mantissa * Nat.pow 2 b.exponent.toNat * Nat.pow 5 (-b.exponent).toNat,
    (-b.exponent).toNat⟩

/-- The least `k` with the magnitude below `10 ^ k`: the place of the first
digit that is not zero. -/
def scale (b : Binary) : Int :=
  let num := b.mantissa * Nat.pow 2 b.exponent.toNat
  let den := Nat.pow 2 (-b.exponent).toNat
  if den ≤ num then ((Nat.toDigits 10 (num / den)).length : Int)
  else 1 - ((Nat.toDigits 10 ((den - 1) / num)).length : Int)

/-- The multiple of `10 ^ s` nearest to the magnitude among those that read as
the double; of two equally near, the larger. -/
def nearest? (b : Binary) (s : Int) : Option Decimal :=
  let num := 4 * b.mantissa * b.unit * Nat.pow 10 (-s).toNat
  let den := b.unitInv * Nat.pow 10 s.toNat
  let below := Decimal.scaled (num / den) s
  let above := Decimal.scaled (num / den + 1) s
  let candidates := if 2 * (num % den) < den then [below, above] else [above, below]
  candidates.find? b.holds

/-- The decimal with the fewest digits that reads as the double, and of those
the nearest to it.  Seventeen digits are enough for any. -/
def shortest (b : Binary) : Decimal :=
  if b.mantissa = 0 then ⟨0, 0⟩
  else
    match (List.range 17).findSome? fun n => b.nearest? (b.scale - (n + 1 : Nat)) with
    | some d => d.trim
    | none => b.exact.trim

/-! ## The choice reads back -/

/-- A decimal reads alike however many zeros end it. -/
theorem holds_congr {b : Binary} {d d' : Decimal} (h : d.Equiv d') : b.holds d = b.holds d' := by
  have hp : 0 < Nat.pow 10 d.places := Nat.pow_pos (by decide)
  have hp' : 0 < Nat.pow 10 d'.places := Nat.pow_pos (by decide)
  have hx : d.coefficient * b.unitInv * Nat.pow 10 d'.places =
      d'.coefficient * b.unitInv * Nat.pow 10 d.places := by
    rw [Nat.mul_right_comm, h, Nat.mul_right_comm]
  have hy (n : Nat) : n * (b.unit * Nat.pow 10 d.places) * Nat.pow 10 d'.places =
      n * (b.unit * Nat.pow 10 d'.places) * Nat.pow 10 d.places := by
    rw [← Nat.mul_assoc, ← Nat.mul_assoc, Nat.mul_right_comm]
  have below (n : Nat) : n * (b.unit * Nat.pow 10 d.places) ≤ d.coefficient * b.unitInv ↔
      n * (b.unit * Nat.pow 10 d'.places) ≤ d'.coefficient * b.unitInv := by
    rw [← Nat.mul_le_mul_right_iff hp', hy, hx, Nat.mul_le_mul_right_iff hp]
  have above (n : Nat) : d.coefficient * b.unitInv ≤ n * (b.unit * Nat.pow 10 d.places) ↔
      d'.coefficient * b.unitInv ≤ n * (b.unit * Nat.pow 10 d'.places) := by
    rw [← Nat.mul_le_mul_right_iff hp', hy, hx, Nat.mul_le_mul_right_iff hp]
  simp only [holds, ← Nat.not_le, below, above]

/-- The decimal of a magnitude is exactly that magnitude. -/
theorem exact_eq (b : Binary) :
    b.exact.coefficient * b.unitInv =
      4 * b.mantissa * (b.unit * Nat.pow 10 b.exact.places) := by
  obtain ⟨m, e, narrow⟩ := b
  simp only [exact, unit, unitInv]
  rcases Int.lt_or_le e 0 with h | h
  · obtain ⟨k, rfl⟩ : ∃ k : Nat, e = -(k : Int) := ⟨e.natAbs, by omega⟩
    have h1 : (-(k : Int)).toNat = 0 := by omega
    have h2 : (-(-(k : Int))).toNat = k := by omega
    have h3 : (2 - -(k : Int)).toNat = k + 2 := by omega
    have h4 : (-(k : Int) - 2).toNat = 0 := by omega
    have h5 : Nat.pow 2 (k + 2) = Nat.pow 2 k * 2 * 2 := rfl
    have h6 : Nat.pow 10 k = Nat.pow 5 k * Nat.pow 2 k := Nat.mul_pow 5 2 k
    rw [h1, h2, h3, h4, h5, h6]
    generalize Nat.pow 5 k = x
    generalize Nat.pow 2 k = y
    have h7 : Nat.pow 2 0 = 1 := rfl
    rw [h7]
    grind
  · obtain ⟨k, rfl⟩ : ∃ k : Nat, e = (k : Int) := ⟨e.natAbs, by omega⟩
    have h1 : (-(k : Int)).toNat = 0 := by omega
    rw [h1]
    match k with
    | 0 => simp [Nat.pow]; omega
    | 1 => simp [Nat.pow]; omega
    | k + 2 =>
      have h2 : (((k + 2 : Nat) : Int) - 2).toNat = k := by omega
      have h3 : (2 - ((k + 2 : Nat) : Int)).toNat = 0 := by omega
      have h4 : Nat.pow 2 (k + 2) = Nat.pow 2 k * 2 * 2 := rfl
      have h5 : Nat.pow 2 0 = 1 := rfl
      rw [h2, h3, Int.toNat_natCast, h4, h5]
      grind

/-- A magnitude reads as itself. -/
theorem holds_exact (b : Binary) : b.holds b.exact = true := by
  have hu : 0 < b.unit * Nat.pow 10 b.exact.places :=
    Nat.mul_pos (Nat.pow_pos (by decide)) (Nat.pow_pos (by decide))
  have hl : b.low ≤ 4 * b.mantissa := by simp only [low]; omega
  have hh : 4 * b.mantissa < b.high := by simp only [high]; omega
  simp only [holds, exact_eq]
  split
  · simp only [Bool.and_eq_true, decide_eq_true_eq]
    exact ⟨Nat.mul_le_mul_right _ hl, Nat.mul_le_mul_right _ (Nat.le_of_lt hh)⟩
  · have hlt : b.low < 4 * b.mantissa := by simp only [low]; split <;> omega
    simp only [Bool.and_eq_true, decide_eq_true_eq]
    exact ⟨Nat.mul_lt_mul_of_pos_right hlt hu, Nat.mul_lt_mul_of_pos_right hh hu⟩

/-- What is found on a grid reads as the double. -/
theorem holds_of_nearest? {b : Binary} {s : Int} {d : Decimal} (h : b.nearest? s = some d) :
    b.holds d = true :=
  List.find?_some h

/-- The chosen decimal reads as the double. -/
theorem holds_shortest (b : Binary) : b.holds b.shortest = true := by
  unfold shortest
  split
  · rename_i h
    simp [holds, low, h]
  · split
    · rename_i d h
      obtain ⟨n, _, hn⟩ := List.exists_of_findSome?_eq_some h
      rw [holds_congr d.trim_equiv]
      exact holds_of_nearest? hn
    · rw [holds_congr b.exact.trim_equiv]
      exact b.holds_exact
end Formula.Binary
