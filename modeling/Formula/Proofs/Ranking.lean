/-!
# Formula.Proofs.Ranking

Doubles on a line.

A double is compared as it is when taken apart into sign, mantissa and
exponent.  Here it gets a place on the line from minus to plus infinity, so
that a comparison of doubles becomes one of whole numbers:

* `rank?` — the place of a double; the two zeros share theirs, and what is no
  number has none;
* `Rank.compare_of?` — numbers that are taken apart compare by their places;
* `lt_iff_precedes`, `le_iff_precedes_or_eq`, `beq_zero_iff` — the comparisons;
* `lt_of_lt_le`, `le_or_le_of_isFinite` — the order of doubles;
* `lt_of_beq_zero`, `lt_of_lt_zero` — zeros and what is below them.
-/

namespace Formula

open Float.Model

/-! ## Places on the line -/

/-- A place on the line.  The first part is the side, and how far out, and the
others tell finite numbers of one side apart. -/
@[ext]
structure Rank where
  side : Int
  exponent : Int
  mantissa : Int

/-- Two places compare by the first part that differs. -/
def Rank.compare (a b : Rank) : Ordering :=
  (Ord.compare a.side b.side).then
    ((Ord.compare a.exponent b.exponent).then (Ord.compare a.mantissa b.mantissa))

/-- Whether a place comes before another. -/
def Rank.Precedes (a b : Rank) : Prop :=
  a.side < b.side ∨ a.side = b.side ∧
    (a.exponent < b.exponent ∨ a.exponent = b.exponent ∧ a.mantissa < b.mantissa)

/-- The place of a number that is taken apart.  Below zero a greater magnitude
comes first. -/
def Rank.of? : UnpackedFloat → Option Rank
  | .notANumber => none
  | .infinity .negative => some ⟨-2, 0, 0⟩
  | .finite .negative mantissa exponent _ => some ⟨-1, -exponent, -mantissa⟩
  | .zero _ => some ⟨0, 0, 0⟩
  | .finite .positive mantissa exponent _ => some ⟨1, exponent, mantissa⟩
  | .infinity .positive => some ⟨2, 0, 0⟩

/-- The place of a double. -/
def rank? (x : Float) : Option Rank := Rank.of? x.toModel.unpack

theorem rank?_zero : rank? 0 = some ⟨0, 0, 0⟩ := rfl

/-! ## Comparisons -/

theorem Rank.compare_eq_lt_iff {a b : Rank} : a.compare b = .lt ↔ a.Precedes b := by
  simp only [Rank.compare, Ordering.then_eq_lt, Int.compare_eq_lt, Int.compare_eq_eq, Precedes]

theorem Rank.compare_eq_eq_iff {a b : Rank} : a.compare b = .eq ↔ a = b := by
  simp only [Rank.compare, Ordering.then_eq_eq, Int.compare_eq_eq, Rank.ext_iff]

theorem compare_natCast (m n : Nat) : compare (m : Int) (n : Int) = compare m n := by
  simp only [Int.compare_eq_ite_lt, Nat.compare_eq_ite_lt, Int.ofNat_lt]

theorem compare_neg (m n : Int) : compare (-m) (-n) = (compare m n).swap := by
  rw [Int.compare_swap]
  simp only [Int.compare_eq_ite_lt, Int.neg_lt_neg_iff]

/-- Numbers that are taken apart compare by their places. -/
theorem Rank.compare_of? {u v : UnpackedFloat} :
    u.compare v = (of? u).bind fun a => (of? v).map fun b => a.compare b := by
  rcases u with (_ | _) | _ | _ | ⟨_ | _, m, e, hm⟩ <;>
    rcases v with (_ | _) | _ | _ | ⟨_ | _, n, f, hn⟩
  -- Only for two finite numbers of one side does more than the side count.
  case finite.positive.finite.positive =>
    change some ((Ord.compare e f).then (Ord.compare m n)) =
      some ((Ord.compare e f).then (Ord.compare (m : Int) (n : Int)))
    rw [compare_natCast]
  case finite.negative.finite.negative =>
    change some ((Ord.compare e f).then (Ord.compare m n)).swap =
      some ((Ord.compare (-e) (-f)).then (Ord.compare (-m : Int) (-n : Int)))
    rw [compare_neg, compare_neg, compare_natCast, Ordering.swap_then]
  all_goals rfl

/-- Only the zeros are in the middle. -/
theorem Rank.of?_eq_zero_iff {u : UnpackedFloat} :
    of? u = some ⟨0, 0, 0⟩ ↔ ∃ s, u = .zero s := by
  have hside : ∀ {a : Rank}, some a = some ⟨0, 0, 0⟩ → a.side = 0 :=
    fun h => congrArg Rank.side (Option.some.inj h)
  constructor
  · intro h
    cases u with
    | zero s => exact ⟨s, rfl⟩
    | notANumber => cases h
    | infinity s | finite s => cases s <;> exact absurd (hside h) (by simp)
  · rintro ⟨s, rfl⟩
    rfl

/-- What is finite has a place. -/
theorem Rank.exists_of?_of_isFinite {u : UnpackedFloat} (h : u.isFinite = true) :
    ∃ a, of? u = some a := by
  cases u with
  | notANumber | infinity s => cases h
  | zero s => exact ⟨_, rfl⟩
  | finite s => cases s <;> exact ⟨_, rfl⟩

variable {x y : Float}

/-- Doubles compare by their places. -/
theorem lt_iff_precedes :
    x < y ↔ ∃ a b, rank? x = some a ∧ rank? y = some b ∧ a.Precedes b := by
  change decide (x.toModel < y.toModel) = true ↔ _
  rw [decide_eq_true_iff]
  refine beq_iff_eq.trans ?_
  simp only [Rank.compare_of?, Option.bind_eq_some_iff, Option.map_eq_some_iff,
    Rank.compare_eq_lt_iff, rank?, exists_and_left]

/-- One double is at most another when its place is the same or comes before. -/
theorem le_iff_precedes_or_eq :
    x ≤ y ↔ ∃ a b, rank? x = some a ∧ rank? y = some b ∧ (a.Precedes b ∨ a = b) := by
  change decide (x.toModel ≤ y.toModel) = true ↔ _
  rw [decide_eq_true_iff]
  refine (Option.any_eq_true _ _).trans ?_
  simp only [Rank.compare_of?, Option.bind_eq_some_iff, Option.map_eq_some_iff, rank?,
    Ordering.isLE_iff_eq_lt_or_eq_eq]
  constructor
  · rintro ⟨_, ⟨a, ha, b, hb, rfl⟩, h⟩
    rw [Rank.compare_eq_lt_iff, Rank.compare_eq_eq_iff] at h
    exact ⟨a, b, ha, hb, h⟩
  · rintro ⟨a, b, ha, hb, h⟩
    rw [← Rank.compare_eq_lt_iff, ← Rank.compare_eq_eq_iff] at h
    exact ⟨_, ⟨a, ha, b, hb, rfl⟩, h⟩

/-- What equals zero has the place of the zeros. -/
theorem beq_zero_iff : x == 0 ↔ rank? x = some ⟨0, 0, 0⟩ := by
  change (x.toModel.unpack.compare (.zero .positive) == some .eq) = true ↔ _
  have hzero : Rank.of? (.zero .positive) = some ⟨0, 0, 0⟩ := rfl
  simp only [beq_iff_eq, Rank.compare_of?, hzero, Option.bind_eq_some_iff, Option.map_some,
    Option.some.injEq, Rank.compare_eq_eq_iff, exists_eq_right, rank?]

/-- A finite double is a number. -/
theorem exists_rank?_of_isFinite (h : x.isFinite = true) : ∃ a, rank? x = some a := by
  change x.toModel.unpack.isFinite = true at h
  rw [rank?]
  exact Rank.exists_of?_of_isFinite h

/-! ## The order -/

/-- What is below one double is below every double that is no less. -/
theorem lt_of_lt_le {z : Float} (hxy : x < y) (hyz : y ≤ z) : x < z := by
  obtain ⟨a, b, ha, hb, hab⟩ := lt_iff_precedes.1 hxy
  obtain ⟨b', c, hb', hc, hbc⟩ := le_iff_precedes_or_eq.1 hyz
  obtain rfl : b = b' := by simpa [hb] using hb'
  refine lt_iff_precedes.2 ⟨a, c, ha, hc, ?_⟩
  obtain hbc | rfl := hbc
  · unfold Rank.Precedes at *
    omega
  · exact hab

/-- Of two finite doubles one is at most the other. -/
theorem le_or_le_of_isFinite (hx : x.isFinite = true) (hy : y.isFinite = true) :
    x ≤ y ∨ y ≤ x := by
  obtain ⟨a, ha⟩ := exists_rank?_of_isFinite hx
  obtain ⟨b, hb⟩ := exists_rank?_of_isFinite hy
  have htotal : (a.Precedes b ∨ a = b) ∨ (b.Precedes a ∨ b = a) := by
    unfold Rank.Precedes
    rw [Rank.ext_iff, Rank.ext_iff]
    omega
  obtain hab | hba := htotal
  · exact .inl (le_iff_precedes_or_eq.2 ⟨a, b, ha, hb, hab⟩)
  · exact .inr (le_iff_precedes_or_eq.2 ⟨b, a, hb, ha, hba⟩)

/-! ## Zeros, and what is below them -/

/-- Both zeros are below whatever is above zero. -/
theorem lt_of_beq_zero (hx : x == 0) (hy : 0 < y) : x < y := by
  obtain ⟨a, b, ha, hb, hab⟩ := lt_iff_precedes.1 hy
  rw [rank?_zero, ← beq_zero_iff.1 hx] at ha
  exact lt_iff_precedes.2 ⟨a, b, ha, hb, hab⟩

/-- What is below zero is below every finite double that is not. -/
theorem lt_of_lt_zero (hx : x < 0) (hy : ¬ y < 0) (hfinite : y.isFinite = true) : x < y := by
  obtain ⟨a, zero, ha, hzero, hab⟩ := lt_iff_precedes.1 hx
  obtain ⟨b, hb⟩ := exists_rank?_of_isFinite hfinite
  have hnot : ¬ b.Precedes zero := fun hlt => hy (lt_iff_precedes.2 ⟨b, zero, hb, hzero, hlt⟩)
  refine lt_iff_precedes.2 ⟨a, b, ha, hb, ?_⟩
  unfold Rank.Precedes at hab hnot ⊢
  omega

/-- The magnitude of a zero is a zero. -/
theorem abs_beq_zero (h : x == 0) : x.abs == 0 := by
  obtain ⟨s, hs⟩ := Rank.of?_eq_zero_iff.1 (beq_zero_iff.1 h)
  have habs : x.abs.toModel = pack x.toModel.unpack.abs := rfl
  have hpositive : (UnpackedFloat.zero s).abs = .zero .positive := rfl
  have hzero : pack (.zero .positive) = (0 : Float).toModel := by decide +kernel
  rw [beq_zero_iff, rank?, habs, hs, hpositive, hzero]
  rfl

end Formula
