import Formula.Decimal.Binary

/-!
# Formula.Proofs.Doubles

The double of a machine number.

A machine number is its 64 bits, and of the many bit patterns that are no number only
one is used.  So nothing is lost when a number is taken apart into sign, magnitude and
what is no number:

* `Double.ofFloat_injective` — different machine numbers stand for different doubles;
* `Double.ofUnpacked_unpack` — the double is also found from the form in which numbers
  are computed with;
* `eq_of_unpack_eq` — so that form loses nothing either.
-/

namespace Formula

open Float.Model UnpackedFloat

/-! ## Fields -/

section Fields

variable (b : BitVec Format.binary64.numBits)

theorem toNat_unpackMantissa :
    (@unpackMantissa Format.binary64 b).toNat = b.toNat % 0x10000000000000 := by
  show ((b.extractLsb 51 0).cast _).toNat = _
  rw [BitVec.toNat_cast, BitVec.extractLsb_toNat, Nat.shiftRight_zero]

theorem toNat_unpackExponent :
    (@unpackExponent Format.binary64 b).toNat = b.toNat / 0x10000000000000 % 0x800 := by
  show ((b.extractLsb 62 52).cast _).toNat = _
  rw [BitVec.toNat_cast, BitVec.extractLsb_toNat, Nat.shiftRight_eq_div_pow]

theorem toNat_unpackSign :
    (@unpackSign Format.binary64 b).toNat = b.toNat / 0x8000000000000000 := by
  have hlt : b.toNat < 0x10000000000000000 := b.isLt
  have hmod : b.toNat / 0x8000000000000000 % 2 = b.toNat / 0x8000000000000000 := by omega
  show ((b.extractLsb 63 63).cast _).toNat = _
  rw [BitVec.toNat_cast, BitVec.extractLsb_toNat, Nat.shiftRight_eq_div_pow]
  exact hmod

theorem unpackMantissa_eq_iff (mantissa : BitVec 52) :
    @unpackMantissa Format.binary64 b = mantissa ↔
      b.toNat % 0x10000000000000 = mantissa.toNat := by
  rw [← toNat_unpackMantissa]
  exact BitVec.toNat_inj.symm

theorem unpackExponent_eq_iff (exponent : BitVec 11) :
    @unpackExponent Format.binary64 b = exponent ↔
      b.toNat / 0x10000000000000 % 0x800 = exponent.toNat := by
  rw [← toNat_unpackExponent]
  exact BitVec.toNat_inj.symm

end Fields

/-- A normal number has one more bit than its fraction field. -/
theorem toNat_implicit_append (mantissa : BitVec 52) :
    (1#1 ++ mantissa).toNat = 0x10000000000000 + mantissa.toNat := by
  rw [BitVec.toNat_append, ← Nat.shiftLeft_add_eq_or_of_lt mantissa.isLt]
  rfl

namespace Binary

/-- The magnitude of a normal number, whose fraction field lacks a bit. -/
theorem ofFields_of_ne_zero {e : Nat} (f : Nat) (he : e ≠ 0) :
    ofFields e f = ⟨0x10000000000000 + f, (e : Int) - 1075,
      decide (0x10000000000000 + f = 0x10000000000000 ∧ -1074 < (e : Int) - 1075)⟩ := by
  have hnarrow : decide (f = 0 ∧ 1 < e) =
      decide (0x10000000000000 + f = 0x10000000000000 ∧ -1074 < (e : Int) - 1075) := by
    rw [decide_eq_decide]
    omega
  rw [ofFields, if_neg he, hnarrow]

/-- The fields tell the magnitude. -/
theorem ofFields_injective {e e' f f' : Nat} (hf : f < 0x10000000000000)
    (hf' : f' < 0x10000000000000) (h : ofFields e f = ofFields e' f') : e = e' ∧ f = f' := by
  unfold ofFields at h
  split at h <;> split at h <;> rw [mk.injEq] at h <;> omega

end Binary

namespace Double

/-- The exponent and fraction fields of what is no number. -/
theorem ofBits_eq_nan_iff {n : Nat} :
    ofBits n = nan ↔ n / 0x10000000000000 % 0x800 = 0x7FF ∧ n % 0x10000000000000 ≠ 0 := by
  unfold ofBits
  grind

/-- The bits of a number are told by its double. -/
theorem eq_of_ofBits_eq {n n' : Nat} (hn : n < 0x10000000000000000)
    (hn' : n' < 0x10000000000000000) (h : ofBits n = ofBits n') (hne : ofBits n ≠ nan) : n = n' := by
  have hfraction : n % 0x10000000000000 < 0x10000000000000 := Nat.mod_lt _ (by decide)
  have hfraction' : n' % 0x10000000000000 < 0x10000000000000 := Nat.mod_lt _ (by decide)
  have hbits : ∀ m, m < 0x10000000000000000 → m = m / 0x8000000000000000 * 0x8000000000000000 +
      m / 0x10000000000000 % 0x800 * 0x10000000000000 + m % 0x10000000000000 := by omega
  suffices hfields : n / 0x8000000000000000 = n' / 0x8000000000000000 ∧
      n / 0x10000000000000 % 0x800 = n' / 0x10000000000000 % 0x800 ∧
      n % 0x10000000000000 = n' % 0x10000000000000 by
    rw [hbits n hn, hbits n' hn', hfields.1, hfields.2.1, hfields.2.2]
  have hsign : decide (n / 0x8000000000000000 = 1) = decide (n' / 0x8000000000000000 = 1) →
      n / 0x8000000000000000 = n' / 0x8000000000000000 := by
    intro hdecide
    rw [decide_eq_decide] at hdecide
    omega
  simp only [ofBits] at h hne
  split at h <;> split at h
  · grind
  · grind
  · grind
  · rw [finite.injEq] at h
    exact ⟨hsign h.1, Binary.ofFields_injective hfraction hfraction' h.2⟩

end Double

/-! ## Machine numbers -/

variable {x y : Float}

theorem toBits_injective (h : x.toBits = y.toBits) : x = y := by
  obtain ⟨x, hx⟩ := x
  obtain ⟨y, hy⟩ := y
  subst h
  rfl

/-- All that is no number has the same bits. -/
theorem toBits_of_ofFloat_eq_nan (h : Double.ofFloat x = .nan) :
    x.toBits.toBitVec = packedNaN Format.binary64 := by
  obtain ⟨hexponent, hfraction⟩ := Double.ofBits_eq_nan_iff.1 h
  have hall : @unpackExponent Format.binary64 x.toBits.toBitVec = -1#_ :=
    (unpackExponent_eq_iff _ _).2 hexponent
  have hnonzero : @unpackMantissa Format.binary64 x.toBits.toBitVec ≠ 0#_ :=
    mt (unpackMantissa_eq_iff _ _).1 hfraction
  exact x.toModel.valid.eq_packedNaN hall hnonzero

/-- **Different machine numbers stand for different doubles.** -/
theorem Double.ofFloat_injective (h : ofFloat x = ofFloat y) : x = y := by
  apply toBits_injective
  by_cases hx : ofFloat x = nan
  · apply UInt64.toBitVec_inj.1
    rw [toBits_of_ofFloat_eq_nan hx, toBits_of_ofFloat_eq_nan (h ▸ hx)]
  · exact UInt64.toNat_inj.1 (eq_of_ofBits_eq x.toBits.toNat_lt y.toBits.toNat_lt h hx)

/-! ## Numbers taken apart -/

/-- Whether a sign is a minus. -/
def isMinus : UnpackedFloat.Sign → Bool
  | .negative => true
  | .positive => false

/-- What a number that is taken apart stands for. -/
def Double.ofUnpacked : UnpackedFloat → Double
  | .notANumber => nan
  | .infinity s => infinite (isMinus s)
  | .zero s => finite (isMinus s) ⟨0, -1074, false⟩
  | .finite s mantissa exponent _ =>
    finite (isMinus s)
      ⟨mantissa, exponent, decide (mantissa = 0x10000000000000 ∧ -1074 < exponent)⟩

/-- The sign bit is that of a minus. -/
theorem isMinus_unpackSign (b : BitVec Format.binary64.numBits) :
    isMinus (.ofBitVec (@unpackSign Format.binary64 b)) =
      decide (b.toNat / 0x8000000000000000 = 1) := by
  rw [← toNat_unpackSign]
  obtain hbit | hbit := BitVec.eq_zero_or_eq_one (@unpackSign Format.binary64 b)
  · rw [hbit]
    rfl
  · rw [hbit]
    rfl

/-- Bits that are taken apart in either way are the same double. -/
theorem Double.ofUnpacked_unpack_bits (b : BitVec Format.binary64.numBits) :
    ofUnpacked (unpack Format.binary64 b) = ofBits b.toNat := by
  have hall : @unpackExponent Format.binary64 b = -1#_ ↔
      b.toNat / 0x10000000000000 % 0x800 = 0x7FF := unpackExponent_eq_iff b _
  have hnone : @unpackExponent Format.binary64 b = 0#_ ↔
      b.toNat / 0x10000000000000 % 0x800 = 0 := unpackExponent_eq_iff b _
  have hzero : @unpackMantissa Format.binary64 b = 0#_ ↔
      b.toNat % 0x10000000000000 = 0 := unpackMantissa_eq_iff b _
  simp only [ofBits, ← isMinus_unpackSign]
  by_cases he : @unpackExponent Format.binary64 b = -1#_
  · rw [if_pos (hall.1 he)]
    by_cases hm : @unpackMantissa Format.binary64 b = 0#_
    · rw [if_pos (hzero.1 hm)]
      exact congrArg ofUnpacked ((if_pos he).trans (if_pos hm))
    · rw [if_neg (mt hzero.2 hm)]
      exact congrArg ofUnpacked ((if_pos he).trans (if_neg hm))
  · rw [if_neg (mt hall.2 he)]
    by_cases he0 : @unpackExponent Format.binary64 b = 0#_
    · rw [hnone.1 he0]
      by_cases hm : @unpackMantissa Format.binary64 b = 0#_
      · rw [hzero.1 hm]
        exact congrArg ofUnpacked (((if_neg he).trans (if_pos he0)).trans (dif_pos hm))
      · refine (congrArg ofUnpacked (((if_neg he).trans (if_pos he0)).trans (dif_neg hm))).trans ?_
        show finite _ ⟨(@unpackMantissa Format.binary64 b).toNat,
          (@unpackExponent Format.binary64 b).toNat - 1075 + 1,
          decide ((@unpackMantissa Format.binary64 b).toNat = 0x10000000000000 ∧
            -1074 < ((@unpackExponent Format.binary64 b).toNat : Int) - 1075 + 1)⟩ = _
        rw [toNat_unpackExponent, hnone.1 he0, toNat_unpackMantissa, decide_eq_false (by omega)]
        rfl
    · refine (congrArg ofUnpacked ((if_neg he).trans (if_neg he0))).trans ?_
      show finite _ ⟨(1#1 ++ @unpackMantissa Format.binary64 b).toNat,
        (@unpackExponent Format.binary64 b).toNat - 1075,
        decide ((1#1 ++ @unpackMantissa Format.binary64 b).toNat = 0x10000000000000 ∧
          -1074 < ((@unpackExponent Format.binary64 b).toNat : Int) - 1075)⟩ = _
      rw [toNat_implicit_append, toNat_unpackMantissa, toNat_unpackExponent,
        Binary.ofFields_of_ne_zero _ (mt hnone.2 he0)]

/-- The double of a machine number is also that of its parts. -/
theorem Double.ofUnpacked_unpack (x : Float) : ofUnpacked x.toModel.unpack = ofFloat x :=
  ofUnpacked_unpack_bits x.toBits.toBitVec

/-- Nothing is lost when a machine number is taken apart. -/
theorem eq_of_unpack_eq (h : x.toModel.unpack = y.toModel.unpack) : x = y := by
  apply Double.ofFloat_injective
  rw [← Double.ofUnpacked_unpack, ← Double.ofUnpacked_unpack, h]

end Formula
