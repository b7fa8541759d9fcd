import Formula.Compiled
import Formula.Proofs.Contents
import Formula.Proofs.Doubles
import Formula.Proofs.Spelled

/-!
# Formula.Proofs.Literals

The numbers of a formula.

A formula writes no sign into its numbers: a numeral is digits and a point, and a minus
before it is a token of its own.  The double of a decimal comes from rounding a quotient
of natural numbers, which keeps the sign plus, or is infinity where it is too large.

* `IsPlus` — what such a machine number is;
* `isPlus_roundWithAccuracy` — rounding gives a number of the sign it is told;
* `isPlus_ofModel` — and it stays one where it is put into 64 bits;
* `Decimal.isPlus_toFloat` — the double of a decimal is one;
* `Compiled.isPlus_of_mem` — and so is every number of a formula.
-/

namespace Formula

open Float.Model UnpackedFloat

/-! ## Numbers whose sign is plus -/

namespace Double

/-- Whether a double is a number whose sign is plus. -/
def isPlus : Double → Bool
  | nan => false
  | infinite negative | finite negative _ => !negative

/-- Bits below the sign bit are one, unless they are no number. -/
theorem isPlus_ofBits {n : Nat} (hsign : n < 0x8000000000000000) (hnan : ofBits n ≠ nan) :
    (ofBits n).isPlus = true := by
  have hpositive : decide (n / 0x8000000000000000 = 1) = false := by
    rw [decide_eq_false_iff_not]
    omega
  simp only [ofBits, hpositive] at hnan ⊢
  split
  · split
    · rfl
    · rename_i he hf
      rw [if_pos he, if_neg hf] at hnan
      exact absurd rfl hnan
  · rfl

end Double

/-- The bits of fields with a plus before them. -/
theorem toNat_packComponents (exponent : BitVec 11) (mantissa : BitVec 52) :
    (packComponents Format.binary64 .positive exponent mantissa).toNat =
      exponent.toNat * 0x10000000000000 + mantissa.toNat := by
  have hsign : (Sign.positive.toBitVec ++ exponent).toNat = exponent.toNat := by
    rw [BitVec.toNat_append]
    exact Nat.zero_or _
  rw [packComponents, BitVec.toNat_append, hsign, ← Nat.shiftLeft_add_eq_or_of_lt mantissa.isLt,
    Nat.shiftLeft_eq]

/-- Fields with a plus before them are a number, but for the fields of what is none. -/
theorem isPlus_packComponents {exponent : BitVec 11} {mantissa : BitVec 52}
    (h : exponent.toNat = 0x7FF → mantissa.toNat = 0) :
    (Double.ofBits (packComponents Format.binary64 .positive exponent mantissa).toNat).isPlus =
      true := by
  have hexponent : exponent.toNat < 0x800 := exponent.isLt
  have hmantissa : mantissa.toNat < 0x10000000000000 := mantissa.isLt
  have hbits := toNat_packComponents exponent mantissa
  apply Double.isPlus_ofBits
  · omega
  · rw [ne_eq, Double.ofBits_eq_nan_iff]
    omega

/-- A finite number is packed with its sign and is some number, or infinity where it is
too large. -/
theorem exists_pack_finite (m : Nat) (e : Int) (hm : 0 < m) :
    ∃ exponent mantissa, UnpackedFloat.pack Format.binary64 (.finite .positive m e hm) =
        packComponents Format.binary64 .positive exponent mantissa ∧
      (exponent.toNat = 0x7FF → mantissa.toNat = 0) := by
  unfold UnpackedFloat.pack
  dsimp only
  split
  · exact ⟨-1#_, 0, rfl, fun _ => rfl⟩
  · rename_i hsmall
    split
    · refine ⟨_, _, rfl, ?_⟩
      have hexponents : 2 ^ Format.binary64.exponentBits = 0x800 := rfl
      rw [hexponents] at hsmall
      rw [BitVec.toNat_ofNat, hexponents, Nat.mod_eq_of_lt (by omega)]
      omega
    · refine ⟨_, _, rfl, ?_⟩
      rintro ⟨⟩

/-- What has the sign plus. -/
theorem unpacked_of_isPlus {u : UnpackedFloat} (h : (Double.ofUnpacked u).isPlus = true) :
    u = .zero .positive ∨ u = .infinity .positive ∨ ∃ m e hm, u = .finite .positive m e hm := by
  rcases u with (_ | _) | _ | (_ | _) | ⟨_ | _, m, e, hm⟩
  case infinity.positive => exact .inr (.inl rfl)
  case zero.positive => exact .inl rfl
  case finite.positive => exact .inr (.inr ⟨m, e, hm, rfl⟩)
  all_goals cases h

/-- A number with a plus is packed as one. -/
theorem isPlus_pack {u : UnpackedFloat} (h : (Double.ofUnpacked u).isPlus = true) :
    (Double.ofBits (UnpackedFloat.pack Format.binary64 u).toNat).isPlus = true := by
  obtain rfl | rfl | ⟨m, e, hm, rfl⟩ := unpacked_of_isPlus h
  · decide
  · decide
  · obtain ⟨exponent, mantissa, hpack, hnumber⟩ := exists_pack_finite m e hm
    rw [hpack]
    exact isPlus_packComponents hnumber

/-- Whether a machine number is a number, and its sign plus. -/
def IsPlus (x : Float) : Prop := (Double.ofFloat x).isPlus = true

theorem isPlus_iff_unpack {x : Float} :
    IsPlus x ↔ (Double.ofUnpacked x.toModel.unpack).isPlus = true := by
  rw [Double.ofUnpacked_unpack]
  rfl

theorem isPlus_ofModel {u : UnpackedFloat} (h : (Double.ofUnpacked u).isPlus = true) :
    IsPlus (.ofModel (.pack u)) :=
  isPlus_pack h

/-! ## Rounding -/

/-- A mantissa makes zero or a finite number. -/
theorem isPlus_mantissa (m : Nat) (e : Int) :
    (Double.ofUnpacked (if h : m = 0 then .zero .positive
      else .finite .positive m e (Nat.pos_of_ne_zero h))).isPlus = true := by
  by_cases h : m = 0
  · rw [dif_pos h]
    rfl
  · rw [dif_neg h]
    rfl

/-- Rounding gives such a number, of the sign that it is told. -/
theorem isPlus_roundWithAccuracy (m : Nat) (e : Int) (accuracy : Accuracy) :
    (Double.ofUnpacked (roundWithAccuracy Format.binary64 .positive m e accuracy)).isPlus = true :=
  isPlus_mantissa _ _

theorem isPlus_round (m : Nat) (e : Int) :
    (Double.ofUnpacked (round Format.binary64 .positive m e)).isPlus = true :=
  isPlus_roundWithAccuracy _ _ _

theorem isPlus_ofNat (n : Nat) :
    (Double.ofUnpacked (UnpackedFloat.ofNat Format.binary64 n)).isPlus = true := by
  cases n with
  | zero => rfl
  | succ n => exact isPlus_round _ _

/-- A natural number by a power of ten: zero, infinity, or what a product or quotient is
rounded to. -/
theorem isPlus_ofScientific (m : Nat) (e : Int) :
    (Double.ofUnpacked (UnpackedFloat.ofScientific Format.binary64 m e)).isPlus = true := by
  unfold UnpackedFloat.ofScientific
  by_cases hzero : m = 0
  · rw [dif_pos hzero]
    rfl
  rw [dif_neg hzero]
  by_cases hlarge : e > 2 ^ Format.binary64.exponentBits
  · rw [if_pos hlarge]
    rfl
  rw [if_neg hlarge]
  by_cases hsmall : e < -((2 ^ Format.binary64.exponentBits : Int) + m.log2)
  · rw [if_pos hsmall]
    rfl
  rw [if_neg hsmall]
  by_cases hwhole : 0 ≤ e
  · rw [if_pos hwhole]
    exact isPlus_roundWithAccuracy _ _ _
  · rw [if_neg hwhole]
    exact isPlus_roundWithAccuracy _ _ _

/-- Whether a number that is taken apart is finite and above zero. -/
def isAboveZero : UnpackedFloat → Bool
  | .finite .positive _ _ _ => true
  | _ => false

/-- Such a number divides one with the sign plus. -/
theorem isPlus_div {u v : UnpackedFloat} (hu : (Double.ofUnpacked u).isPlus = true)
    (hv : isAboveZero v = true) :
    (Double.ofUnpacked (UnpackedFloat.div Format.binary64 u v)).isPlus = true := by
  rcases v with _ | _ | _ | ⟨_ | _, n, f, hn⟩
  case finite.positive =>
    obtain rfl | rfl | ⟨m, e, hm, rfl⟩ := unpacked_of_isPlus hu
    · rfl
    · rfl
    · exact isPlus_roundWithAccuracy _ _ _
  all_goals cases hv

/-- All powers of ten that are looked up are above zero. -/
theorem isAboveZero_powersOfTen :
    ∀ y ∈ Float.exactlyRepresentablePowersOfTen, isAboveZero y.toModel.unpack = true := by
  decide +kernel

/-- **The double of a decimal is a number whose sign is plus.** -/
theorem Decimal.isPlus_toFloat (d : Decimal) : IsPlus d.toFloat := by
  unfold toFloat Float.ofScientific
  split
  · rename_i h
    refine isPlus_ofModel (isPlus_div ?_ (isAboveZero_powersOfTen _ (Array.getElem_mem _)))
    exact isPlus_iff_unpack.1 (isPlus_ofModel (isPlus_ofNat _))
  · exact isPlus_ofModel (isPlus_ofScientific _ _)

theorem isPlus_euler : IsPlus euler := Decimal.isPlus_toFloat ⟨2718281828459045, 15⟩

theorem isPlus_pi : IsPlus pi := Decimal.isPlus_toFloat ⟨3141592653589793, 15⟩

/-! ## Numbers of a text -/

variable {mode : VarMode} {tokens out : List Token} {x : Float}

/-- A number that is spelled has no sign. -/
theorem Spells.isPlus {v : List Char} (h : Spells mode v (.number x)) : IsPlus x := by
  cases h with
  | number _ => exact Decimal.isPlus_toFloat _
  | euler => exact isPlus_euler
  | pi => exact isPlus_pi

/-- Nor has any number of a text that is spellings. -/
theorem LexicalAfter.isPlus {u cs : List Char} {previous : Option Token}
    (h : LexicalAfter mode u previous cs tokens) (hmem : .number x ∈ tokens) : IsPlus x := by
  induction h with
  | nil => cases hmem
  | cons hspell _ _ _ ih =>
    obtain rfl | hmem := List.mem_cons.1 hmem
    · exact hspell.isPlus
    · exact ih hmem

/-- **No number of a formula has a sign, and each is a number.** -/
theorem Compiled.isPlus_of_mem {text : String} {c : Compiled} (h : compile mode text = .ok c)
    (hmem : .number x ∈ c.tokens) : IsPlus x := by
  obtain ⟨tokens, out, htokens, hout, rfl⟩ := compile_eq_ok_iff.1 h
  exact (tokenizeNormal_eq_ok_iff.1 htokens).isPlus ((Rpn.mem_of_toRpn hout rfl).1 hmem)

end Formula
