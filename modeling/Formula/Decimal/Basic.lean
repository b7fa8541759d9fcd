/-!
# Formula.Decimal.Basic

Decimal numbers in positional notation: a coefficient and the number of its
digits that stand after the point.

* `Decimal.plain` — writes one, with every zero that the places ask for and
  no exponent;
* `Decimal.trim` — drops the zeros at the end of a fraction;
* `Decimal.ofLiteral` — reads digits with at most one point among them.
-/

namespace Formula

/-- The number `coefficient / 10 ^ places`. -/
structure Decimal where
  coefficient : Nat
  places : Nat
  deriving DecidableEq, Repr

namespace Decimal

/-- The decimal `n * 10 ^ e`. -/
def scaled (n : Nat) (e : Int) : Decimal :=
  ⟨n * Nat.pow 10 e.toNat, (-e).toNat⟩

/-- Two decimals are the same number. -/
def Equiv (a b : Decimal) : Prop :=
  a.coefficient * Nat.pow 10 b.places = b.coefficient * Nat.pow 10 a.places

/-! ## Zeros at the end of a fraction -/

/-- Drop from `n / 10 ^ p` the zeros that end its fraction. -/
def trimPlaces (n : Nat) : Nat → Decimal
  | 0 => ⟨n, 0⟩
  | p + 1 => if n % 10 = 0 then trimPlaces (n / 10) p else ⟨n, p + 1⟩

/-- The same number without zeros at the end of its fraction. -/
def trim (d : Decimal) : Decimal := trimPlaces d.coefficient d.places

theorem trimPlaces_equiv (n p : Nat) : Equiv (trimPlaces n p) ⟨n, p⟩ := by
  induction p generalizing n with
  | zero => rfl
  | succ p ih =>
    unfold trimPlaces
    split
    · rename_i h
      have := ih (n / 10)
      simp only [Equiv] at this ⊢
      have hn : n = n / 10 * 10 := by omega
      have hp : Nat.pow 10 (p + 1) = Nat.pow 10 p * 10 := rfl
      rw [hp, ← Nat.mul_assoc, this, Nat.mul_right_comm, ← hn]
    · rfl

/-- Trimming keeps the number. -/
theorem trim_equiv (d : Decimal) : Equiv d.trim d :=
  trimPlaces_equiv d.coefficient d.places

/-! ## Writing -/

/-- The decimal in positional notation: at least one digit before the point,
exactly `places` digits after it, and no point where there are none. -/
def plain (d : Decimal) : List Char :=
  match d.places with
  | 0 => Nat.toDigits 10 d.coefficient
  | p + 1 =>
    let digits := Nat.toDigits 10 d.coefficient
    let padded := List.replicate (p + 2 - digits.length) '0' ++ digits
    padded.take (padded.length - (p + 1)) ++ '.' :: padded.drop (padded.length - (p + 1))

/-! ## Reading -/

/-- The decimal that a literal writes: all of its digits, of which those after
the point count the places. -/
def ofLiteral (literal : List Char) : Decimal :=
  let whole := literal.takeWhile (· ≠ '.')
  let fraction := (literal.dropWhile (· ≠ '.')).drop 1
  ⟨Nat.ofDigitChars 10 (whole ++ fraction) 0, fraction.length⟩

/-- The double nearest to the decimal; of two equally near, the one with the
even mantissa. -/
def toFloat (d : Decimal) : Float :=
  Float.ofScientific d.coefficient true d.places

end Decimal

end Formula
