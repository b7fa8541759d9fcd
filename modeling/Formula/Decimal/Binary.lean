/-!
# Formula.Decimal.Binary

A double taken apart: its sign and, where it is finite, the whole number of
units in its last place.
-/

namespace Formula

/-- The magnitude `mantissa * 2 ^ exponent` of a finite double, where
`2 ^ exponent` is the distance to the next double above it.  `narrowBelow`
says that the next double below is only half as far. -/
structure Binary where
  mantissa : Nat
  exponent : Int
  narrowBelow : Bool
  deriving DecidableEq, Repr

/-- What a double stands for. -/
inductive Double
  | nan
  | infinite (negative : Bool)
  | finite (negative : Bool) (magnitude : Binary)
  deriving DecidableEq, Repr

namespace Binary

/-- The magnitude with exponent field `e` and fraction field `f`: below the
least normal number the distance between neighbours stays the same. -/
def ofFields (e f : Nat) : Binary :=
  if e = 0 then ⟨f, -1074, false⟩
  else ⟨0x10000000000000 + f, (e : Int) - 1075, decide (f = 0 ∧ 1 < e)⟩

end Binary

namespace Double

/-- The double written in 64 bits: a sign bit, eleven bits of exponent and
fifty-two of fraction. -/
def ofBits (bits : Nat) : Double :=
  let negative := decide (bits / 0x8000000000000000 = 1)
  let e := bits / 0x10000000000000 % 0x800
  let f := bits % 0x10000000000000
  if e = 0x7FF then
    if f = 0 then infinite negative else nan
  else finite negative (Binary.ofFields e f)

/-- What a machine number stands for. -/
def ofFloat (x : Float) : Double := ofBits x.toBits.toNat

end Double

end Formula
