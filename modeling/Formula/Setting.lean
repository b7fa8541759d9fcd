import Formula.Decimal.Plain

/-!
# Formula.Setting

The settings that may be refused, and why.

* `VarMode` — which variables a formula may use;
* `VarMode.Request.grant` — the mode that is asked for, unless it has no
  variables where it should have some.

The other setting is the threshold of an evaluator.
-/

namespace Formula

/-! ## Refusals -/

/-- Why a setting is refused. -/
inductive SettingError
  | zeroDimension
  | invalidEpsilon (epsilon : Float)
  deriving DecidableEq

/-- The error in words. -/
def SettingError.message : SettingError → String
  | zeroDimension => "vector variables need a dimension of at least 1"
  | invalidEpsilon epsilon =>
    "epsilon must be finite and non-negative, got " ++ plainText epsilon

/-! ## Variables -/

/-- The variables a formula may use: none at all, the one variable `x`, or
`x[0]`, `x[1]`, … as many as the dimension says. -/
inductive VarMode
  | constant
  | scalar
  | vector (size : UInt64) (size_ne_zero : size ≠ 0)
  deriving DecidableEq, Repr

namespace VarMode

/-- The mode of a formula for which none is asked. -/
instance : Inhabited VarMode := ⟨constant⟩

/-- How many variables a formula may use. -/
def dimension : VarMode → Nat
  | constant => 0
  | scalar => 1
  | vector size _ => size.toNat

/-- The vector mode of a dimension, which has to be at least one. -/
def ofDimension (size : UInt64) : Except SettingError VarMode :=
  if h : size ≠ 0 then .ok (vector size h) else .error .zeroDimension

/-- A dimension fits in a word of 64 bits. -/
theorem dimension_lt (mode : VarMode) : mode.dimension < UInt64.size := by
  cases mode with
  | constant => decide
  | scalar => decide
  | vector size _ => exact size.toNat_lt

/-- A mode as it is asked for, which may be refused. -/
inductive Request
  | constant
  | scalar
  | vector (size : UInt64)
  deriving DecidableEq, Repr

/-- The mode that is asked for. -/
def Request.grant : Request → Except SettingError VarMode
  | constant => .ok VarMode.constant
  | scalar => .ok VarMode.scalar
  | vector size => ofDimension size

end VarMode

end Formula
