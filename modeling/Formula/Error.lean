import Formula.Setting
import Formula.Compiled

/-!
# Formula.Error

Everything that can go wrong from a setting to a value.
-/

namespace Formula

/-- Why a request has no answer. -/
inductive Error
  | setting (e : SettingError)
  | lex (e : LexError)
  | rpn (e : RpnError)
  | eval (e : EvalError)
  | noSlot (name : String)
  deriving DecidableEq

namespace Error

/-- A text that is no formula. -/
def ofCompile : CompileError → Error
  | .lex e => lex e
  | .rpn e => rpn e

/-- The error in words. -/
def message : Error → String
  | setting e => e.message
  | lex e => e.message
  | rpn e => e.message
  | eval e => e.message
  | noSlot name => name

end Error

end Formula
