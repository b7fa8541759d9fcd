import Formula.Func
import Formula.Decimal.Plain

/-!
# Formula.Token

The tokens of a formula, which serve both for the order in which a formula is
written and for the order in which it is worked out.

* `Token.binding?` — how tightly an operator holds its operands;
* `Token.text`, `debugText` — the symbolic names of tokens;
* `Token.agrees` — sameness of tokens up to the comparison of numbers.
-/

namespace Formula

/-! ## Operators -/

/-- The operators that stand between two operands. -/
inductive BinOp
  | add | sub | mul | div | pow
  deriving DecidableEq, Repr

/-- The operators that stand before one operand. -/
inductive Sign
  | neg | pos
  deriving DecidableEq, Repr

/-- Which of two operators of one precedence is worked out first. -/
inductive Assoc
  | left | right
  deriving DecidableEq, Repr

/-- How an operator holds its operands: a higher precedence holds tighter. -/
structure Binding where
  precedence : Nat
  assoc : Assoc
  deriving DecidableEq, Repr

/-- Whether an operator waiting with the binding `waiting` is worked out before
an operator of binding `next` that follows it. -/
def Binding.goesBefore (waiting next : Binding) : Bool :=
  next.precedence < waiting.precedence ||
    (waiting.precedence == next.precedence && next.assoc == .left)

/-- Sums bind least, then products, then powers, which group from the right. -/
def BinOp.binding : BinOp → Binding
  | add | sub => ⟨1, .left⟩
  | mul | div => ⟨2, .left⟩
  | pow => ⟨3, .right⟩

/-- A sign binds like a power. -/
def Sign.binding : Binding := ⟨3, .right⟩

/-- A function binds tighter than any operator. -/
def Func.binding : Binding := ⟨4, .right⟩

/-! ## Tokens -/

/-- One token of a formula. -/
inductive Token
  | number (value : Float)
  | var (index : Nat)
  | func (f : Func)
  | binary (op : BinOp)
  | sign (s : Sign)
  | leftParen
  | rightParen
  | comma
  deriving DecidableEq

namespace Token

/-- The binding of a token that is applied to operands. -/
def binding? : Token → Option Binding
  | binary op => some op.binding
  | sign _ => some Sign.binding
  | func _ => some Func.binding
  | number _ | var _ | leftParen | rightParen | comma => none

/-- Whether the token is a binary operator or a sign. -/
def isOperator : Token → Bool
  | binary _ | sign _ => true
  | _ => false

/-- Whether the token is a parenthesis. -/
def isParen : Token → Bool
  | leftParen | rightParen => true
  | _ => false

/-- Sameness of tokens where numbers are compared as numbers: a number that is
no number differs from itself, and the two zeros agree. -/
def agrees : Token → Token → Bool
  | number a, number b => a == b
  | s, t => s = t

end Token

/-! ## Symbolic names -/

/-- The symbolic name of a binary operator. -/
def BinOp.text : BinOp → String
  | add => "ADD"
  | sub => "SUB"
  | mul => "MUL"
  | div => "DIV"
  | pow => "POW"

/-- The symbolic name of a sign. -/
def Sign.text : Sign → String
  | neg => "NEG"
  | pos => "POS"

/-- The symbolic name of a token. -/
def Token.text : Token → String
  | number value => plainText value
  | var index => "VAR_" ++ index.repr
  | func f => f.name
  | binary op => op.text
  | sign s => s.text
  | leftParen => "LPAR"
  | rightParen => "RPAR"
  | comma => "COM"

/-- The symbolic names of tokens with one blank between two of them. -/
def debugText (tokens : List Token) : String :=
  " ".intercalate (tokens.map Token.text)

@[simp] theorem debugText_nil : debugText [] = "" := rfl

end Formula
