import Formula.Grammar.Basic
import Formula.Lexical

/-!
# Formula.Grammar.Spelling

The texts that write a formula of the grammar.

* `Atom` — the operands of a text, as they are spelled;
* `Phrase.chars` — a formula written without blanks and in lower case;
* `Writes` — the other texts that write it, with blanks anywhere and letters
  of either case.
-/

namespace Formula

/-- An operand of a text. -/
inductive Atom
  | numeral (literal : List Char)
  | euler
  | pi
  | scalar
  | indexed (digits : List Char)
  deriving DecidableEq

namespace Atom

/-- The spelling of an operand. -/
def chars : Atom → List Char
  | numeral literal => literal
  | euler => ['e']
  | pi => ['p', 'i']
  | scalar => ['x']
  | indexed digits => 'x' :: '[' :: (digits ++ [']'])

/-- What an operand means. -/
def operand : Atom → Operand
  | numeral literal => .number (Decimal.ofLiteral literal).toFloat
  | euler => .number Formula.euler
  | pi => .number Formula.pi
  | scalar => .var 0
  | indexed digits => .var (Nat.ofDigitChars 10 digits 0)

/-- Whether an operand may stand in a formula of the given mode. -/
def Legal (mode : VarMode) : Atom → Prop
  | numeral literal => IsNumeral literal
  | euler | pi => True
  | scalar => mode = .scalar
  | indexed digits =>
    IsDigits digits ∧
      ∃ size h, mode = .vector size h ∧ Nat.ofDigitChars 10 digits 0 < size.toNat

end Atom

/-- The character of an operator. -/
def BinOp.char : BinOp → Char
  | add => '+'
  | sub => '-'
  | mul => '*'
  | div => '/'
  | pow => '^'

/-- The character of a sign. -/
def Sign.char : Sign → Char
  | neg => '-'
  | pos => '+'

namespace Phrase

/-- Whether all operands of a formula have a property. -/
def All (P : α → Prop) : Phrase α l → Prop
  | operand a => P a
  | group body => body.All P
  | apply _ argument => argument.All P
  | call _ arguments => arguments.All P
  | pair first last => first.All P ∧ last.All P
  | cons first rest => first.All P ∧ rest.All P
  | ofPrimary p => p.All P
  | power base exponent => base.All P ∧ exponent.All P
  | sign _ body => body.All P
  | ofFactor p => p.All P
  | product lhs _ rhs => lhs.All P ∧ rhs.All P
  | ofTerm p => p.All P
  | sum lhs _ rhs => lhs.All P ∧ rhs.All P

/-- Whether every function of a formula has one argument, in parentheses. -/
def Called : Phrase α l → Prop
  | operand _ => True
  | group body => body.Called
  | apply _ (group body) => body.Called
  | apply _ _ => False
  | call _ _ => False
  | pair first last => first.Called ∧ last.Called
  | cons first rest => first.Called ∧ rest.Called
  | ofPrimary p => p.Called
  | power base exponent => base.Called ∧ exponent.Called
  | sign _ body => body.Called
  | ofFactor p => p.Called
  | product lhs _ rhs => lhs.Called ∧ rhs.Called
  | ofTerm p => p.Called
  | sum lhs _ rhs => lhs.Called ∧ rhs.Called

/-- A formula written without blanks and in lower case. -/
def chars : Phrase Atom l → List Char
  | operand a => a.chars
  | group body => '(' :: (body.chars ++ [')'])
  | apply f argument => f.name.toList ++ argument.chars
  | call f arguments => f.name.toList ++ '(' :: (arguments.chars ++ [')'])
  | pair first last => first.chars ++ ',' :: last.chars
  | cons first rest => first.chars ++ ',' :: rest.chars
  | ofPrimary p => p.chars
  | power base exponent => base.chars ++ '^' :: exponent.chars
  | sign s body => s.char :: body.chars
  | ofFactor p => p.chars
  | product lhs op rhs => lhs.chars ++ op.op.char :: rhs.chars
  | ofTerm p => p.chars
  | sum lhs op rhs => lhs.chars ++ op.op.char :: rhs.chars

end Phrase

/-- Whether a text is the characters `cs`, with blanks anywhere and the letters
of ASCII in either case. -/
def Writes (text : String) (cs : List Char) : Prop :=
  (text.toList.filter (! Text.isBlank ·)).map Char.toLower = cs

end Formula
