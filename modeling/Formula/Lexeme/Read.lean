import Formula.Lexeme.Basic
import Formula.Lexeme.Error
import Formula.Token
import Formula.Setting

/-!
# Formula.Lexeme.Read

From the pieces of a text to tokens.  A piece is read by itself, except that a
plus or minus is a sign where no operand stands before it.

* `Lexeme.read` — the token of one piece, or what is wrong with it;
* `readAll` — the tokens of pieces up to the first that is wrong;
* `tokenize` — the tokens of a text, which is brought to normal form first.
-/

namespace Formula

open Text

/-! ## Numerals -/

/-- The base of the natural logarithm, as the nearest double. -/
def euler : Float := 2.718281828459045

/-- The ratio of a circle to its diameter, as the nearest double. -/
def pi : Float := 3.141592653589793

/-- The number that a word stands for. -/
def constant? (name : List Char) : Option Float :=
  if name = ['e'] then some euler
  else if name = ['p', 'i'] then some pi
  else none

/-- Read a numeral: digits, with at most one point, and none at the end. -/
def readNumeral (literal : List Char) (position : Nat) : Except LexError Token :=
  if 1 < literal.count '.' then
    .error (.duplicateDecimalPoint (String.ofList literal) position)
  else if literal.getLast? = some '.' then
    .error (.trailingDecimalPoint (String.ofList literal) position)
  else .ok (.number (Decimal.ofLiteral literal).toFloat)

/-! ## Words -/

/-- The index that digits write, as a word of 64 bits; none if they write more
than such a word holds. -/
def indexValue? (digits : List Char) : Option Nat :=
  digits.foldlM
    (fun value c =>
      let value := 10 * value + (c.toNat - '0'.toNat)
      if value < UInt64.size then some value else none)
    0

/-- The name of every variable. -/
def variableName : List Char := ['x']

/-- Read the subscript at `position` as an index below the dimension. -/
def readIndex (size : UInt64) (s : Subscript) (position : Nat) : Except LexError Token :=
  let index := String.ofList s.index
  if ! s.closed then .error (.unclosedIndex position)
  else if s.index = [] ∨ ! s.index.all Char.isDigit then
    .error (.invalidIndex index (position + 1))
  else
    match indexValue? s.index with
    | some value =>
      if value < size.toNat then .ok (.var value)
      else .error (.indexOutOfRange index size.toNat (position + 1))
    | none => .error (.indexOutOfRange index size.toNat (position + 1))

/-- Read the variable at `position`, whose subscript stands at `bracket`. -/
def readVariable (mode : VarMode) (subscript? : Option Subscript) (position bracket : Nat) :
    Except LexError Token :=
  match mode, subscript? with
  | .constant, _ => .error (.variablesNotAllowed (String.ofList variableName) position)
  | .scalar, none => .ok (.var 0)
  | .scalar, some _ => .error (.indexInScalarMode position)
  | .vector _ _, none => .error (.scalarInVectorMode position)
  | .vector size _, some s => readIndex size s bracket

/-- The token of a word that means the same in every mode: a function or a
constant. -/
def fixedWord? (name : List Char) : Option Token :=
  match Func.ofName? (String.ofList name) with
  | some f => some (.func f)
  | none => (constant? name).map .number

/-- Read a word.  Only a variable may have a subscript. -/
def readWord (mode : VarMode) (name : List Char) (subscript? : Option Subscript)
    (position : Nat) : Except LexError Token :=
  let bracket := position + byteLength name
  match fixedWord? name, subscript? with
  | some token, none => .ok token
  | some _, some _ => .error (.illegalCharacter '[' bracket)
  | none, _ =>
    if name = variableName then readVariable mode subscript? position bracket
    else .error (.unknownIdentifier (String.ofList name) position)

/-! ## Symbols -/

/-- Whether an operand is still to come after the token before, so that a plus
or minus is a sign. -/
def awaitsOperand : Option Token → Bool
  | none => true
  | some token => token.isOperator || token = .leftParen || token = .comma

/-- The token of a symbol. -/
def Symbol.token (previous : Option Token) : Symbol → Token
  | plus => if awaitsOperand previous then .sign .pos else .binary .add
  | minus => if awaitsOperand previous then .sign .neg else .binary .sub
  | star => .binary .mul
  | slash => .binary .div
  | caret => .binary .pow
  | leftParen => .leftParen
  | rightParen => .rightParen
  | comma => .comma

/-! ## Texts -/

/-- The token of a piece of text that stands at `position` after the token
`previous`. -/
def Lexeme.read (mode : VarMode) (previous : Option Token) (position : Nat) :
    Lexeme → Except LexError Token
  | word name subscript? => readWord mode name subscript? position
  | numeral literal => readNumeral literal position
  | symbol s => .ok (s.token previous)
  | unknown c => .error (.illegalCharacter c position)

/-- The tokens of pieces of which the first stands at `position` after the
token `previous`. -/
def readAll (mode : VarMode) (previous : Option Token) (position : Nat) :
    List Lexeme → Except LexError (List Token)
  | [] => .ok []
  | piece :: pieces => do
    let token ← piece.read mode previous position
    let tokens ← readAll mode (some token) (position + byteLength piece.text) pieces
    return token :: tokens

/-- The tokens of a text already in normal form. -/
def tokenizeNormal (mode : VarMode) (cs : List Char) : Except LexError (List Token) :=
  readAll mode none 0 (Lexeme.split cs)

/-- The tokens of a text.  Neither spacing nor letter case matters. -/
def tokenize (mode : VarMode) (text : String) : Except LexError (List Token) :=
  tokenizeNormal mode (normalise text.toList)

/-- As many tokens are read as there are pieces. -/
theorem length_of_readAll {mode : VarMode} {previous : Option Token} {position : Nat}
    {pieces : List Lexeme} {tokens : List Token}
    (h : readAll mode previous position pieces = .ok tokens) :
    tokens.length = pieces.length := by
  induction pieces generalizing previous position tokens with
  | nil =>
    cases h
    rfl
  | cons piece pieces ih =>
    unfold readAll at h
    cases hread : piece.read mode previous position with
    | error e => rw [hread] at h; cases h
    | ok token =>
      rw [hread] at h
      cases hrest : readAll mode (some token) (position + byteLength piece.text) pieces with
      | error e => simp [bind, Except.bind, hrest] at h
      | ok rest =>
        simp only [bind, Except.bind, hrest, pure, Except.pure, Except.ok.injEq] at h
        rw [← h, List.length_cons, List.length_cons, ih hrest]

end Formula
