import Formula.Lexeme.Read

/-!
# Formula.Lexical

The lexical language of formulas: which texts in normal form are tokens one
after the other, said without cutting a text from the left.

* `Spells` — the spellings of a token;
* `Separate` — spellings that may stand side by side;
* `Lexical` — a text that is spellings of given tokens;
* `Decomposes` — the same with the spellings one by one.
-/

namespace Formula

/-- Digits, at least one. -/
def IsDigits (cs : List Char) : Prop := cs ≠ [] ∧ ∀ c ∈ cs, c.isDigit = true

/-- Digits, or digits with a point among them. -/
inductive IsNumeral : List Char → Prop
  | whole {cs : List Char} : IsDigits cs → IsNumeral cs
  | point {whole fraction : List Char} :
    IsDigits whole → IsDigits fraction → IsNumeral (whole ++ '.' :: fraction)

/-- The spellings of a token.  A plus or minus is spelled alike as an operator
and as a sign. -/
inductive Spells (mode : VarMode) : List Char → Token → Prop
  | number {cs : List Char} :
    IsNumeral cs → Spells mode cs (.number (Decimal.ofLiteral cs).toFloat)
  | euler : Spells mode ['e'] (.number euler)
  | pi : Spells mode ['p', 'i'] (.number pi)
  | func (f : Func) : Spells mode f.name.toList (.func f)
  | scalar : mode = .scalar → Spells mode ['x'] (.var 0)
  | indexed {digits : List Char} {size : UInt64} {h : size ≠ 0} :
    mode = .vector size h → IsDigits digits → Nat.ofDigitChars 10 digits 0 < size.toNat →
    Spells mode ('x' :: '[' :: (digits ++ [']'])) (.var (Nat.ofDigitChars 10 digits 0))
  | add : Spells mode ['+'] (.binary .add)
  | sub : Spells mode ['-'] (.binary .sub)
  | pos : Spells mode ['+'] (.sign .pos)
  | neg : Spells mode ['-'] (.sign .neg)
  | mul : Spells mode ['*'] (.binary .mul)
  | div : Spells mode ['/'] (.binary .div)
  | pow : Spells mode ['^'] (.binary .pow)
  | leftParen : Spells mode ['('] .leftParen
  | rightParen : Spells mode [')'] .rightParen
  | comma : Spells mode [','] .comma

/-- Letters, at least one. -/
def IsLetters (cs : List Char) : Prop := cs ≠ [] ∧ ∀ c ∈ cs, c.isAlpha = true

/-- Whether one spelling may stand directly before another: letters alone do
not stand before a letter, and a numeral does not stand before a numeral. -/
def Separate (u v : List Char) : Prop :=
  (IsLetters u → ∀ c ∈ v.head?, c.isAlpha = false) ∧ (IsNumeral u → ¬ IsNumeral v)

/-- Whether a token has the right kind after the token before it: a sign where
an operand is still to come, and an operator plus or minus elsewhere. -/
def Placed (previous : Option Token) : Token → Prop
  | .sign _ => awaitsOperand previous = true
  | .binary .add | .binary .sub => awaitsOperand previous = false
  | _ => True

/-- `LexicalAfter mode u previous text tokens`: the text is spellings of the
tokens one after the other, where the spelling `u` of the token `previous`
stands before them. -/
inductive LexicalAfter (mode : VarMode) :
    List Char → Option Token → List Char → List Token → Prop
  | nil {u : List Char} {previous : Option Token} : LexicalAfter mode u previous [] []
  | cons {u v rest : List Char} {previous : Option Token} {token : Token}
      {tokens : List Token} :
    Spells mode v token → Separate u v → Placed previous token →
    LexicalAfter mode v (some token) rest tokens →
    LexicalAfter mode u previous (v ++ rest) (token :: tokens)

/-- The text is spellings of the tokens one after the other. -/
def Lexical (mode : VarMode) (text : List Char) (tokens : List Token) : Prop :=
  LexicalAfter mode [] none text tokens

/-- Whether spellings, each with its token, may stand one after the other where
the spelling `u` of the token `previous` stands before them. -/
def SpelledAfter (mode : VarMode) :
    List Char → Option Token → List (List Char × Token) → Prop
  | _, _, [] => True
  | u, previous, (v, token) :: spelled =>
    Spells mode v token ∧ Separate u v ∧ Placed previous token ∧
      SpelledAfter mode v (some token) spelled

/-- The text is the spellings one after the other. -/
def Decomposes (mode : VarMode) (text : List Char) (spelled : List (List Char × Token)) :
    Prop :=
  SpelledAfter mode [] none spelled ∧ spelled.flatMap (·.1) = text

/-- The spelling of a token is not empty. -/
theorem Spells.ne_nil {mode : VarMode} {cs : List Char} {token : Token}
    (h : Spells mode cs token) : cs ≠ [] := by
  cases h with
  | number h =>
    cases h with
    | whole h => exact h.1
    | point => simp
  | func f => cases f <;> simp [Func.name]
  | _ => simp

end Formula
