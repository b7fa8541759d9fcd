import Formula.Lexical
import Formula.Proofs.Outcome

/-!
# Formula.Proofs.Placing

Which of the tokens of a text are signs.

* `placed_of_read` — a plus or minus that is read is a sign where an operand is
  still to come, and an operator elsewhere;
* `placedAll_of_tokenize` — so is every plus or minus of a text.
-/

namespace Formula

variable {mode : VarMode} {position : Nat} {tokens : List Token} {token : Token}
  {previous : Option Token}

/-! ## One token -/

/-- Only operators and signs depend on what stands before them. -/
theorem placed_of_isOperator_eq_false (h : token.isOperator = false) : Placed previous token := by
  cases token with
  | binary op => cases h
  | sign g => cases h
  | _ => trivial

theorem isOperator_of_fixedWord? {name : List Char} (h : fixedWord? name = some token) :
    token.isOperator = false := by
  unfold fixedWord? at h
  split at h
  · cases h
    rfl
  · obtain ⟨value, -, rfl⟩ := Option.map_eq_some_iff.1 h
    rfl

theorem isOperator_of_readIndex {size : UInt64} {s : Subscript}
    (h : readIndex size s position = .ok token) : token.isOperator = false := by
  unfold readIndex at h
  split at h
  · cases h
  split at h
  · cases h
  split at h
  · split at h
    · cases h
      rfl
    · cases h
  · cases h

theorem isOperator_of_readVariable {subscript? : Option Subscript} {bracket : Nat}
    (h : readVariable mode subscript? position bracket = .ok token) :
    token.isOperator = false := by
  unfold readVariable at h
  split at h
  · cases h
  · cases h
    rfl
  · cases h
  · cases h
  · exact isOperator_of_readIndex h

/-- No word is read as an operator or a sign. -/
theorem isOperator_of_readWord {name : List Char} {subscript? : Option Subscript}
    (h : readWord mode name subscript? position = .ok token) : token.isOperator = false := by
  simp only [readWord] at h
  split at h
  · rename_i hfixed
    cases h
    exact isOperator_of_fixedWord? hfixed
  · cases h
  · split at h
    · exact isOperator_of_readVariable h
    · cases h

/-- No numeral is read as an operator or a sign. -/
theorem isOperator_of_readNumeral {literal : List Char}
    (h : readNumeral literal position = .ok token) : token.isOperator = false := by
  unfold readNumeral at h
  split at h
  · cases h
  split at h
  · cases h
  · cases h
    rfl

/-- A plus or minus is a sign where an operand is still to come, and an operator
elsewhere. -/
theorem placed_symbol (s : Symbol) : Placed previous (s.token previous) := by
  cases hawaits : awaitsOperand previous with
  | false => cases s <;> simp [Symbol.token, Placed, hawaits]
  | true => cases s <;> simp [Symbol.token, Placed, hawaits]

/-- What is read has the right kind after the token before it. -/
theorem placed_of_read {piece : Lexeme}
    (h : piece.read mode previous position = .ok token) : Placed previous token := by
  cases piece with
  | word name subscript? => exact placed_of_isOperator_eq_false (isOperator_of_readWord h)
  | numeral literal => exact placed_of_isOperator_eq_false (isOperator_of_readNumeral h)
  | symbol s =>
    cases h
    exact placed_symbol s
  | unknown c => cases h

/-! ## Texts -/

/-- Whether each of the tokens has the right kind after the one before it. -/
def PlacedAll : Option Token → List Token → Prop
  | _, [] => True
  | previous, token :: tokens => Placed previous token ∧ PlacedAll (some token) tokens

/-- What is read of several pieces has the right kind throughout. -/
theorem placedAll_of_readAll {pieces : List Lexeme}
    (h : readAll mode previous position pieces = .ok tokens) : PlacedAll previous tokens := by
  induction pieces generalizing previous position tokens with
  | nil =>
    cases h
    trivial
  | cons piece pieces ih =>
    obtain ⟨token, hread, h⟩ := bind_eq_ok.1 h
    obtain ⟨rest, hrest, h⟩ := bind_eq_ok.1 h
    cases h
    exact ⟨placed_of_read hread, ih hrest⟩

/-- The tokens of a text are signs and operators by what stands before them. -/
theorem placedAll_of_tokenize {text : String} (h : tokenize mode text = .ok tokens) :
    PlacedAll none tokens :=
  placedAll_of_readAll h

end Formula
