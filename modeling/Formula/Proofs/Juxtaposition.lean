import Formula.Compiled
import Formula.Proofs.Counting
import Formula.Proofs.Placing
import Formula.Proofs.Sentences

/-!
# Formula.Proofs.Juxtaposition

Which formulas with a value are sentences of the grammar.

That a formula has a value says of its tokens only how many there are of each
kind: one operand more than binary operators, no comma, and parentheses that
match.  A binary operator too many somewhere makes up for an operand too many
elsewhere, and so `3(4)+` has the value of `3+4`.  But two operands can be too
many only where they meet:

* `Juxtaposed` — an operand begins directly after another has ended;
* `Spaced.countP_isOperand_le` — where they do not meet, the operands are at most
  one more than the binary operators;
* `alternates_of_run` — and they are as many only when every token stands at its
  place;
* `isSentence_iff_of_evaluate` — a formula with a value is a sentence exactly
  when no operands meet in it.
-/

namespace Formula

/-- Whether an operand begins directly after another has ended. -/
def Juxtaposed (tokens : List Token) : Prop :=
  ∃ s a b t, tokens = s ++ a :: b :: t ∧ a.endsOperand = true ∧ b.beginsOperand = true

variable {tokens : List Token} {token : Token} {previous : Option Token}

theorem Juxtaposed.append (h : Juxtaposed tokens) (u : List Token) : Juxtaposed (u ++ tokens) := by
  obtain ⟨s, a, b, t, rfl, ha, hb⟩ := h
  exact ⟨u ++ s, a, b, t, by rw [List.append_assoc], ha, hb⟩

/-! ## Sentences -/

/-- The first token stands at its place, and the others stand at theirs. -/
theorem Alternates.tail {place : Place} {depth : Nat}
    (h : Alternates place depth (token :: tokens)) :
    place.admits token = true ∧ ∃ depth', Alternates (.after token) depth' tokens := by
  cases h with
  | leftParen hplace hrest => exact ⟨hplace, _, hrest⟩
  | rightParen hrest => exact ⟨rfl, _, hrest⟩
  | cons hparen hplace hrest => exact ⟨hplace, _, hrest⟩

/-- Of two tokens, the second stands where the first asks for it. -/
theorem Alternates.admits_next {place : Place} {depth : Nat} {s t : List Token} {a b : Token}
    (h : Alternates place depth (s ++ a :: b :: t)) : (Place.after a).admits b = true := by
  induction s generalizing place depth with
  | nil =>
    obtain ⟨-, _, hrest⟩ := h.tail
    exact hrest.tail.1
  | cons c s ih =>
    obtain ⟨-, _, hrest⟩ := h.tail
    exact ih hrest

/-- After the end of an operand comes an operator. -/
theorem Place.after_eq_operator_iff : Place.after token = .operator ↔ token.endsOperand = true := by
  cases token <;> simp [Place.after, Token.endsOperand]

/-- No operands meet in a sentence. -/
theorem not_juxtaposed_of_isSentence (h : IsSentence tokens) : ¬ Juxtaposed tokens := by
  rintro ⟨s, a, b, t, rfl, ha, hb⟩
  have hadmits := (isSentence_iff_alternates.1 h).admits_next
  exact Place.ne_operator hadmits hb (Place.after_eq_operator_iff.2 ha)

/-! ## Operands apart -/

/-- The place after a token, or at the beginning. -/
def placeAfter (previous : Option Token) : Place := previous.elim .formula .after

/-- Whether tokens may follow the token before them without an operand, a comma
or a sign that is out of place. -/
structure Spaced (previous : Option Token) (tokens : List Token) : Prop where
  placed : PlacedAll previous tokens
  comma_not_mem : .comma ∉ tokens
  apart : ¬ Juxtaposed (previous.toList ++ tokens)

namespace Spaced

/-- What is in order after one token is in order after the next. -/
theorem tail (h : Spaced previous (token :: tokens)) : Spaced (some token) tokens := by
  refine ⟨h.placed.2, fun hmem => h.comma_not_mem (List.mem_cons_of_mem _ hmem), ?_⟩
  intro hmeet
  exact h.apart (hmeet.append previous.toList)

theorem ne_comma (h : Spaced previous (token :: tokens)) : token ≠ .comma := by
  rintro rfl
  exact h.comma_not_mem List.mem_cons_self

/-- No operand begins where an operator is asked for. -/
theorem ne_operator (h : Spaced previous (token :: tokens)) (hbegins : token.beginsOperand = true) :
    placeAfter previous ≠ .operator := by
  intro hplace
  cases previous with
  | none => cases hplace
  | some a =>
    exact h.apart ⟨[], a, token, tokens, rfl, Place.after_eq_operator_iff.1 hplace, hbegins⟩

/-- No sign stands where a primary is asked for. -/
theorem ne_sign (h : Spaced previous (token :: tokens)) (hplace : placeAfter previous = .primary)
    (g : Sign) : token ≠ .sign g := by
  rintro rfl
  have hplaced := h.placed.1
  cases previous with
  | none => cases hplace
  | some a =>
    cases a with
    | func f => cases hplaced
    | _ => cases hplace

end Spaced

/-! ## Counting the operands -/

/-- How many operands a place asks for. -/
def Place.asks : Place → Nat
  | operator => 0
  | formula | primary => 1

/-- A token gives as many operands as it takes from those asked for when it
stands at its place, and fewer when it does not. -/
theorem Spaced.admits_or_asks_lt (h : Spaced previous (token :: tokens)) :
    (placeAfter previous).admits token = true ∧
        token.isOperand.toNat + (Place.after token).asks =
          token.isBinary.toNat + (placeAfter previous).asks ∨
      token.isOperand.toNat + (Place.after token).asks <
        token.isBinary.toNat + (placeAfter previous).asks := by
  cases hplace : placeAfter previous with
  | operator =>
    cases token with
    | binary op => exact .inl ⟨rfl, rfl⟩
    | rightParen => exact .inl ⟨rfl, rfl⟩
    | comma => exact absurd rfl h.ne_comma
    | _ => exact absurd hplace (h.ne_operator rfl)
  | formula =>
    cases token with
    | binary op => exact .inr (Nat.lt_add_one 1)
    | rightParen => exact .inr (Nat.lt_add_one 0)
    | comma => exact absurd rfl h.ne_comma
    | _ => exact .inl ⟨rfl, rfl⟩
  | primary =>
    cases token with
    | binary op => exact .inr (Nat.lt_add_one 1)
    | rightParen => exact .inr (Nat.lt_add_one 0)
    | sign g => exact absurd rfl (h.ne_sign hplace g)
    | comma => exact absurd rfl h.ne_comma
    | _ => exact .inl ⟨rfl, rfl⟩

theorem countP_cons (p : Token → Bool) :
    (token :: tokens).countP p = (p token).toNat + tokens.countP p := by
  rw [List.countP_cons, Nat.add_comm]
  cases p token <;> rfl

/-- The operands are at most as many as the binary operators and the place ask
for. -/
theorem Spaced.countP_isOperand_le (h : Spaced previous tokens) :
    tokens.countP Token.isOperand ≤
      tokens.countP Token.isBinary + (placeAfter previous).asks := by
  induction tokens generalizing previous with
  | nil => exact Nat.zero_le _
  | cons token tokens ih =>
    have hrest : tokens.countP Token.isOperand ≤
        tokens.countP Token.isBinary + (Place.after token).asks := ih h.tail
    rw [countP_cons, countP_cons]
    obtain ⟨-, heq⟩ | hlt := h.admits_or_asks_lt
    · omega
    · omega

/-! ## Places -/

namespace Rpn

/-- A token at its place opens or closes a parenthesis as it is taken in. -/
theorem alternates_cons {position : Nat} {held held' : List Held} {out : List Token}
    {place : Place} (h : Takes position held token out held')
    (hplace : place.admits token = true)
    (hrest : Alternates (.after token) (openParens held').length tokens) :
    Alternates place (openParens held).length (token :: tokens) := by
  cases token with
  | leftParen =>
    rw [h.openParens_of_leftParen] at hrest
    exact .leftParen hplace hrest
  | rightParen =>
    obtain ⟨i, hopen⟩ := h.openParens_of_rightParen
    rw [hopen]
    cases place with
    | operator => exact .rightParen hrest
    | formula | primary => cases hplace
  | _ =>
    rw [h.openParens_eq rfl] at hrest
    exact .cons rfl hplace hrest

/-- The tokens of a formula that is taken in stand at their places, if no
operands meet in it and it has as many of them as are asked for. -/
theorem alternates_of_run {position : Nat} {held held' : List Held} {out : List Token}
    (hrun : run position held tokens = .ok (out, held')) (hopen : openParens held' = [])
    (h : Spaced previous tokens)
    (hcount : tokens.countP Token.isOperand =
      tokens.countP Token.isBinary + (placeAfter previous).asks) :
    Alternates (placeAfter previous) (openParens held).length tokens := by
  induction tokens generalizing position held out previous with
  | nil =>
    cases hrun
    rw [hopen]
    cases hplace : placeAfter previous with
    | operator => exact .nil
    | formula | primary =>
      rw [hplace] at hcount
      cases hcount
  | cons token tokens ih =>
    obtain ⟨first, held₁, rest, hfirst, hrest, rfl⟩ := run_cons_eq_ok_iff.1 hrun
    -- The rest cannot make up for a token that is not at its place.
    have hbound : tokens.countP Token.isOperand ≤
        tokens.countP Token.isBinary + (Place.after token).asks := h.tail.countP_isOperand_le
    rw [countP_cons, countP_cons] at hcount
    obtain ⟨hplace, heq⟩ | hlt := h.admits_or_asks_lt
    · have hremain : tokens.countP Token.isOperand =
          tokens.countP Token.isBinary + (Place.after token).asks := by omega
      exact alternates_cons hfirst hplace (ih hrest h.tail hremain)
    · omega

end Rpn

/-- A formula with a value in which no operands meet is a sentence. -/
theorem isSentence_of_not_juxtaposed {mode : VarMode} {text : String} {out : List Token}
    {e : Evaluator} {values : Array Float} {x : Float}
    (htokens : tokenize mode text = .ok tokens) (hout : toRpn tokens = .ok out)
    (hx : e.evaluate out values = .ok x) (hapart : ¬ Juxtaposed tokens) : IsSentence tokens := by
  obtain ⟨hsum, hcomma⟩ := addsUp_of_evaluate hout hx
  obtain ⟨first, held, hrun, hopen, -⟩ := Rpn.toRpn_eq_ok_iff.1 hout
  have hspaced : Spaced none tokens := ⟨placedAll_of_tokenize htokens, hcomma, hapart⟩
  exact isSentence_iff_alternates.2
    (Rpn.alternates_of_run hrun (Rpn.openParens_eq_nil_iff.2 hopen) hspaced hsum)

/-! ## Operands that meet -/

theorem toFloat_three : (Decimal.ofLiteral ['3']).toFloat = 3 := by decide +kernel

theorem toFloat_four : (Decimal.ofLiteral ['4']).toFloat = 4 := by decide +kernel

theorem evaluate_sum :
    Evaluator.default.evaluate [.number 3, .number 4, .binary .add] #[] = .ok 7 := by
  have hsum : (3 : Float) + 4 = 7 := by decide +kernel
  rw [← hsum]
  rfl

theorem tokenize_sum :
    tokenize .constant "3+4" = .ok [.number 3, .binary .add, .number 4] := by
  have hnormal : Text.normalise "3+4".toList = ['3', '+', '4'] := by decide +kernel
  have hpieces : Lexeme.split ['3', '+', '4'] =
      [.numeral ['3'], .symbol .plus, .numeral ['4']] := by
    decide +kernel
  rw [tokenize, hnormal, tokenizeNormal, hpieces, ← toFloat_three, ← toFloat_four]
  rfl

/-- **A formula with a value is a sentence of the grammar exactly when no operand
begins in it directly after another has ended.** -/
theorem isSentence_iff_of_evaluate {mode : VarMode} {text : String} {c : Compiled}
    {e : Evaluator} {values : Array Float} {x : Float} (hc : compile mode text = .ok c)
    (hx : c.evaluateWith e values = .ok x) :
    ∃ tokens, tokenize mode text = .ok tokens ∧ (IsSentence tokens ↔ ¬ Juxtaposed tokens) := by
  obtain ⟨tokens, out, htokens, hout, rfl⟩ := compile_eq_ok_iff.1 hc
  refine ⟨tokens, htokens, not_juxtaposed_of_isSentence, ?_⟩
  exact isSentence_of_not_juxtaposed htokens hout hx

/-- The formula `3+4` has a value, no operands meet in it, and it is a
sentence. -/
theorem isSentence_iff_of_evaluate_sum :
    compile .constant "3+4" = .ok ⟨[.number 3, .number 4, .binary .add], .constant⟩ ∧
    Evaluator.default.evaluate [.number 3, .number 4, .binary .add] #[] = .ok 7 ∧
    ∃ tokens, tokenize .constant "3+4" = .ok tokens ∧
      (IsSentence tokens ↔ ¬ Juxtaposed tokens) := by
  have hc : compile .constant "3+4" =
      .ok ⟨[.number 3, .number 4, .binary .add], .constant⟩ :=
    compile_eq_ok_iff.2 ⟨_, _, tokenize_sum, rfl, rfl⟩
  exact ⟨hc, evaluate_sum, isSentence_iff_of_evaluate hc evaluate_sum⟩

/-- The formula `3(4)+` has the value of `3+4` and is no sentence. -/
theorem exists_value_without_sentence :
    ∃ c tokens, compile .constant "3(4)+" = .ok c ∧ c.evaluateWith .default #[] = .ok 7 ∧
      tokenize .constant "3(4)+" = .ok tokens ∧ ¬ IsSentence tokens := by
  have htokens : tokenize .constant "3(4)+" =
      .ok [.number 3, .leftParen, .number 4, .rightParen, .binary .add] := by
    have hnormal : Text.normalise "3(4)+".toList = ['3', '(', '4', ')', '+'] := by
      decide +kernel
    have hpieces : Lexeme.split ['3', '(', '4', ')', '+'] =
        [.numeral ['3'], .symbol .leftParen, .numeral ['4'], .symbol .rightParen,
          .symbol .plus] := by
      decide +kernel
    rw [tokenize, hnormal, tokenizeNormal, hpieces, ← toFloat_three, ← toFloat_four]
    rfl
  have hc : compile .constant "3(4)+" =
      .ok ⟨[.number 3, .number 4, .binary .add], .constant⟩ :=
    compile_eq_ok_iff.2 ⟨_, _, htokens, rfl, rfl⟩
  refine ⟨_, _, hc, evaluate_sum, htokens, ?_⟩
  intro hsentence
  exact not_juxtaposed_of_isSentence hsentence ⟨[], .number 3, .leftParen, _, rfl, rfl, rfl⟩

end Formula
