import Formula.Grammar.Spelling
import Formula.Proofs.Reading

/-!
# Formula.Proofs.Written

A text that writes a formula of the grammar is read as the tokens of the
formula.

* `normalise_of_writes` — spacing and letter case are gone in normal form;
* `lexicalAfter_chars` — a formula is spelled by its characters, wherever an
  operand is awaited and whatever goes on after it;
* `tokenize_of_writes` — both together.
-/

namespace Formula

open Text

/-! ## Texts of ASCII -/

/-- Letter case does not lead into ASCII. -/
theorem toNat_lt_of_toLower {c : Char} (h : c.toLower.toNat < 128) : c.toNat < 128 := by
  refine Nat.lt_of_not_le fun hge => ?_
  rw [toLower_eq_self hge] at h
  omega

/-- In ASCII the lower case of a text is that of its characters. -/
theorem lowerFrom_of_ascii {cs : List Char} (h : ∀ c ∈ cs, c.toNat < 128)
    (before : List Char) : lowerFrom before cs = cs.map Char.toLower := by
  induction cs generalizing before with
  | nil => rfl
  | cons c cs ih =>
    obtain ⟨hc, hcs⟩ := List.forall_mem_cons.1 h
    have hsigma : c ≠ 'Σ' := by
      rintro rfl
      exact absurd hc (by decide)
    have hdot : c ≠ 'İ' := by
      rintro rfl
      exact absurd hc (by decide)
    rw [lowerFrom, lowerChar, if_neg hsigma, if_neg hdot, simpleLower_of_ascii hc,
      ih hcs, List.map_cons, List.singleton_append]

/-- The normal form of a text that writes characters of ASCII is these
characters. -/
theorem normalise_of_writes {text : String} {cs : List Char} (h : Writes text cs)
    (hascii : ∀ c ∈ cs, c.toNat < 128) : normalise text.toList = cs := by
  have hvisible : ∀ c ∈ text.toList.filter (! isBlank ·), c.toNat < 128 := by
    intro c hc
    apply toNat_lt_of_toLower
    apply hascii
    rw [← h]
    exact List.mem_map_of_mem hc
  rw [normalise, lowerCase, lowerFrom_of_ascii hvisible, h]

/-- Whether characters are in ASCII can be computed. -/
theorem ascii_of_all {cs : List Char} (h : cs.all (·.toNat < 128) = true) :
    ∀ c ∈ cs, c.toNat < 128 := by
  simpa using h

/-- The digits are in ASCII. -/
theorem IsDigits.ascii {cs : List Char} (h : IsDigits cs) : ∀ c ∈ cs, c.toNat < 128 := by
  intro c hc
  have hle := (Char.isDigit_iff_toNat.1 (h.2 c hc)).2
  have hnine : '9'.toNat = 57 := by decide
  omega

/-- Numerals are in ASCII. -/
theorem IsNumeral.ascii {cs : List Char} (h : IsNumeral cs) : ∀ c ∈ cs, c.toNat < 128 := by
  cases h with
  | whole h => exact h.ascii
  | point hw hf =>
    intro c hc
    obtain hc | hc := List.mem_append.1 hc
    · exact hw.ascii c hc
    obtain rfl | hc := List.mem_cons.1 hc
    · decide
    · exact hf.ascii c hc

/-- Operands are in ASCII. -/
theorem Atom.Legal.ascii {mode : VarMode} {a : Atom} (h : a.Legal mode) :
    ∀ c ∈ a.chars, c.toNat < 128 := by
  cases a with
  | numeral literal => exact IsNumeral.ascii h
  | indexed digits =>
    have hdigits := IsDigits.ascii h.1
    simp only [Atom.chars, List.forall_mem_cons, List.forall_mem_append]
    exact ⟨by decide, by decide, hdigits, by decide, by simp⟩
  | _ => exact ascii_of_all (by decide)

/-- Functions are in ASCII. -/
theorem Func.ascii (f : Func) : ∀ c ∈ f.name.toList, c.toNat < 128 := by
  cases f <;> exact ascii_of_all (by decide)

/-- Operators are in ASCII. -/
theorem BinOp.ascii (op : BinOp) : op.char.toNat < 128 := by
  cases op <;> decide

/-- Formulas are in ASCII. -/
theorem Phrase.ascii {mode : VarMode} {p : Phrase Atom l} (h : p.All (Atom.Legal mode)) :
    ∀ c ∈ p.chars, c.toNat < 128 := by
  have hparens : '('.toNat < 128 ∧ ')'.toNat < 128 ∧ ','.toNat < 128 := by decide
  induction p with
  | operand a => exact Atom.Legal.ascii h
  | group body ih =>
    simp only [chars, List.forall_mem_cons, List.forall_mem_append]
    exact ⟨hparens.1, ih h, hparens.2.1, by simp⟩
  | apply f argument ih =>
    simp only [chars, List.forall_mem_append]
    exact ⟨f.ascii, ih h⟩
  | call f arguments ih =>
    simp only [chars, List.forall_mem_cons, List.forall_mem_append]
    exact ⟨f.ascii, hparens.1, ih h, hparens.2.1, by simp⟩
  | pair first last ihl ihr | cons first rest ihl ihr =>
    simp only [chars, List.forall_mem_cons, List.forall_mem_append]
    exact ⟨ihl h.1, hparens.2.2, ihr h.2⟩
  | ofPrimary p ih | ofFactor p ih | ofTerm p ih => exact ih h
  | power base exponent ihl ihr =>
    simp only [chars, List.forall_mem_cons, List.forall_mem_append]
    exact ⟨ihl h.1, BinOp.ascii .pow, ihr h.2⟩
  | sign s body ih =>
    simp only [chars, List.forall_mem_cons]
    exact ⟨by cases s <;> decide, ih h⟩
  | product lhs op rhs ihl ihr | sum lhs op rhs ihl ihr =>
    simp only [chars, List.forall_mem_cons, List.forall_mem_append]
    exact ⟨ihl h.1, BinOp.ascii _, ihr h.2⟩

/-! ## Spellings of a formula -/

/-- Whether an operand may come after the spelling `u` of the token
`previous`. -/
structure Awaits (u : List Char) (previous : Option Token) : Prop where
  letters : ¬ IsLetters u
  numeral : ¬ IsNumeral u
  operand : awaitsOperand previous = true

/-- Whether a text may come after any operand, as the given tokens. -/
def GoesOn (mode : VarMode) (rest : List Char) (tokens : List Token) : Prop :=
  ∀ w token, awaitsOperand (some token) = false →
    LexicalAfter mode w (some token) rest tokens

variable {mode : VarMode} {u v rest : List Char} {previous : Option Token} {token : Token}
  {tokens : List Token}

/-- At the beginning an operand is awaited. -/
theorem awaits_nil : Awaits [] none := by
  refine ⟨fun h => h.1 rfl, ?_, rfl⟩
  intro h
  obtain ⟨c, ds, hcons, -⟩ := h.exists_cons
  cases hcons

/-- Nothing may come after an operand. -/
theorem goesOn_nil : GoesOn mode [] [] := fun _ _ _ => .nil

/-- Anything may come where an operand is awaited. -/
theorem Awaits.separate (h : Awaits u previous) (v : List Char) : Separate u v :=
  ⟨fun hu => absurd hu h.letters, fun hu => absurd hu h.numeral⟩

/-- After a symbol anything may come. -/
theorem Awaits.of_symbol (s : Symbol) (h : awaitsOperand (some token) = true) :
    Awaits [s.char] (some token) :=
  ⟨s.not_isLetters, s.not_isNumeral, h⟩

/-- A symbol may come after anything. -/
theorem separate_symbol (u : List Char) (s : Symbol) : Separate u [s.char] := by
  refine ⟨?_, fun _ => s.not_isNumeral⟩
  rintro - c hc
  cases hc
  exact s.isAlpha_char

/-- The symbol of a binary operator. -/
def BinOp.symbol : BinOp → Symbol
  | add => .plus
  | sub => .minus
  | mul => .star
  | div => .slash
  | pow => .caret

theorem BinOp.char_symbol (op : BinOp) : op.symbol.char = op.char := by
  cases op <;> rfl

/-- After an operand a binary operator goes on, and then awaits an operand. -/
theorem GoesOn.binary (op : BinOp)
    (h : Awaits [op.char] (some (.binary op)) →
      LexicalAfter mode [op.char] (some (.binary op)) rest tokens) :
    GoesOn mode (op.char :: rest) (.binary op :: tokens) := by
  intro w token htoken
  have hspell : Spells mode [op.char] (.binary op) := by
    cases op with
    | add => exact .add
    | sub => exact .sub
    | mul => exact .mul
    | div => exact .div
    | pow => exact .pow
  have hplaced : Placed (some token) (.binary op) := by
    cases op with
    | add | sub => exact htoken
    | mul | div | pow => trivial
  have hseparate : Separate w [op.char] := by
    rw [← op.char_symbol]
    exact separate_symbol w op.symbol
  have hawaits : Awaits [op.char] (some (.binary op)) := by
    rw [← op.char_symbol]
    exact Awaits.of_symbol op.symbol rfl
  exact .cons hspell hseparate hplaced (h hawaits)

/-- A closing parenthesis after anything, and after it what may come after an
operand. -/
theorem lexicalAfter_rightParen (h : GoesOn mode rest tokens) :
    LexicalAfter mode u previous (')' :: rest) (.rightParen :: tokens) :=
  .cons .rightParen (separate_symbol u .rightParen) trivial (h [')'] .rightParen rfl)

/-- After an operand a closing parenthesis goes on. -/
theorem GoesOn.rightParen (h : GoesOn mode rest tokens) :
    GoesOn mode (')' :: rest) (.rightParen :: tokens) :=
  fun _ _ _ => lexicalAfter_rightParen h

/-- After an operand a comma goes on, and then awaits an operand. -/
theorem GoesOn.comma
    (h : Awaits [','] (some .comma) → LexicalAfter mode [','] (some .comma) rest tokens) :
    GoesOn mode (',' :: rest) (.comma :: tokens) := by
  intro w token _
  exact .cons .comma (separate_symbol w .comma) trivial (h (Awaits.of_symbol .comma rfl))

/-- A formula in parentheses, after anything. -/
theorem lexicalAfter_group {body : List Char} {bodyTokens : List Token}
    (h : Awaits ['('] (some .leftParen) →
      LexicalAfter mode ['('] (some .leftParen) (body ++ ')' :: rest)
        (bodyTokens ++ .rightParen :: tokens)) :
    LexicalAfter mode u previous ('(' :: (body ++ ')' :: rest))
      (.leftParen :: (bodyTokens ++ .rightParen :: tokens)) :=
  .cons .leftParen (separate_symbol u .leftParen) trivial
    (h (Awaits.of_symbol .leftParen rfl))

/-- A sign where an operand is awaited, after which one is awaited still. -/
theorem lexicalAfter_sign (s : Sign) (hawaits : Awaits u previous)
    (h : Awaits [s.char] (some (.sign s)) →
      LexicalAfter mode [s.char] (some (.sign s)) rest tokens) :
    LexicalAfter mode u previous (s.char :: rest) (.sign s :: tokens) := by
  cases s with
  | neg =>
    exact .cons .neg (separate_symbol u .minus) hawaits.operand
      (h (Awaits.of_symbol .minus rfl))
  | pos =>
    exact .cons .pos (separate_symbol u .plus) hawaits.operand
      (h (Awaits.of_symbol .plus rfl))

/-- An operand of a text spells the token it means. -/
theorem Atom.Legal.spells {a : Atom} (h : a.Legal mode) : Spells mode a.chars a.operand.token := by
  cases a with
  | numeral literal => exact .number h
  | euler => exact .euler
  | pi => exact .pi
  | scalar => exact .scalar h
  | indexed digits =>
    obtain ⟨hdigits, size, hne, hmode, hsize⟩ := h
    exact .indexed hmode hdigits hsize

/-- A formula is spelled by its characters, wherever an operand is awaited and
whatever goes on after it. -/
theorem lexicalAfter_chars {p : Phrase Atom l} (hcalled : p.Called)
    (hlegal : p.All (Atom.Legal mode)) (hawaits : Awaits u previous)
    (hrest : GoesOn mode rest tokens) :
    LexicalAfter mode u previous (p.chars ++ rest) ((p.map Atom.operand).tokens ++ tokens) := by
  induction p using Phrase.Called.induct generalizing u previous rest tokens with
  | case1 a =>
    have hplaced : Placed previous a.operand.token := by cases a <;> trivial
    have hoperand : awaitsOperand (some a.operand.token) = false := by cases a <;> rfl
    exact .cons hlegal.spells (hawaits.separate _) hplaced (hrest _ _ hoperand)
  | case2 body ih =>
    simp only [Phrase.chars, Phrase.map, Phrase.tokens, List.append_assoc, List.cons_append,
      List.nil_append]
    exact lexicalAfter_group fun h => ih hcalled hlegal h hrest.rightParen
  | case3 f body ih =>
    simp only [Phrase.chars, Phrase.map, Phrase.tokens, List.append_assoc, List.cons_append,
      List.nil_append]
    refine .cons (.func f) (hawaits.separate _) trivial ?_
    exact lexicalAfter_group fun h => ih hcalled hlegal h hrest.rightParen
  | case4 f argument hne =>
    cases argument with
    | group body => exact absurd rfl (hne body)
    | _ => cases hcalled
  | case5 f arguments => cases hcalled
  | case6 first last ihf ihr | case7 first others ihf ihr =>
    simp only [Phrase.chars, Phrase.map, Phrase.tokens, List.append_assoc, List.cons_append]
    exact ihf hcalled.1 hlegal.1 hawaits
      (.comma fun h => ihr hcalled.2 hlegal.2 h hrest)
  | case8 p ih | case11 p ih | case13 p ih => exact ih hcalled hlegal hawaits hrest
  | case9 base exponent ihb ihe =>
    simp only [Phrase.chars, Phrase.map, Phrase.tokens, List.append_assoc, List.cons_append]
    exact ihb hcalled.1 hlegal.1 hawaits
      (.binary .pow fun h => ihe hcalled.2 hlegal.2 h hrest)
  | case10 s body ih =>
    simp only [Phrase.chars, Phrase.map, Phrase.tokens, List.cons_append]
    exact lexicalAfter_sign s hawaits fun h => ih hcalled hlegal h hrest
  | case12 lhs op rhs ihl ihr | case14 lhs op rhs ihl ihr =>
    simp only [Phrase.chars, Phrase.map, Phrase.tokens, List.append_assoc, List.cons_append]
    exact ihl hcalled.1 hlegal.1 hawaits
      (.binary op.op fun h => ihr hcalled.2 hlegal.2 h hrest)

/-- A text that writes a formula is read as the tokens of the formula. -/
theorem tokenize_of_writes {p : Phrase Atom .sum} {text : String} (hcalled : p.Called)
    (hlegal : p.All (Atom.Legal mode)) (hwrites : Writes text p.chars) :
    tokenize mode text = .ok (p.map Atom.operand).tokens := by
  have hlexical := lexicalAfter_chars hcalled hlegal awaits_nil goesOn_nil
  rw [List.append_nil, List.append_nil] at hlexical
  rw [tokenize, normalise_of_writes hwrites (Phrase.ascii hlegal)]
  exact tokenizeNormal_of_lexical hlexical

end Formula
