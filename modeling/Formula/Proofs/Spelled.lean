import Formula.Proofs.Placing
import Formula.Proofs.Reading

/-!
# Formula.Proofs.Spelled

A text that is read is spellings of its tokens, and in one way only.

* `isNumeral_of_readNumeral`, `spells_of_readWord` — what is read as a token
  spells it;
* `CutsTo.spells`, `CutsTo.ends` — so does the piece that a text begins with,
  and it ends where a spelling has to end;
* `lexicalAfter_of_readAll` — hence the whole text;
* `SpelledAfter.eq_of_flatMap_eq` — no text can be cut in two ways;
* `tokenize_eq_ok_iff` — the texts that are read are the lexical language.
-/

namespace Formula

variable {mode : VarMode} {previous : Option Token} {position : Nat} {token : Token}
  {tokens : List Token} {u v rest : List Char} {c : Char} {cs : List Char}

/-! ## Numerals -/

/-- What may stand in a numeral is digits where no point is among it. -/
theorem isDigits_of_point_not_mem (hne : cs ≠ []) (hcs : ∀ d ∈ cs, isNumeralChar d = true)
    (hpoint : '.' ∉ cs) : IsDigits cs := by
  refine ⟨hne, fun d hd => ?_⟩
  have hchar := hcs d hd
  rw [isNumeralChar, Bool.or_eq_true, beq_iff_eq] at hchar
  obtain hdigit | rfl := hchar
  · exact hdigit
  · exact absurd hd hpoint

/-- What is read as a number is a numeral. -/
theorem isNumeral_of_readNumeral (hc : c.isDigit = true) (hcs : ∀ d ∈ cs, isNumeralChar d = true)
    (h : readNumeral (c :: cs) position = .ok token) : IsNumeral (c :: cs) := by
  have hall : ∀ d ∈ c :: cs, isNumeralChar d = true :=
    List.forall_mem_cons.2 ⟨isNumeralChar_of_isDigit hc, hcs⟩
  unfold readNumeral at h
  split at h
  · cases h
  rename_i hcount
  split at h
  · cases h
  rename_i hlast
  by_cases hpoint : '.' ∈ c :: cs
  · obtain ⟨whole, fraction, heq, hwhole⟩ := List.eq_append_cons_of_mem hpoint
    rw [heq] at hall hcount hlast ⊢
    obtain ⟨hwholeChars, hfractionChars⟩ := List.forall_mem_append.1 hall
    refine .point (isDigits_of_point_not_mem ?_ hwholeChars hwhole)
      (isDigits_of_point_not_mem ?_ (List.forall_mem_cons.1 hfractionChars).2 ?_)
    · rintro rfl
      cases heq
      exact absurd hc (by decide)
    · rintro rfl
      simp at hlast
    · intro hmem
      have hpos := List.count_pos_iff.2 hmem
      rw [List.count_append, List.count_cons_self] at hcount
      omega
  · exact .whole (isDigits_of_point_not_mem (List.cons_ne_nil _ _) hall hpoint)

/-! ## Words -/

/-- The words that mean the same in every mode are the names of functions and of
constants. -/
theorem fixedWord?_cases {name : List Char} (h : fixedWord? name = some token) :
    (∃ f : Func, name = f.name.toList ∧ token = .func f) ∨
      (name = ['e'] ∧ token = .number euler) ∨ name = ['p', 'i'] ∧ token = .number pi := by
  unfold fixedWord? at h
  split at h
  · rename_i f hf
    cases h
    refine .inl ⟨f, ?_, rfl⟩
    rw [Func.ofName?_eq_some_iff.1 hf, String.toList_ofList]
  · obtain ⟨value, hvalue, rfl⟩ := Option.map_eq_some_iff.1 h
    unfold constant? at hvalue
    split at hvalue
    · rename_i hname
      cases hvalue
      exact .inr (.inl ⟨hname, rfl⟩)
    split at hvalue
    · rename_i hname
      cases hvalue
      exact .inr (.inr ⟨hname, rfl⟩)
    · cases hvalue

/-- A word of its own meaning spells its token. -/
theorem spells_of_fixedWord? {name : List Char} (h : fixedWord? name = some token) :
    Spells mode name token := by
  obtain ⟨f, rfl, rfl⟩ | ⟨rfl, rfl⟩ | ⟨rfl, rfl⟩ := fixedWord?_cases h
  · exact .func f
  · exact .euler
  · exact .pi

/-- A subscript that is read is closed, and its digits are an index below the
dimension. -/
theorem readIndex_eq_ok_iff {size : UInt64} {s : Subscript} :
    readIndex size s position = .ok token ↔
      s.closed = true ∧ IsDigits s.index ∧ Nat.ofDigitChars 10 s.index 0 < size.toNat ∧
        token = .var (Nat.ofDigitChars 10 s.index 0) := by
  obtain ⟨index, closed⟩ := s
  constructor
  · intro h
    cases closed with
    | false => cases h
    | true =>
      by_cases hdigits : IsDigits index
      · rw [readIndex_eq hdigits] at h
        split at h
        · rename_i hsize
          cases h
          exact ⟨rfl, hdigits, hsize, rfl⟩
        · cases h
      · rw [readIndex_of_not_isDigits size hdigits] at h
        cases h
  · rintro ⟨rfl, hdigits, hsize, rfl⟩
    exact readIndex_of_isDigits hdigits hsize position

/-- A word that is read spells its token, together with its subscript if it has
one. -/
theorem spells_of_readWord {name : List Char} {subscript? : Option Subscript}
    (h : readWord mode name subscript? position = .ok token) :
    Spells mode (Lexeme.word name subscript?).text token := by
  simp only [readWord] at h
  split at h
  · rename_i hfixed
    cases h
    simpa [Lexeme.text] using spells_of_fixedWord? hfixed
  · cases h
  · split at h
    · rename_i hname
      subst hname
      unfold readVariable at h
      split at h
      · cases h
      · cases h
        exact .scalar rfl
      · cases h
      · cases h
      · obtain ⟨hclosed, hdigits, hsize, rfl⟩ := readIndex_eq_ok_iff.1 h
        rename_i size hne s
        have htext : (Lexeme.word variableName (some s)).text =
            'x' :: '[' :: (s.index ++ [']']) := by
          simp [Lexeme.text, Subscript.text, variableName, hclosed]
        rw [htext]
        exact .indexed rfl hdigits hsize
    · cases h

/-! ## Where a piece ends -/

/-- Whether a text goes on after a spelling without making it longer: letters
end before anything but a letter, and a numeral before anything but a digit. -/
structure Ends (v rest : List Char) : Prop where
  letter : IsLetters v → ∀ d ∈ rest.head?, d.isAlpha = false
  digit : IsNumeral v → ∀ d ∈ rest.head?, d.isDigit = false

/-- What begins with a letter is no numeral. -/
theorem not_isNumeral_of_isAlpha (hc : c.isAlpha = true) : ¬ IsNumeral (c :: cs) := by
  intro h
  obtain ⟨d, ds, hcons, hd, -⟩ := h.exists_cons
  cases hcons
  rw [isAlpha_eq_false_of_isDigit hd] at hc
  cases hc

/-- What begins with a digit is no letters. -/
theorem not_isLetters_of_isDigit (hc : c.isDigit = true) : ¬ IsLetters (c :: cs) := by
  intro h
  have halpha := h.2 c List.mem_cons_self
  rw [isAlpha_eq_false_of_isDigit hc] at halpha
  cases halpha

/-- Letters with anything after them are no numeral. -/
theorem not_isNumeral_letters {name : List Char} (hname : IsLetters name) (cs : List Char) :
    ¬ IsNumeral (name ++ cs) := by
  obtain ⟨c, name, rfl⟩ := List.exists_cons_of_ne_nil hname.1
  exact not_isNumeral_of_isAlpha (hname.2 c List.mem_cons_self)

/-- What has a bracket in it is no letters. -/
theorem not_isLetters_bracket (name cs : List Char) : ¬ IsLetters (name ++ '[' :: cs) := by
  intro h
  have hbracket : '[' ∈ name ++ '[' :: cs := List.mem_append_right _ List.mem_cons_self
  exact absurd (h.2 '[' hbracket) (by decide)

/-- A symbol spells its token, whatever stands before it. -/
theorem Symbol.spells_token (s : Symbol) (previous : Option Token) :
    Spells mode [s.char] (s.token previous) := by
  cases hawaits : awaitsOperand previous with
  | false =>
    cases s <;> simp only [Symbol.token, hawaits, Bool.false_eq_true, if_false] <;> constructor
  | true => cases s <;> simp only [Symbol.token, hawaits, if_true] <;> constructor

/-- A symbol ends before any text. -/
theorem ends_symbol (s : Symbol) (rest : List Char) : Ends [s.char] rest :=
  ⟨fun h => absurd h s.not_isLetters, fun h => absurd h s.not_isNumeral⟩

/-- The piece that a text begins with ends before the rest of the text. -/
theorem CutsTo.ends {piece : Lexeme} (hcut : CutsTo cs piece rest)
    (h : piece.read mode previous position = .ok token) : Ends piece.text rest := by
  cases hcut with
  | @word name _ hname hletter =>
    rw [Lexeme.text]
    exact ⟨fun _ => hletter, fun hnumeral => absurd hnumeral (not_isNumeral_letters hname _)⟩
  | @opened name index hname | @closed name index _ hname =>
    exact ⟨fun hletters => absurd hletters (not_isLetters_bracket name _),
      fun hnumeral => absurd hnumeral (not_isNumeral_letters hname _)⟩
  | numeral hc _ hrest =>
    refine ⟨fun hletters => absurd hletters (not_isLetters_of_isDigit hc), fun _ d hd => ?_⟩
    have hnone := hrest d hd
    rw [isNumeralChar, Bool.or_eq_false_iff] at hnone
    exact hnone.1
  | symbol s => exact ends_symbol s rest
  | unknown => cases h

/-- The piece that a text begins with spells the token that is read. -/
theorem CutsTo.spells {piece : Lexeme} (hcut : CutsTo cs piece rest)
    (h : piece.read mode previous position = .ok token) : Spells mode piece.text token := by
  cases hcut with
  | word | opened | closed => exact spells_of_readWord h
  | numeral hc hdigits =>
    have hnumeral := isNumeral_of_readNumeral hc hdigits h
    cases (readNumeral_of_isNumeral hnumeral position).symm.trans h
    exact .number hnumeral
  | symbol s =>
    cases h
    exact s.spells_token previous
  | unknown => cases h

/-! ## Whole texts -/

/-- A spelling may stand before the piece that follows it where it ends. -/
theorem Ends.separate {w : List Char} (h : Ends u (c :: cs)) (hv : v ++ w = c :: cs)
    (hne : v ≠ []) : Separate u v := by
  obtain ⟨d, ds, rfl⟩ := List.exists_cons_of_ne_nil hne
  cases hv
  refine ⟨?_, ?_⟩
  · intro hletters e he
    cases he
    exact h.letter hletters c rfl
  · intro hnumeral hnumeral'
    obtain ⟨e, es, hcons, he, -⟩ := hnumeral'.exists_cons
    cases hcons
    rw [h.digit hnumeral c rfl] at he
    cases he

/-- A text that is read is spellings of its tokens, wherever it stands. -/
theorem lexicalAfter_of_readAll (hends : Ends u cs)
    (h : readAll mode previous position (Lexeme.split cs) = .ok tokens) :
    LexicalAfter mode u previous cs tokens := by
  fun_induction Lexeme.split cs generalizing u previous position tokens with
  | case1 =>
    cases h
    exact .nil
  | case2 c cs ih =>
    obtain ⟨token, hread, h⟩ := bind_eq_ok.1 h
    obtain ⟨rest, hrest, h⟩ := bind_eq_ok.1 h
    cases h
    have htext := Lexeme.text_cut c cs
    have hcut := cutsTo_cut c cs
    have hseparate := hends.separate htext (Lexeme.text_cut_ne_nil c cs)
    have hcons := LexicalAfter.cons (hcut.spells hread) hseparate (placed_of_read hread)
      (ih (hcut.ends hread) hrest)
    rwa [htext] at hcons

/-- The texts in normal form that are read are the lexical language. -/
theorem tokenizeNormal_eq_ok_iff :
    tokenizeNormal mode cs = .ok tokens ↔ Lexical mode cs tokens := by
  refine ⟨lexicalAfter_of_readAll ⟨?_, ?_⟩, tokenizeNormal_of_lexical⟩
  · exact fun h => absurd rfl h.1
  · intro h
    obtain ⟨d, ds, hcons, -⟩ := h.exists_cons
    cases hcons

/-! ## Spellings one by one -/

/-- Spellings one after the other make up a text. -/
theorem SpelledAfter.lexicalAfter {spelled : List (List Char × Token)}
    (h : SpelledAfter mode u previous spelled) :
    LexicalAfter mode u previous (spelled.flatMap (·.1)) (spelled.map (·.2)) := by
  induction spelled generalizing u previous with
  | nil => exact .nil
  | cons p spelled ih =>
    obtain ⟨hspell, hseparate, hplaced, hrest⟩ := h
    exact .cons hspell hseparate hplaced (ih hrest)

/-- A text that is spellings of its tokens can be cut into them. -/
theorem LexicalAfter.exists_spelled (h : LexicalAfter mode u previous rest tokens) :
    ∃ spelled, SpelledAfter mode u previous spelled ∧ spelled.flatMap (·.1) = rest ∧
      spelled.map (·.2) = tokens := by
  induction h with
  | nil => exact ⟨[], trivial, rfl, rfl⟩
  | @cons u v rest previous token tokens hspell hseparate hplaced _ ih =>
    obtain ⟨spelled, hspelled, htext, htokens⟩ := ih
    refine ⟨(v, token) :: spelled, ⟨hspell, hseparate, hplaced, hspelled⟩, ?_, ?_⟩
    · rw [List.flatMap_cons, htext]
    · rw [List.map_cons, htokens]

/-- A text that begins with a spelling after which it may go on begins with the
same spelling however it is cut, and the spelling has one token there. -/
theorem CutAs.eq {v' rest' : List Char} {token' : Token}
    (h : CutAs mode previous v rest token) (h' : CutAs mode previous v' rest' token')
    (htext : v ++ rest = v' ++ rest') : v = v' ∧ rest = rest' ∧ token = token' := by
  obtain ⟨c, cs, piece, rfl, hcut, hread⟩ := h
  obtain ⟨c', cs', piece', rfl, hcut', hread'⟩ := h'
  obtain ⟨rfl, hrests : cs ++ rest = cs' ++ rest'⟩ := List.cons.inj htext
  rw [hrests, hcut', Prod.mk.injEq] at hcut
  obtain ⟨rfl, rfl⟩ := hcut
  refine ⟨List.append_cancel_right htext, rfl, ?_⟩
  exact Except.ok.inj ((hread 0).symm.trans (hread' 0))

/-- No text can be cut in two ways. -/
theorem SpelledAfter.eq_of_flatMap_eq {spelled spelled' : List (List Char × Token)}
    (h : SpelledAfter mode u previous spelled) (h' : SpelledAfter mode u previous spelled')
    (htext : spelled.flatMap (·.1) = spelled'.flatMap (·.1)) : spelled = spelled' := by
  induction spelled generalizing u previous spelled' with
  | nil =>
    cases spelled' with
    | nil => rfl
    | cons p' spelled' =>
      exact absurd (List.append_eq_nil_iff.1 htext.symm).1 h'.1.ne_nil
  | cons p spelled ih =>
    cases spelled' with
    | nil => exact absurd (List.append_eq_nil_iff.1 htext).1 h.1.ne_nil
    | cons p' spelled' =>
      obtain ⟨v, token⟩ := p
      obtain ⟨v', token'⟩ := p'
      obtain ⟨hspell, -, hplaced, hrest⟩ := h
      obtain ⟨hspell', -, hplaced', hrest'⟩ := h'
      have hcut := hspell.cutAs hplaced hrest.lexicalAfter.follows
      have hcut' := hspell'.cutAs hplaced' hrest'.lexicalAfter.follows
      obtain ⟨rfl, htexts, rfl⟩ := hcut.eq hcut' htext
      rw [ih hrest hrest' htexts]

/-- **The texts that are read are the lexical language.**  A text has the given
tokens exactly when its normal form can be cut into their spellings, where
letters alone do not stand before a letter, nor a numeral before a numeral, and
a plus or minus is a sign where an operand is still to come; and it can be cut
in no more than one way. -/
theorem tokenize_eq_ok_iff (mode : VarMode) (text : String) (tokens : List Token) :
    (tokenize mode text = .ok tokens ↔
      ∃ spelled, Decomposes mode (Text.normalise text.toList) spelled ∧
        spelled.map (·.2) = tokens) ∧
    ∀ spelled spelled', Decomposes mode (Text.normalise text.toList) spelled →
      Decomposes mode (Text.normalise text.toList) spelled' → spelled = spelled' := by
  refine ⟨⟨?_, ?_⟩, ?_⟩
  · intro h
    obtain ⟨spelled, hspelled, htext, htokens⟩ :=
      (tokenizeNormal_eq_ok_iff.1 h).exists_spelled
    exact ⟨spelled, ⟨hspelled, htext⟩, htokens⟩
  · rintro ⟨spelled, ⟨hspelled, htext⟩, rfl⟩
    exact tokenizeNormal_eq_ok_iff.2 (htext ▸ hspelled.lexicalAfter)
  · rintro spelled spelled' ⟨h, htext⟩ ⟨h', htext'⟩
    exact h.eq_of_flatMap_eq h' (htext.trans htext'.symm)

end Formula
