import Formula.Proofs.Cutting

/-!
# Formula.Proofs.Longest

Every piece of a text is as long as it can be, and cutting a text short at the end
of a piece leaves the pieces before as they are.

* `CutsTo.of_append` — a text is cut alike when what follows the piece is
  shortened;
* `IsLexeme`, `IsLongest` — the pieces a text can be made of, and the longest of
  them that a text begins with;
* `CutsTo.isLongest` — a text is cut after that;
* `split_join_of_append` — so the pieces of a text up to some place are the
  pieces of the text up to there, each the longest (`inPieces_of_split`).
-/

namespace Formula

variable {c : Char} {u v cs rest : List Char} {piece : Lexeme} {pieces : List Lexeme}

/-! ## Texts cut short -/

/-- A text is cut alike when what follows the piece is shortened. -/
theorem CutsTo.of_append {after : List Char} (h : CutsTo cs piece (rest ++ after)) :
    CutsTo (piece.text ++ rest) piece rest := by
  have hstop : ∀ {P : Char → Prop}, (∀ c ∈ (rest ++ after).head?, P c) →
      ∀ c ∈ rest.head?, P c := by
    intro P hall c hc
    cases rest with
    | nil => cases hc
    | cons d rest => exact hall c hc
  generalize hrest : rest ++ after = rest' at h
  cases h with
  | @word name _ hname hletter hbracket =>
    subst hrest
    rw [Lexeme.text, Option.elim, List.append_nil]
    exact .word hname (hstop hletter) (hstop hbracket)
  | @opened name index hname hindex =>
    obtain ⟨rfl, -⟩ := List.append_eq_nil_iff.1 hrest
    rw [CutsTo.text_append (.opened hname hindex)]
    exact .opened hname hindex
  | @closed name index _ hname hindex =>
    have hclosed : CutsTo _ _ rest := .closed hname hindex
    rwa [hclosed.text_append]
  | numeral hc hcs hnext =>
    subst hrest
    exact .numeral hc hcs (hstop hnext)
  | symbol s => exact .symbol s
  | unknown hletter hdigit hsymbol => exact .unknown hletter hdigit hsymbol

/-! ## Longest pieces -/

/-- The pieces a text can be made of: letters, with a subscript or without, which
may be left open; a digit with digits and points; any character alone. -/
inductive IsLexeme : List Char → Prop
  | word {name : List Char} (hname : IsLetters name) : IsLexeme name
  | opened {name index : List Char} (hname : IsLetters name) (hindex : ']' ∉ index) :
    IsLexeme (name ++ '[' :: index)
  | closed {name index : List Char} (hname : IsLetters name) (hindex : ']' ∉ index) :
    IsLexeme (name ++ '[' :: (index ++ [']']))
  | numeral {c : Char} {cs : List Char} (hc : c.isDigit = true)
    (hcs : ∀ d ∈ cs, isNumeralChar d = true) : IsLexeme (c :: cs)
  | character (c : Char) : IsLexeme [c]

/-- Whether `v` is the longest piece that the text `v ++ rest` begins with. -/
structure IsLongest (v rest : List Char) : Prop where
  isLexeme : IsLexeme v
  longest : ∀ u, IsLexeme u → u <+: v ++ rest → u <+: v

/-- What begins with letters begins with a letter. -/
theorem IsLetters.isAlpha_of_append {name : List Char} (h : IsLetters name)
    (hname : c :: cs = name ++ rest) : c.isAlpha = true := by
  obtain ⟨d, ds, rfl⟩ := List.exists_cons_of_ne_nil h.1
  cases hname
  exact h.2 _ List.mem_cons_self

/-- A piece that does not begin with a letter is a digit with digits and points, or
one character. -/
theorem IsLexeme.digits_or_single (h : IsLexeme (c :: cs)) (hletter : c.isAlpha = false) :
    (c.isDigit = true ∧ ∀ d ∈ cs, isNumeralChar d = true) ∨ cs = [] := by
  have hname : ∀ {name rest : List Char}, IsLetters name → c :: cs ≠ name ++ rest := by
    intro name rest hname heq
    rw [hname.isAlpha_of_append heq] at hletter
    cases hletter
  generalize htext : c :: cs = text at h
  cases h with
  | word hw => exact absurd (htext.trans (List.append_nil _).symm) (hname hw)
  | opened hw _ | closed hw _ => exact absurd htext (hname hw)
  | numeral hc hcs =>
    cases htext
    exact .inl ⟨hc, hcs⟩
  | character d =>
    cases htext
    exact .inr rfl

/-- A piece that begins with a letter is letters, with a subscript or without. -/
theorem IsLexeme.letters_or_subscript (h : IsLexeme (c :: cs)) (hc : c.isAlpha = true) :
    IsLetters (c :: cs) ∨
      ∃ name index close, IsLetters name ∧ ']' ∉ index ∧ (close = [] ∨ close = [']']) ∧
        c :: cs = name ++ '[' :: (index ++ close) := by
  generalize htext : c :: cs = text at h
  cases h with
  | word hname => exact .inl hname
  | @opened name index hname hindex =>
    exact .inr ⟨name, index, [], hname, hindex, .inl rfl, by rw [List.append_nil]⟩
  | @closed name index hname hindex =>
    exact .inr ⟨name, index, [']'], hname, hindex, .inr rfl, rfl⟩
  | numeral hd _ =>
    cases htext
    rw [isAlpha_eq_false_of_isDigit hd] at hc
    cases hc
  | character d =>
    cases htext
    exact .inl ⟨List.cons_ne_nil _ _, by simpa using hc⟩

theorem IsLexeme.ne_nil (h : IsLexeme u) : u ≠ [] := by
  cases h with
  | word hname => exact hname.1
  | opened | closed => simp
  | numeral | character => exact List.cons_ne_nil _ _

/-- A piece that a text begins with begins like the text. -/
theorem IsLexeme.exists_cons (h : IsLexeme u) (hstart : u <+: c :: cs) :
    ∃ us, u = c :: us ∧ us <+: cs := by
  obtain ⟨d, us, rfl⟩ := List.exists_cons_of_ne_nil h.ne_nil
  obtain ⟨rfl, hus⟩ := List.cons_prefix_cons.1 hstart
  exact ⟨us, rfl, hus⟩

/-- A bracket is no letter. -/
theorem isAlpha_head?_bracket (cs : List Char) : ∀ c ∈ ('[' :: cs).head?, c.isAlpha = false := by
  intro c hc
  cases hc
  decide

theorem isLongest_word {name : List Char} (hname : IsLetters name)
    (hletter : ∀ c ∈ rest.head?, c.isAlpha = false) (hbracket : ∀ c ∈ rest.head?, c ≠ '[') :
    IsLongest name rest := by
  refine ⟨.word hname, fun u hu hstart => ?_⟩
  obtain ⟨c, name, rfl⟩ := List.exists_cons_of_ne_nil hname.1
  obtain ⟨us, rfl, -⟩ := hu.exists_cons hstart
  obtain hu | ⟨other, index, close, hother, -, -, hu⟩ :=
    hu.letters_or_subscript (hname.2 c List.mem_cons_self)
  · exact isPrefix_of_stop hu.2 hname.2 hletter hstart
  · obtain ⟨after, hafter⟩ := hstart
    rw [hu, List.append_assoc] at hafter
    obtain ⟨-, rfl⟩ :=
      append_inj_of_stop hother.2 (isAlpha_head?_bracket _) hname.2 hletter hafter
    exact absurd rfl (hbracket '[' rfl)

theorem isLongest_closed {name index : List Char} (hname : IsLetters name)
    (hindex : ']' ∉ index) : IsLongest (name ++ '[' :: (index ++ [']'])) rest := by
  refine ⟨.closed hname hindex, fun u hu hstart => ?_⟩
  have hinside : ∀ {index : List Char}, ']' ∉ index → ∀ d ∈ index, decide (d ≠ ']') = true := by
    intro index hindex d hd
    refine decide_eq_true ?_
    rintro rfl
    exact hindex hd
  have hclose : ∀ {rest : List Char}, ∀ d ∈ (']' :: rest).head?, decide (d ≠ ']') = false := by
    intro rest d hd
    cases hd
    decide
  obtain ⟨c, name, rfl⟩ := List.exists_cons_of_ne_nil hname.1
  obtain ⟨us, rfl, -⟩ := hu.exists_cons hstart
  have htext : c :: name ++ '[' :: (index ++ [']']) ++ rest =
      c :: name ++ '[' :: (index ++ ']' :: rest) := by simp
  rw [htext] at hstart
  obtain hletters | ⟨other, index', close, hother, hindex', hclose', hu⟩ :=
    hu.letters_or_subscript (hname.2 c List.mem_cons_self)
  · have hshort := isPrefix_of_stop hletters.2 hname.2 (isAlpha_head?_bracket _) hstart
    exact hshort.trans (List.prefix_append _ _)
  obtain ⟨after, hafter⟩ := hstart
  rw [hu, List.append_assoc] at hafter
  obtain ⟨rfl, hsubscript⟩ := append_inj_of_stop hother.2 (isAlpha_head?_bracket _) hname.2
    (isAlpha_head?_bracket _) hafter
  have hinner : index' ++ (close ++ after) = index ++ ']' :: rest := by
    simpa using (List.cons.inj hsubscript).2
  rw [hu, List.prefix_append_right_inj, List.cons_prefix_cons]
  refine ⟨rfl, ?_⟩
  obtain rfl | rfl := hclose'
  · rw [List.append_nil]
    have hshort : index' <+: index :=
      isPrefix_of_stop (hinside hindex') (hinside hindex) hclose ⟨_, hinner⟩
    exact hshort.trans (List.prefix_append _ _)
  · obtain ⟨rfl, -⟩ :=
      append_inj_of_stop (hinside hindex') hclose (hinside hindex) hclose hinner
    exact List.prefix_rfl

theorem isLongest_numeral {digits : List Char} (hc : c.isDigit = true)
    (hdigits : ∀ d ∈ digits, isNumeralChar d = true)
    (hrest : ∀ d ∈ rest.head?, isNumeralChar d = false) : IsLongest (c :: digits) rest := by
  refine ⟨.numeral hc hdigits, fun u hu hstart => ?_⟩
  obtain ⟨us, rfl, hus⟩ := hu.exists_cons hstart
  obtain ⟨-, hdigits'⟩ | rfl := hu.digits_or_single (isAlpha_eq_false_of_isDigit hc)
  · exact List.cons_prefix_cons.2 ⟨rfl, isPrefix_of_stop hdigits' hdigits hrest hus⟩
  · exact List.cons_prefix_cons.2 ⟨rfl, List.nil_prefix⟩

theorem isLongest_character (hletter : c.isAlpha = false) (hdigit : c.isDigit = false) :
    IsLongest [c] rest := by
  refine ⟨.character c, fun u hu hstart => ?_⟩
  obtain ⟨us, rfl, -⟩ := hu.exists_cons hstart
  obtain ⟨hc, -⟩ | rfl := hu.digits_or_single hletter
  · rw [hc] at hdigit
    cases hdigit
  · exact List.prefix_rfl

/-- A text is cut after the longest piece that it begins with. -/
theorem CutsTo.isLongest (h : CutsTo cs piece rest) : IsLongest piece.text rest := by
  cases h with
  | word hname hletter hbracket =>
    rw [Lexeme.text, Option.elim, List.append_nil]
    exact isLongest_word hname hletter hbracket
  | @opened name index hname hindex =>
    have htext : (Lexeme.word name (some ⟨index, false⟩)).text = name ++ '[' :: index := by
      simp [Lexeme.text, Subscript.text]
    rw [htext]
    refine ⟨.opened hname hindex, fun u _ hstart => ?_⟩
    rwa [List.append_nil] at hstart
  | closed hname hindex => exact isLongest_closed hname hindex
  | numeral hc hdigits hrest => exact isLongest_numeral hc hdigits hrest
  | symbol s => exact isLongest_character s.isAlpha_char s.isDigit_char
  | unknown hletter hdigit _ => exact isLongest_character hletter hdigit

/-- Whether the text `cs`, after which `rest` follows, is pieces of which each is the
longest there. -/
inductive InPieces (rest : List Char) : List Char → Prop
  | nil : InPieces rest []
  | cons {v cs : List Char} (hlongest : IsLongest v (cs ++ rest)) (hcs : InPieces rest cs) :
    InPieces rest (v ++ cs)

/-! ## Pieces up to a place -/

theorem Lexeme.join_append (before after : List Lexeme) :
    join (before ++ after) = join before ++ join after :=
  List.flatMap_append

theorem CutsTo.ne_nil (h : CutsTo cs piece rest) : cs ≠ [] := by
  cases h with
  | word hname | opened hname | closed hname => simp [hname.1]
  | numeral | symbol | unknown => simp

/-- The pieces of a text are the one it is cut into and those of what follows. -/
theorem CutsTo.split_eq (h : CutsTo cs piece rest) :
    Lexeme.split cs = piece :: Lexeme.split rest := by
  obtain ⟨c, cs, rfl⟩ := List.exists_cons_of_ne_nil h.ne_nil
  rw [Lexeme.split_cons, h.cut_eq]

/-- A text is cut into its first piece and what the others make up. -/
theorem cutsTo_of_split_eq_cons (h : Lexeme.split cs = piece :: pieces) :
    CutsTo cs piece (Lexeme.join pieces) ∧ Lexeme.split (Lexeme.join pieces) = pieces := by
  cases cs with
  | nil => simp at h
  | cons c cs =>
    rw [Lexeme.split_cons, List.cons.injEq] at h
    obtain ⟨rfl, rfl⟩ := h
    rw [Lexeme.join_split]
    exact ⟨cutsTo_cut c cs, rfl⟩

/-- The pieces of a text up to a place are the pieces of the text up to there. -/
theorem split_join_of_append {before after : List Lexeme} (h : Lexeme.split cs = before ++ after) :
    Lexeme.split (Lexeme.join before) = before := by
  induction before generalizing cs with
  | nil => exact Lexeme.split_nil
  | cons piece before ih =>
    rw [List.cons_append] at h
    obtain ⟨hcut, hrest⟩ := cutsTo_of_split_eq_cons h
    rw [Lexeme.join_append] at hcut
    have hsplit := hcut.of_append.split_eq
    rwa [ih hrest] at hsplit

/-- Up to a place a text is its pieces, each the longest there. -/
theorem inPieces_of_split {before after : List Lexeme} (h : Lexeme.split cs = before ++ after) :
    InPieces (Lexeme.join after) (Lexeme.join before) := by
  induction before generalizing cs with
  | nil => exact .nil
  | cons piece before ih =>
    rw [List.cons_append] at h
    obtain ⟨hcut, hrest⟩ := cutsTo_of_split_eq_cons h
    rw [Lexeme.join_append] at hcut
    exact .cons hcut.isLongest (ih hrest)

/-- A text is what its pieces make up, before some piece, in it and after it. -/
theorem eq_join_of_split {before after : List Lexeme}
    (h : Lexeme.split cs = before ++ piece :: after) :
    cs = Lexeme.join before ++ piece.text ++ Lexeme.join after := by
  have hjoin := Lexeme.join_split cs
  rw [h, Lexeme.join_append] at hjoin
  rw [← hjoin, List.append_assoc]
  rfl

/-- The pieces of a text up to the end of some piece. -/
theorem split_join_append_text {before after : List Lexeme}
    (h : Lexeme.split cs = before ++ piece :: after) :
    Lexeme.split (Lexeme.join before ++ piece.text) = before ++ [piece] := by
  rw [List.append_cons] at h
  have hjoin := split_join_of_append h
  rw [Lexeme.join_append] at hjoin
  simpa [Lexeme.join] using hjoin

/-- From a piece on a text is cut into the piece and what follows. -/
theorem cutsTo_of_split {before after : List Lexeme}
    (h : Lexeme.split cs = before ++ piece :: after) :
    CutsTo (piece.text ++ Lexeme.join after) piece (Lexeme.join after) := by
  induction before generalizing cs with
  | nil =>
    obtain ⟨hcut, -⟩ := cutsTo_of_split_eq_cons h
    rwa [hcut.text_append]
  | cons p before ih => exact ih (cutsTo_of_split_eq_cons h).2

end Formula
