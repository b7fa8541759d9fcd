import Formula.Lexical
import Formula.Proofs.Spans

/-!
# Formula.Proofs.Cutting

The piece that a text begins with, for every kind of piece.

* `cut_word`, `cut_indexed`, `cut_unclosed`, `cut_numeral`, `cut_symbol`,
  `cut_unknown` — where the text is the text of a piece and what follows cannot
  make it longer, `Lexeme.cut` gives that piece back;
* `CutsTo` — the same said without a scan;
* `cutsTo_cut`, `CutsTo.cut_eq` — every text is cut so, and in one way.
-/

namespace Formula

/-! ## Kinds of characters -/

/-- A digit is no letter. -/
theorem isAlpha_eq_false_of_isDigit {c : Char} (h : c.isDigit = true) : c.isAlpha = false := by
  delta Char.isDigit at h
  delta Char.isAlpha Char.isUpper Char.isLower
  simp only [Bool.and_eq_true, decide_eq_true_eq, ge_iff_le, UInt32.le_iff_toNat_le,
    Bool.or_eq_false_iff, Bool.and_eq_false_iff, decide_eq_false_iff_not] at h ⊢
  have hdigits : '9'.val.toNat < 'A'.val.toNat ∧ '9'.val.toNat < 'a'.val.toNat := by decide
  omega

/-- A digit may stand in a numeral. -/
theorem isNumeralChar_of_isDigit {c : Char} (h : c.isDigit = true) :
    isNumeralChar c = true := by
  rw [isNumeralChar, h, Bool.true_or]

/-- The character of a symbol is neither a letter nor a digit. -/
theorem Symbol.isAlpha_char (s : Symbol) : s.char.isAlpha = false := by
  cases s <;> decide

theorem Symbol.isDigit_char (s : Symbol) : s.char.isDigit = false := by
  cases s <;> decide

/-! ## Numerals -/

/-- A numeral begins with a digit and goes on with digits and points. -/
theorem IsNumeral.exists_cons {cs : List Char} (h : IsNumeral cs) :
    ∃ c ds, cs = c :: ds ∧ c.isDigit = true ∧ ∀ d ∈ ds, isNumeralChar d = true := by
  cases h with
  | whole h =>
    obtain ⟨c, ds, rfl⟩ := List.exists_cons_of_ne_nil h.1
    obtain ⟨hc, hds⟩ := List.forall_mem_cons.1 h.2
    exact ⟨c, ds, rfl, hc, fun d hd => isNumeralChar_of_isDigit (hds d hd)⟩
  | @point whole fraction hw hf =>
    obtain ⟨c, ds, rfl⟩ := List.exists_cons_of_ne_nil hw.1
    obtain ⟨hc, hds⟩ := List.forall_mem_cons.1 hw.2
    refine ⟨c, ds ++ '.' :: fraction, rfl, hc, ?_⟩
    intro d hd
    obtain hd | hd := List.mem_append.1 hd
    · exact isNumeralChar_of_isDigit (hds d hd)
    obtain rfl | hd := List.mem_cons.1 hd
    · rfl
    · exact isNumeralChar_of_isDigit (hf.2 d hd)

/-- A symbol is no letters. -/
theorem Symbol.not_isLetters (s : Symbol) : ¬ IsLetters [s.char] := by
  intro h
  have hchar := h.2 s.char List.mem_cons_self
  rw [s.isAlpha_char] at hchar
  cases hchar

/-- A symbol is no numeral. -/
theorem Symbol.not_isNumeral (s : Symbol) : ¬ IsNumeral [s.char] := by
  intro h
  obtain ⟨c, ds, hcons, hc, -⟩ := h.exists_cons
  cases hcons
  rw [s.isDigit_char] at hc
  cases hc

namespace Lexeme

/-! ## Pieces that cannot be longer -/

variable {c : Char} {cs rest : List Char}

/-- Letters before neither a letter nor a bracket are a word. -/
theorem cut_word (hc : c.isAlpha = true) (hcs : ∀ d ∈ cs, d.isAlpha = true)
    (hrest : ∀ d ∈ rest.head?, d.isAlpha = false) (hbracket : ∀ d ∈ rest.head?, d ≠ '[') :
    cut c (cs ++ rest) = (word (c :: cs) none, rest) := by
  have hnone : Subscript.cut rest = (none, rest) := by
    cases rest with
    | nil => rfl
    | cons d rest =>
      unfold Subscript.cut
      split
      · rename_i hopen
        cases hopen
        exact absurd rfl (hbracket '[' rfl)
      · rfl
  rw [cut, if_pos hc, dropWhile_append_of_stop hcs hrest, takeWhile_append_of_stop hcs hrest,
    hnone]

/-- Letters before a subscript that is closed are a word with that subscript. -/
theorem cut_indexed {index : List Char} (hc : c.isAlpha = true)
    (hcs : ∀ d ∈ cs, d.isAlpha = true) (hindex : ∀ d ∈ index, d ≠ ']') :
    cut c (cs ++ '[' :: (index ++ ']' :: rest)) =
      (word (c :: cs) (some ⟨index, true⟩), rest) := by
  have hopen : ∀ d ∈ ('[' :: (index ++ ']' :: rest)).head?, d.isAlpha = false := by
    intro d hd
    cases hd
    decide
  have hinside : ∀ d ∈ index, decide (d ≠ ']') = true := by simpa using hindex
  have hclose : ∀ d ∈ (']' :: rest).head?, decide (d ≠ ']') = false := by
    intro d hd
    cases hd
    decide
  have hsub : Subscript.cut ('[' :: (index ++ ']' :: rest)) = (some ⟨index, true⟩, rest) := by
    rw [Subscript.cut, dropWhile_append_of_stop hinside hclose,
      takeWhile_append_of_stop hinside hclose]
  rw [cut, if_pos hc, dropWhile_append_of_stop hcs hopen, takeWhile_append_of_stop hcs hopen,
    hsub]

/-- Letters before a subscript that is not closed are a word with all that
follows for its subscript. -/
theorem cut_unclosed {index : List Char} (hc : c.isAlpha = true)
    (hcs : ∀ d ∈ cs, d.isAlpha = true) (hindex : ∀ d ∈ index, d ≠ ']') :
    cut c (cs ++ '[' :: index) = (word (c :: cs) (some ⟨index, false⟩), []) := by
  have hopen : ∀ d ∈ ('[' :: index).head?, d.isAlpha = false := by
    intro d hd
    cases hd
    decide
  have hinside : ∀ d ∈ index, decide (d ≠ ']') = true := by simpa using hindex
  have hend : ∀ d ∈ ([] : List Char).head?, decide (d ≠ ']') = false := by simp
  have hnone := dropWhile_append_of_stop hinside hend
  rw [List.append_nil] at hnone
  have hsub : Subscript.cut ('[' :: index) = (some ⟨index, false⟩, []) := by
    rw [Subscript.cut, hnone]
  rw [cut, if_pos hc, dropWhile_append_of_stop hcs hopen, takeWhile_append_of_stop hcs hopen,
    hsub]

/-- A digit with digits and points up to some other character is a numeral. -/
theorem cut_numeral (hc : c.isDigit = true) (hcs : ∀ d ∈ cs, isNumeralChar d = true)
    (hrest : ∀ d ∈ rest.head?, isNumeralChar d = false) :
    cut c (cs ++ rest) = (numeral (c :: cs), rest) := by
  rw [cut, if_neg (by simp [isAlpha_eq_false_of_isDigit hc]), if_pos hc,
    takeWhile_append_of_stop hcs hrest, dropWhile_append_of_stop hcs hrest]

/-- The character of a symbol is that symbol. -/
theorem cut_symbol (s : Symbol) : cut s.char rest = (symbol s, rest) := by
  rw [cut, if_neg (by simp [s.isAlpha_char]), if_neg (by simp [s.isDigit_char]),
    Symbol.ofChar?_char]

/-- Any other character is a piece by itself. -/
theorem cut_unknown (hletter : c.isAlpha = false) (hdigit : c.isDigit = false)
    (hsymbol : ∀ s : Symbol, s.char ≠ c) : cut c rest = (unknown c, rest) := by
  have hnone : Symbol.ofChar? c = none := by
    cases hs : Symbol.ofChar? c with
    | none => rfl
    | some s => exact absurd (Symbol.char_of_ofChar? hs) (hsymbol s)
  rw [cut, if_neg (Bool.eq_false_iff.1 hletter), if_neg (Bool.eq_false_iff.1 hdigit), hnone]

end Lexeme

/-! ## Cutting without a scan -/

/-- `CutsTo cs piece rest`: the text `cs` begins with the piece, after which `rest`
follows. -/
inductive CutsTo : List Char → Lexeme → List Char → Prop
  | word {name rest : List Char} (hname : IsLetters name)
    (hletter : ∀ c ∈ rest.head?, c.isAlpha = false) (hbracket : ∀ c ∈ rest.head?, c ≠ '[') :
    CutsTo (name ++ rest) (.word name none) rest
  | opened {name index : List Char} (hname : IsLetters name) (hindex : ']' ∉ index) :
    CutsTo (name ++ '[' :: index) (.word name (some ⟨index, false⟩)) []
  | closed {name index rest : List Char} (hname : IsLetters name) (hindex : ']' ∉ index) :
    CutsTo (name ++ '[' :: (index ++ ']' :: rest)) (.word name (some ⟨index, true⟩)) rest
  | numeral {c : Char} {cs rest : List Char} (hc : c.isDigit = true)
    (hcs : ∀ d ∈ cs, isNumeralChar d = true) (hrest : ∀ d ∈ rest.head?, isNumeralChar d = false) :
    CutsTo (c :: (cs ++ rest)) (.numeral (c :: cs)) rest
  | symbol (s : Symbol) {rest : List Char} : CutsTo (s.char :: rest) (.symbol s) rest
  | unknown {c : Char} {rest : List Char} (hletter : c.isAlpha = false)
    (hdigit : c.isDigit = false) (hsymbol : ∀ s : Symbol, s.char ≠ c) :
    CutsTo (c :: rest) (.unknown c) rest

variable {c : Char} {cs rest : List Char} {piece : Lexeme}

/-- A subscript stands at a bracket and goes on to the bracket that closes it, or
to the end of the text. -/
theorem Subscript.cut_cases (cs : List Char) :
    ((∀ c ∈ cs.head?, c ≠ '[') ∧ cut cs = (none, cs)) ∨
    (∃ index, cs = '[' :: index ∧ ']' ∉ index ∧ cut cs = (some ⟨index, false⟩, [])) ∨
    ∃ index rest, cs = '[' :: (index ++ ']' :: rest) ∧ ']' ∉ index ∧
      cut cs = (some ⟨index, true⟩, rest) := by
  cases cs with
  | nil => exact .inl ⟨by simp, rfl⟩
  | cons c cs =>
    by_cases hc : c = '['
    · subst hc
      obtain ⟨index, rest, rfl, hindex, hrest⟩ := exists_append_of_stop (· ≠ ']') cs
      have hinside : ']' ∉ index := fun hmem => by simpa using hindex ']' hmem
      have hdrop := dropWhile_append_of_stop hindex hrest
      have htake := takeWhile_append_of_stop hindex hrest
      cases rest with
      | nil =>
        rw [List.append_nil] at *
        exact .inr (.inl ⟨index, rfl, hinside, by rw [cut, hdrop]⟩)
      | cons d rest =>
        obtain rfl : d = ']' := by simpa using hrest d rfl
        exact .inr (.inr ⟨index, rest, rfl, hinside, by rw [cut, hdrop, htake]⟩)
    · refine .inl ⟨by simpa using hc, ?_⟩
      unfold cut
      split
      · rename_i hopen
        cases hopen
        exact absurd rfl hc
      · rfl

/-- Every text is cut so. -/
theorem cutsTo_cut (c : Char) (cs : List Char) :
    CutsTo (c :: cs) (Lexeme.cut c cs).1 (Lexeme.cut c cs).2 := by
  unfold Lexeme.cut
  split
  · rename_i hc
    obtain ⟨name, after, rfl, hname, hafter⟩ := exists_append_of_stop Char.isAlpha cs
    rw [takeWhile_append_of_stop hname hafter, dropWhile_append_of_stop hname hafter]
    have hletters : IsLetters (c :: name) :=
      ⟨List.cons_ne_nil _ _, List.forall_mem_cons.2 ⟨hc, hname⟩⟩
    obtain ⟨hbracket, hcut⟩ | ⟨index, rfl, hindex, hcut⟩ | ⟨index, rest, rfl, hindex, hcut⟩ :=
      Subscript.cut_cases after
    · rw [hcut]
      exact .word hletters hafter hbracket
    · rw [hcut]
      exact .opened hletters hindex
    · rw [hcut]
      exact .closed hletters hindex
  rename_i hletter
  split
  · rename_i hc
    obtain ⟨digits, rest, rfl, hdigits, hrest⟩ := exists_append_of_stop isNumeralChar cs
    rw [takeWhile_append_of_stop hdigits hrest, dropWhile_append_of_stop hdigits hrest]
    exact .numeral hc hdigits hrest
  rename_i hdigit
  split
  · rename_i s hs
    rw [← Symbol.char_of_ofChar? hs]
    exact .symbol s
  · rename_i hnone
    refine .unknown (Bool.eq_false_iff.2 hletter) (Bool.eq_false_iff.2 hdigit) ?_
    rintro s rfl
    rw [Symbol.ofChar?_char] at hnone
    cases hnone

/-- The text is the piece and what follows it. -/
theorem CutsTo.text_append (h : CutsTo cs piece rest) : piece.text ++ rest = cs := by
  cases h with
  | word | opened | closed | numeral | symbol | unknown => simp [Lexeme.text, Subscript.text]

/-- A text is cut in one way. -/
theorem CutsTo.cut_eq (h : CutsTo (c :: cs) piece rest) : Lexeme.cut c cs = (piece, rest) := by
  have hne : ∀ {index : List Char}, ']' ∉ index → ∀ d ∈ index, d ≠ ']' := by
    rintro index hindex d hd rfl
    exact hindex hd
  generalize htext : c :: cs = text at h
  cases h with
  | @word name _ hname hletter hbracket =>
    obtain ⟨d, ds, rfl⟩ := List.exists_cons_of_ne_nil hname.1
    obtain ⟨hd, hds⟩ := List.forall_mem_cons.1 hname.2
    cases htext
    exact Lexeme.cut_word hd hds hletter hbracket
  | @opened name index hname hindex =>
    obtain ⟨d, ds, rfl⟩ := List.exists_cons_of_ne_nil hname.1
    obtain ⟨hd, hds⟩ := List.forall_mem_cons.1 hname.2
    cases htext
    exact Lexeme.cut_unclosed hd hds (hne hindex)
  | @closed name index _ hname hindex =>
    obtain ⟨d, ds, rfl⟩ := List.exists_cons_of_ne_nil hname.1
    obtain ⟨hd, hds⟩ := List.forall_mem_cons.1 hname.2
    cases htext
    exact Lexeme.cut_indexed hd hds (hne hindex)
  | numeral hc hcs hrest =>
    cases htext
    exact Lexeme.cut_numeral hc hcs hrest
  | symbol s =>
    cases htext
    exact Lexeme.cut_symbol s
  | unknown hletter hdigit hsymbol =>
    cases htext
    exact Lexeme.cut_unknown hletter hdigit hsymbol

end Formula
