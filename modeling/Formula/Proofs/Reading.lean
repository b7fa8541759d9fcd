import Formula.Proofs.Cutting
import Formula.Proofs.Outcome

/-!
# Formula.Proofs.Reading

A text that is spellings of tokens one after the other is read as these tokens.

* `indexValue?_eq` — an index is read exactly, or not at all when it does not
  fit in a word of 64 bits;
* `Follows` — what may come after a spelling without making it longer;
* `Spells.cutAs` — a spelling is cut off as one piece, which is read as
  its token;
* `tokenizeNormal_of_lexical` — the whole text.
-/

namespace Formula

/-! ## Indices -/

/-- Further digits make a number no smaller. -/
theorem le_ofDigitChars (digits : List Char) (value : Nat) :
    value ≤ Nat.ofDigitChars 10 digits value := by
  induction digits generalizing value with
  | nil => simp
  | cons c digits ih =>
    rw [Nat.ofDigitChars_cons]
    have := ih (10 * value + (c.toNat - '0'.toNat))
    omega

/-- The index that digits write is found when it fits in a word. -/
theorem indexValue?_eq (digits : List Char) :
    indexValue? digits =
      if Nat.ofDigitChars 10 digits 0 < UInt64.size then some (Nat.ofDigitChars 10 digits 0)
      else none := by
  have hfold : ∀ value < UInt64.size,
      digits.foldlM
        (fun value c =>
          let value := 10 * value + (c.toNat - '0'.toNat)
          if value < UInt64.size then some value else none)
        value =
      if Nat.ofDigitChars 10 digits value < UInt64.size then
        some (Nat.ofDigitChars 10 digits value)
      else none := by
    induction digits with
    | nil =>
      intro value hvalue
      rw [Nat.ofDigitChars_nil, if_pos hvalue]
      rfl
    | cons c digits ih =>
      intro value _
      rw [List.foldlM_cons, Nat.ofDigitChars_cons]
      by_cases hnext : 10 * value + (c.toNat - '0'.toNat) < UInt64.size
      · simp only [if_pos hnext]
        exact ih _ hnext
      · have hle := le_ofDigitChars digits (10 * value + (c.toNat - '0'.toNat))
        have hnone : ¬ Nat.ofDigitChars 10 digits (10 * value + (c.toNat - '0'.toNat)) <
            UInt64.size := by omega
        simp only [if_neg hnext, if_neg hnone]
        rfl
  exact hfold 0 (by decide)

/-- Digits are read as the variable of their number, which has to be below the
dimension, however large it is. -/
theorem readIndex_eq {digits : List Char} (hdigits : IsDigits digits) (size : UInt64)
    (position : Nat) :
    readIndex size ⟨digits, true⟩ position =
      if Nat.ofDigitChars 10 digits 0 < size.toNat then
        .ok (.var (Nat.ofDigitChars 10 digits 0))
      else .error (.indexOutOfRange (String.ofList digits) size.toNat (position + 1)) := by
  have hall : digits.all Char.isDigit = true := List.all_eq_true.2 hdigits.2
  have hvalid : ¬ (digits = [] ∨ (! digits.all Char.isDigit) = true) := by
    rw [hall]
    simpa using hdigits.1
  simp only [readIndex, Bool.not_true, Bool.false_eq_true, if_false, if_neg hvalid,
    indexValue?_eq]
  by_cases hword : Nat.ofDigitChars 10 digits 0 < UInt64.size
  · simp only [if_pos hword]
  · have hlarge : ¬ Nat.ofDigitChars 10 digits 0 < size.toNat :=
      fun hlt => hword (Nat.lt_trans hlt size.toNat_lt)
    simp only [if_neg hword, if_neg hlarge]

/-- Digits of an index below the dimension are read as the variable. -/
theorem readIndex_of_isDigits {digits : List Char} {size : UInt64} (hdigits : IsDigits digits)
    (hsize : Nat.ofDigitChars 10 digits 0 < size.toNat) (position : Nat) :
    readIndex size ⟨digits, true⟩ position = .ok (.var (Nat.ofDigitChars 10 digits 0)) := by
  rw [readIndex_eq hdigits, if_pos hsize]

/-- What is no number is refused. -/
theorem readIndex_of_not_isDigits {index : List Char} (size : UInt64) (h : ¬ IsDigits index)
    (position : Nat) :
    readIndex size ⟨index, true⟩ position =
      .error (.invalidIndex (String.ofList index) (position + 1)) := by
  have hinvalid : index = [] ∨ (! index.all Char.isDigit) = true := by
    refine Decidable.or_iff_not_imp_left.2 fun hne => ?_
    rw [Bool.not_eq_true', Bool.eq_false_iff]
    exact fun hall => h ⟨hne, List.all_eq_true.1 hall⟩
  simp only [readIndex, Bool.not_true, Bool.false_eq_true, if_false, if_pos hinvalid]

/-! ## Numerals -/

/-- There is no point among digits. -/
theorem IsDigits.count_point {cs : List Char} (h : IsDigits cs) : cs.count '.' = 0 := by
  rw [List.count_eq_zero]
  intro hmem
  exact absurd (h.2 '.' hmem) (by decide)

/-- Digits do not end in a point, whatever stands before them. -/
theorem IsDigits.getLast?_append_ne {cs : List Char} (h : IsDigits cs) (before : List Char) :
    (before ++ cs).getLast? ≠ some '.' := by
  intro hlast
  rw [List.getLast?_append, List.getLast?_eq_some_getLast h.1, Option.some_or,
    Option.some.injEq] at hlast
  have hmem := List.getLast_mem h.1
  rw [hlast] at hmem
  exact absurd (h.2 '.' hmem) (by decide)

/-- A numeral is read as the number it writes. -/
theorem readNumeral_of_isNumeral {cs : List Char} (h : IsNumeral cs) (position : Nat) :
    readNumeral cs position = .ok (.number (Decimal.ofLiteral cs).toFloat) := by
  have hcount : cs.count '.' ≤ 1 := by
    cases h with
    | whole h =>
      have hnone := h.count_point
      omega
    | point hw hf =>
      have hwhole := hw.count_point
      have hfraction := hf.count_point
      rw [List.count_append, List.count_cons_self]
      omega
  have hlast : cs.getLast? ≠ some '.' := by
    cases h with
    | whole h => exact h.getLast?_append_ne []
    | @point whole fraction hw hf =>
      have := hf.getLast?_append_ne (whole ++ ['.'])
      rwa [List.append_assoc] at this
  rw [readNumeral, if_neg (by omega), if_neg hlast]

/-! ## Words -/

/-- A word of its own meaning is read as that. -/
theorem readWord_of_fixedWord? {name : List Char} {token : Token}
    (h : fixedWord? name = some token) (mode : VarMode) (position : Nat) :
    readWord mode name none position = .ok token := by
  simp only [readWord, h]

@[simp] theorem fixedWord?_name (f : Func) : fixedWord? f.name.toList = some (.func f) := by
  rw [fixedWord?, String.ofList_toList, Func.ofName?_name]

/-- Whether a word is letters can be computed. -/
theorem isLetters_of_all {cs : List Char} (hne : cs ≠ []) (h : cs.all Char.isAlpha = true) :
    IsLetters cs :=
  ⟨hne, List.all_eq_true.1 h⟩

/-- The name of a function is letters. -/
theorem isLetters_name (f : Func) : IsLetters f.name.toList := by
  cases f <;> exact isLetters_of_all (by decide) (by decide)

/-! ## Spellings -/

/-- Whether a text may come after a spelling without making it longer. -/
structure Follows (v rest : List Char) : Prop where
  letter : IsLetters v → ∀ c ∈ rest.head?, c.isAlpha = false
  digit : IsNumeral v → ∀ c ∈ rest.head?, c.isDigit = false
  bracket : ∀ c ∈ rest.head?, c ≠ '['
  point : ∀ c ∈ rest.head?, c ≠ '.'

variable {mode : VarMode} {previous : Option Token} {token : Token} {u v rest : List Char}
  {tokens : List Token}

/-- No spelling begins with a bracket or a point, and only numerals begin with
a digit. -/
theorem Spells.exists_cons (h : Spells mode v token) :
    ∃ c cs, v = c :: cs ∧ c ≠ '[' ∧ c ≠ '.' ∧ (c.isDigit = true → IsNumeral v) := by
  cases h with
  | number h =>
    obtain ⟨c, ds, rfl, hc, -⟩ := h.exists_cons
    refine ⟨c, ds, rfl, ?_, ?_, fun _ => h⟩
    · rintro rfl
      exact absurd hc (by decide)
    · rintro rfl
      exact absurd hc (by decide)
  | func f =>
    cases f <;>
      exact ⟨_, _, rfl, by decide, by decide, fun hdigit => absurd hdigit (by decide)⟩
  | _ => exact ⟨_, _, rfl, by decide, by decide, fun hdigit => absurd hdigit (by decide)⟩

/-- The text of the tokens that come after a token may follow its spelling. -/
theorem LexicalAfter.follows (h : LexicalAfter mode u previous rest tokens) :
    Follows u rest := by
  cases h with
  | nil => exact ⟨by simp, by simp, by simp, by simp⟩
  | cons hspell hseparate _ _ =>
    obtain ⟨c, cs, rfl, hbracket, hpoint, hdigit⟩ := hspell.exists_cons
    refine ⟨hseparate.1, ?_, ?_, ?_⟩
    · rintro hu d hd
      cases hd
      cases hc : c.isDigit with
      | false => rfl
      | true => exact absurd (hdigit hc) (hseparate.2 hu)
    · rintro d hd
      cases hd
      exact hbracket
    · rintro d hd
      cases hd
      exact hpoint

/-- Whether a spelling is cut off as one piece, which is read as its token. -/
def CutAs (mode : VarMode) (previous : Option Token) (v rest : List Char) (token : Token) :
    Prop :=
  ∃ c cs piece, v = c :: cs ∧ Lexeme.cut c (cs ++ rest) = (piece, rest) ∧
    ∀ position, piece.read mode previous position = .ok token

theorem cutAs_word (hv : IsLetters v) (hfollows : Follows v rest)
    (hread : ∀ position, readWord mode v none position = .ok token) :
    CutAs mode previous v rest token := by
  obtain ⟨c, cs, rfl⟩ := List.exists_cons_of_ne_nil hv.1
  obtain ⟨hc, hcs⟩ := List.forall_mem_cons.1 hv.2
  exact ⟨c, cs, .word (c :: cs) none, rfl,
    Lexeme.cut_word hc hcs (hfollows.letter hv) hfollows.bracket, hread⟩

theorem cutAs_symbol (s : Symbol) (h : s.token previous = token) :
    CutAs mode previous [s.char] rest token :=
  ⟨s.char, [], .symbol s, rfl, Lexeme.cut_symbol s, fun _ => congrArg Except.ok h⟩

/-- A spelling is cut off as one piece, which is read as its token. -/
theorem Spells.cutAs (h : Spells mode v token) (hplaced : Placed previous token)
    (hfollows : Follows v rest) : CutAs mode previous v rest token := by
  cases h with
  | number h =>
    obtain ⟨c, cs, rfl, hc, hcs⟩ := h.exists_cons
    refine ⟨c, cs, .numeral (c :: cs), rfl, Lexeme.cut_numeral hc hcs ?_,
      readNumeral_of_isNumeral h⟩
    intro d hd
    have hpoint : (d == '.') = false := by simpa using hfollows.point d hd
    rw [isNumeralChar, hfollows.digit h d hd, hpoint]
    rfl
  | euler =>
    exact cutAs_word (isLetters_of_all (by decide) (by decide)) hfollows
      (readWord_of_fixedWord? rfl mode)
  | pi =>
    exact cutAs_word (isLetters_of_all (by decide) (by decide)) hfollows
      (readWord_of_fixedWord? rfl mode)
  | func f =>
    exact cutAs_word (isLetters_name f) hfollows
      (readWord_of_fixedWord? (fixedWord?_name f) mode)
  | scalar hmode =>
    subst hmode
    exact cutAs_word (isLetters_of_all (by decide) (by decide)) hfollows fun _ => rfl
  | @indexed digits size hne hmode hdigits hsize =>
    subst hmode
    refine ⟨'x', '[' :: (digits ++ [']']), .word ['x'] (some ⟨digits, true⟩), rfl, ?_, ?_⟩
    · have hinside : ∀ d ∈ digits, d ≠ ']' := by
        rintro d hd rfl
        exact absurd (hdigits.2 ']' hd) (by decide)
      have hnone : ∀ d ∈ ([] : List Char), d.isAlpha = true := by simp
      have hcut : Lexeme.cut 'x' ([] ++ '[' :: (digits ++ ']' :: rest)) =
          (.word ['x'] (some ⟨digits, true⟩), rest) :=
        Lexeme.cut_indexed (by decide) hnone hinside
      simpa using hcut
    · exact fun position => readIndex_of_isDigits hdigits hsize _
  | add => exact cutAs_symbol .plus (if_neg (by rw [hplaced]; decide))
  | sub => exact cutAs_symbol .minus (if_neg (by rw [hplaced]; decide))
  | pos => exact cutAs_symbol .plus (if_pos hplaced)
  | neg => exact cutAs_symbol .minus (if_pos hplaced)
  | mul => exact cutAs_symbol .star rfl
  | div => exact cutAs_symbol .slash rfl
  | pow => exact cutAs_symbol .caret rfl
  | leftParen => exact cutAs_symbol .leftParen rfl
  | rightParen => exact cutAs_symbol .rightParen rfl
  | comma => exact cutAs_symbol .comma rfl

/-! ## Texts -/

/-- A text that is spellings of tokens is read as these tokens, wherever it
stands. -/
theorem readAll_of_lexicalAfter (h : LexicalAfter mode u previous rest tokens)
    (position : Nat) :
    readAll mode previous position (Lexeme.split rest) = .ok tokens := by
  induction h generalizing position with
  | nil =>
    rw [Lexeme.split_nil]
    rfl
  | cons hspell _ hplaced hrest ih =>
    obtain ⟨c, cs, piece, rfl, hcut, hread⟩ := hspell.cutAs hplaced hrest.follows
    rw [List.cons_append, Lexeme.split_cons, hcut, readAll]
    exact bind_eq_ok.2 ⟨_, hread position, bind_eq_ok.2 ⟨_, ih _, rfl⟩⟩

/-- A text in normal form that is spellings of tokens is read as these
tokens. -/
theorem tokenizeNormal_of_lexical (h : Lexical mode rest tokens) :
    tokenizeNormal mode rest = .ok tokens :=
  readAll_of_lexicalAfter h 0

end Formula
