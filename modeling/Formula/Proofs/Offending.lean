import Formula.Proofs.Enclosing
import Formula.Proofs.Longest
import Formula.Proofs.Settled

/-!
# Formula.Proofs.Offending

Where a text is refused, and for what.

* `Blames` — the ways a piece of a text can be wrong, each with the error that
  tells of it and the place the error names;
* `blames_of_read` — the errors of a piece are these;
* `Blames.exists_quoted` — the place lies in the piece, and what the error quotes
  stands there;
* `exists_error_of_readAll` — the pieces before the first that is wrong are read;
* `exists_firstError` — all of this for a text.
-/

namespace Formula

open Text

/-! ## What is wrong with a piece -/

/-- The names that mean the same in every mode. -/
def IsFixed (name : List Char) : Prop :=
  (∃ f : Func, name = f.name.toList) ∨ name = ['e'] ∨ name = ['p', 'i']

/-- `Blames mode position v e`: the piece `v` at `position` is wrong, and `e` is the
error that says so.  A subscript may be left open. -/
inductive Blames (mode : VarMode) (position : Nat) : List Char → LexError → Prop
  | points {literal : List Char} (hchars : ∀ c ∈ literal, isNumeralChar c = true)
    (hcount : 1 < literal.count '.') :
    Blames mode position literal (.duplicateDecimalPoint (String.ofList literal) position)
  | trailingPoint {digits : List Char} (hdigits : IsDigits digits) :
    Blames mode position (digits ++ ['.'])
      (.trailingDecimalPoint (String.ofList (digits ++ ['.'])) position)
  | character {c : Char} (hletter : c.isAlpha = false) (hdigit : c.isDigit = false)
    (hsymbol : ∀ s : Symbol, s.char ≠ c) : Blames mode position [c] (.illegalCharacter c position)
  | subscripted {name tail : List Char} (hname : IsFixed name) :
    Blames mode position (name ++ '[' :: tail) (.illegalCharacter '[' (position + byteLength name))
  | unknown {name tail : List Char} (hname : IsLetters name) (hfixed : ¬ IsFixed name)
    (hvariable : name ≠ variableName) (htail : ∀ c ∈ tail.head?, c = '[') :
    Blames mode position (name ++ tail) (.unknownIdentifier (String.ofList name) position)
  | noVariables {tail : List Char} (hmode : mode = .constant)
    (htail : ∀ c ∈ tail.head?, c = '[') :
    Blames mode position (variableName ++ tail)
      (.variablesNotAllowed (String.ofList variableName) position)
  | indexed {tail : List Char} (hmode : mode = .scalar) :
    Blames mode position (variableName ++ '[' :: tail) (.indexInScalarMode position)
  | bare {size : UInt64} {hsize : size ≠ 0} (hmode : mode = .vector size hsize) :
    Blames mode position variableName (.scalarInVectorMode position)
  | unclosed {size : UInt64} {hsize : size ≠ 0} {index : List Char}
    (hmode : mode = .vector size hsize) (hindex : ']' ∉ index) :
    Blames mode position (variableName ++ '[' :: index) (.unclosedIndex (position + 1))
  | notDigits {size : UInt64} {hsize : size ≠ 0} {index : List Char}
    (hmode : mode = .vector size hsize) (hindex : ']' ∉ index) (hdigits : ¬ IsDigits index) :
    Blames mode position (variableName ++ '[' :: (index ++ [']']))
      (.invalidIndex (String.ofList index) (position + 2))
  | tooLarge {size : UInt64} {hsize : size ≠ 0} {index : List Char}
    (hmode : mode = .vector size hsize) (hdigits : IsDigits index)
    (hlarge : size.toNat ≤ Nat.ofDigitChars 10 index 0) :
    Blames mode position (variableName ++ '[' :: (index ++ [']']))
      (.indexOutOfRange (String.ofList index) size.toNat (position + 2))

variable {mode : VarMode} {previous : Option Token} {position : Nat} {token : Token}
  {tokens : List Token} {e : LexError} {v cs rest : List Char} {piece : Lexeme}
  {pieces : List Lexeme}

/-- A word that means the same in every mode is one of these names. -/
theorem isFixed_of_fixedWord? {name : List Char} (h : fixedWord? name = some token) :
    IsFixed name := by
  obtain ⟨f, hname, -⟩ | ⟨hname, -⟩ | ⟨hname, -⟩ := fixedWord?_cases h
  · exact .inl ⟨f, hname⟩
  · exact .inr (.inl hname)
  · exact .inr (.inr hname)

/-- Each of these names means something. -/
theorem IsFixed.fixedWord?_ne_none {name : List Char} (h : IsFixed name) :
    fixedWord? name ≠ none := by
  obtain ⟨f, rfl⟩ | rfl | rfl := h
  · rw [fixedWord?_name]
    exact Option.some_ne_none _
  · exact Option.some_ne_none _
  · exact Option.some_ne_none _

/-- The errors of a numeral. -/
theorem blames_of_readNumeral {literal : List Char}
    (hchars : ∀ d ∈ literal, isNumeralChar d = true) (hne : literal ≠ ['.'])
    (h : readNumeral literal position = .error e) : Blames mode position literal e := by
  unfold readNumeral at h
  split at h
  · rename_i hcount
    cases h
    exact .points hchars hcount
  rename_i hcount
  split at h
  · rename_i hlast
    cases h
    obtain ⟨digits, rfl⟩ := List.getLast?_eq_some_iff.1 hlast
    refine .trailingPoint (isDigits_of_point_not_mem ?_ ?_ ?_)
    · rintro rfl
      exact hne rfl
    · exact (List.forall_mem_append.1 hchars).1
    · intro hmem
      have hpos := List.count_pos_iff.2 hmem
      rw [List.count_append, List.count_singleton_self] at hcount
      omega
  · cases h

/-- The errors of an index. -/
theorem blames_of_readIndex {size : UInt64} {hsize : size ≠ 0} {s : Subscript}
    (hmode : mode = .vector size hsize) (hindex : ']' ∉ s.index)
    (h : readIndex size s (position + 1) = .error e) :
    Blames mode position (variableName ++ s.text) e := by
  obtain ⟨index, closed⟩ := s
  cases closed with
  | false =>
    cases h
    rw [Subscript.text]
    simpa using Blames.unclosed hmode hindex
  | true =>
    by_cases hdigits : IsDigits index
    · rw [readIndex_eq hdigits] at h
      split at h
      · cases h
      · rename_i hlarge
        cases h
        exact .tooLarge hmode hdigits (Nat.le_of_not_lt hlarge)
    · rw [readIndex_of_not_isDigits size hdigits] at h
      cases h
      exact .notDigits hmode hindex hdigits

/-- What follows a name begins with a bracket. -/
theorem eq_bracket_of_mem_head? {subscript? : Option Subscript} :
    ∀ c ∈ (subscript?.elim [] Subscript.text).head?, c = '[' := by
  intro c hc
  cases subscript? with
  | none => cases hc
  | some s =>
    cases hc
    rfl

/-- The errors of a variable. -/
theorem blames_of_readVariable {subscript? : Option Subscript}
    (hindex : ∀ s ∈ subscript?, ']' ∉ s.index)
    (h : readVariable mode subscript? position (position + 1) = .error e) :
    Blames mode position (variableName ++ subscript?.elim [] Subscript.text) e := by
  cases mode with
  | constant =>
    cases h
    exact .noVariables rfl eq_bracket_of_mem_head?
  | scalar =>
    cases subscript? with
    | none => cases h
    | some s =>
      cases h
      exact .indexed rfl
  | vector size hsize =>
    cases subscript? with
    | none =>
      cases h
      exact .bare rfl
    | some s => exact blames_of_readIndex rfl (hindex s rfl) h

/-- The errors of a word. -/
theorem blames_of_readWord {name : List Char} {subscript? : Option Subscript}
    (hname : IsLetters name) (hindex : ∀ s ∈ subscript?, ']' ∉ s.index)
    (h : readWord mode name subscript? position = .error e) :
    Blames mode position (Lexeme.word name subscript?).text e := by
  simp only [readWord] at h
  split at h
  · cases h
  · rename_i hfixed
    cases h
    exact .subscripted (isFixed_of_fixedWord? hfixed)
  · rename_i hfixed
    split at h
    · rename_i hvariable
      subst hvariable
      exact blames_of_readVariable hindex h
    · rename_i hvariable
      cases h
      exact .unknown hname (fun hmeaning => hmeaning.fixedWord?_ne_none hfixed) hvariable
        eq_bracket_of_mem_head?

/-- The errors of a piece. -/
theorem blames_of_read (hcut : CutsTo cs piece rest)
    (h : piece.read mode previous position = .error e) : Blames mode position piece.text e := by
  cases hcut with
  | word hname => exact blames_of_readWord hname (by simp) h
  | opened hname hindex | closed hname hindex =>
    exact blames_of_readWord hname (by simpa using hindex) h
  | @numeral c digits _ hc hdigits =>
    refine blames_of_readNumeral ?_ ?_ h
    · exact List.forall_mem_cons.2 ⟨isNumeralChar_of_isDigit hc, hdigits⟩
    · intro hpoint
      cases hpoint
      exact absurd hc (by decide)
  | symbol s => cases h
  | unknown hletter hdigit hsymbol =>
    cases h
    exact .character hletter hdigit hsymbol

/-! ## What an error quotes -/

/-- The part of the text that the error quotes: the literal, the name, the character
or the index.  Some errors quote nothing. -/
def LexError.quoted : LexError → List Char
  | trailingDecimalPoint literal _ | duplicateDecimalPoint literal _ => literal.toList
  | illegalCharacter character _ => [character]
  | unknownIdentifier name _ | variablesNotAllowed name _ => name.toList
  | indexOutOfRange index _ _ | invalidIndex index _ => index.toList
  | indexInScalarMode _ | scalarInVectorMode _ | unclosedIndex _ => []

/-- The place lies in the piece that is wrong, and what the error quotes stands
there. -/
theorem Blames.exists_quoted (h : Blames mode position v e) :
    ∃ before after, v = before ++ (e.quoted ++ after) ∧ e.quoted ++ after ≠ [] ∧
      position + byteLength before = e.position := by
  cases h with
  | points hchars hcount =>
    refine ⟨[], [], by simp [LexError.quoted], fun hnil => ?_, rfl⟩
    simp only [LexError.quoted, String.toList_ofList, List.append_nil] at hnil
    rw [hnil] at hcount
    cases hcount
  | trailingPoint hdigits =>
    exact ⟨[], [], by simp [LexError.quoted], by simp [LexError.quoted], rfl⟩
  | character => exact ⟨[], [], rfl, List.cons_ne_nil _ _, rfl⟩
  | @subscripted name tail => exact ⟨name, tail, rfl, List.cons_ne_nil _ _, rfl⟩
  | @unknown name tail hname =>
    exact ⟨[], tail, by simp [LexError.quoted], by simp [LexError.quoted, hname.1], rfl⟩
  | @noVariables tail =>
    exact ⟨[], tail, by simp [LexError.quoted], by simp [LexError.quoted, variableName], rfl⟩
  | @indexed tail => exact ⟨[], variableName ++ '[' :: tail, rfl, List.cons_ne_nil _ _, rfl⟩
  | bare => exact ⟨[], variableName, rfl, List.cons_ne_nil _ _, rfl⟩
  | @unclosed _ _ index => exact ⟨variableName, '[' :: index, rfl, List.cons_ne_nil _ _, rfl⟩
  | @notDigits _ _ index | @tooLarge _ _ index =>
    exact ⟨variableName ++ ['['], [']'], by simp [LexError.quoted], by simp, rfl⟩

/-- A text that is not empty has bytes. -/
theorem byteLength_pos {cs : List Char} (h : cs ≠ []) : 0 < byteLength cs := by
  obtain ⟨c, cs, rfl⟩ := List.exists_cons_of_ne_nil h
  exact Nat.add_pos_left c.utf8Size_pos _

/-- So it is for the text that the piece stands in. -/
theorem Blames.exists_quoted_append {before : List Char} (h : Blames mode (byteLength before) v e)
    (after : List Char) :
    e.position < byteLength (before ++ v ++ after) ∧
      ∃ front back, before ++ v ++ after = front ++ e.quoted ++ back ∧
        byteLength front = e.position := by
  obtain ⟨front, back, rfl, hne, hposition⟩ := h.exists_quoted
  refine ⟨?_, before ++ front, back ++ after, by simp, ?_⟩
  · have hpos := byteLength_pos hne
    simp only [byteLength_append] at hpos ⊢
    omega
  · rw [byteLength_append, hposition]

/-! ## The first piece that is wrong -/

/-- Where pieces are not read, one of them is wrong, those before it are read, and
with it they are not. -/
theorem exists_error_of_readAll (h : readAll mode previous position pieces = .error e) :
    ∃ before piece after tokens previous',
      pieces = before ++ piece :: after ∧
        readAll mode previous position before = .ok tokens ∧
        readAll mode previous position (before ++ [piece]) = .error e ∧
        piece.read mode previous' (position + byteLength (Lexeme.join before)) = .error e := by
  induction pieces generalizing previous position with
  | nil => cases h
  | cons piece pieces ih =>
    obtain hread | ⟨token, hread, h⟩ := bind_eq_error.1 h
    · refine ⟨[], piece, pieces, [], previous, rfl, rfl, ?_, hread⟩
      exact bind_eq_error.2 (.inl hread)
    obtain hrest | ⟨tokens, -, h⟩ := bind_eq_error.1 h
    · obtain ⟨before, bad, after, tokens, previous', rfl, hbefore, hbad, herror⟩ := ih hrest
      refine ⟨piece :: before, bad, after, token :: tokens, previous', rfl, ?_, ?_, ?_⟩
      · exact bind_eq_ok.2 ⟨token, hread, bind_eq_ok.2 ⟨tokens, hbefore, rfl⟩⟩
      · exact bind_eq_error.2 (.inr ⟨token, hread, bind_eq_error.2 (.inl hbad)⟩)
      · rwa [Lexeme.join, List.flatMap_cons, byteLength_append, ← Nat.add_assoc]
    · cases h

/-- A text that is a normal form is read as it stands. -/
theorem tokenize_ofList (h : ∀ c ∈ cs, Settled c) :
    tokenize mode (String.ofList cs) = tokenizeNormal mode cs := by
  rw [tokenize, String.toList_ofList, normalise_eq_self h]

/-- What is known of a text `cs` in normal form that is refused with `e`: it is
`before`, the piece `v` that is wrong, and `after`.  `before` is cut into longest
pieces in front of what follows, and is read when nothing follows. -/
structure FirstError (mode : VarMode) (cs : List Char) (e : LexError)
    (before v after : List Char) : Prop where
  text : cs = before ++ v ++ after
  ascii : ∀ c ∈ before, c.toNat < 128
  pieces : InPieces (v ++ after) before
  longest : IsLongest v after
  reads : ∃ tokens, tokenize mode (String.ofList before) = .ok tokens
  refuses : tokenize mode (String.ofList (before ++ v)) = .error e
  blames : Blames mode (byteLength before) v e
  position_lt : e.position < byteLength cs
  quoted : ∃ front back, cs = front ++ e.quoted ++ back ∧ byteLength front = e.position

/-- **A text is refused for the first piece that is wrong.**  The text before the
piece is in ASCII, is made of longest pieces and is read by itself; the piece is the
longest that the text goes on with there, and the text up to its end is refused for
the same reason.  The error tells what is wrong with the piece, its place lies in the
text, and the literal, the name, the character or the index it quotes stands at that
place. -/
theorem exists_firstError {mode : VarMode} {text : String} {e : LexError}
    (h : tokenize mode text = .error e) :
    ∃ before v after, FirstError mode (normalise text.toList) e before v after := by
  obtain ⟨before, piece, after, tokens, previous, hsplit, hbefore, hbad, hread⟩ :=
    exists_error_of_readAll h
  rw [Nat.zero_add] at hread
  have hcut := cutsTo_of_split hsplit
  have hblames := blames_of_read hcut hread
  have htext := eq_join_of_split hsplit
  have hsettled : ∀ c ∈ Lexeme.join before ++ piece.text, Settled c := by
    intro c hc
    have hmem : c ∈ normalise text.toList := by
      rw [htext]
      exact List.mem_append_left _ hc
    exact settled_of_mem_normalise hmem
  have hokay : tokenizeNormal mode (Lexeme.join before) = .ok tokens := by
    rw [tokenizeNormal, split_join_of_append hsplit]
    exact hbefore
  have hquoted := hblames.exists_quoted_append (Lexeme.join after)
  rw [← htext] at hquoted
  refine ⟨Lexeme.join before, piece.text, Lexeme.join after, htext,
    (tokenizeNormal_eq_ok_iff.1 hokay).ascii, inPieces_of_split hsplit, hcut.isLongest,
    ⟨tokens, ?_⟩, ?_, hblames, hquoted.1, hquoted.2⟩
  · rw [tokenize_ofList fun c hc => hsettled c (List.mem_append_left _ hc)]
    exact hokay
  · rw [tokenize_ofList hsettled, tokenizeNormal, split_join_append_text hsplit]
    exact hbad

/-- So is it for a text with capital letters, of which one has a lower case that is
longer, in an index. -/
theorem exists_firstError_capitals :
    tokenize (.vector 3 (by decide)) "2 * X[İ] + $" = .error (.invalidIndex "i\u0307" 4) ∧
      ∃ before v after, FirstError (.vector 3 (by decide))
        (normalise "2 * X[İ] + $".toList) (.invalidIndex "i\u0307" 4) before v after := by
  have herror : tokenize (.vector 3 (by decide)) "2 * X[İ] + $" =
      .error (.invalidIndex "i\u0307" 4) := error?_eq_some.1 (by decide +kernel)
  exact ⟨herror, exists_firstError herror⟩

end Formula
