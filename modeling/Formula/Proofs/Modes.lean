import Formula.Proofs.Contents
import Formula.Proofs.Subscripts
import Formula.Proofs.Variables

/-!
# Formula.Proofs.Modes

One text in several modes.  The mode says which variables are read, and nothing
else: a text is cut alike in all of them, and what is no variable is read alike.

* `isVariable_of_read` — a piece that one mode reads and another refuses is a
  variable;
* `readAll_agree`, `readAll_or_refused` — two modes that read the same pieces read
  the same tokens, and a mode that does not read what another reads refuses the
  first variable it does not allow;
* `OrderedByMode` — how the outcomes of a text in the modes are related;
* `modes_ordered` — so are its tokens, and so is their order.
-/

namespace Formula

open Text

variable {mode mode' : VarMode} {previous previous' : Option Token} {position : Nat}
  {token token' : Token} {tokens tokens' : List Token} {e : LexError} {piece : Lexeme}
  {pieces : List Lexeme} {subscript? : Option Subscript}

/-! ## One piece in two modes -/

/-- A variable is read as such. -/
theorem exists_var_of_readVariable {bracket : Nat}
    (h : readVariable mode subscript? position bracket = .ok token) :
    ∃ index, token = .var index := by
  cases mode with
  | constant => cases h
  | scalar =>
    cases subscript? with
    | none =>
      cases h
      exact ⟨0, rfl⟩
    | some s => cases h
  | vector size hsize =>
    cases subscript? with
    | none => cases h
    | some s =>
      obtain ⟨-, -, -, rfl⟩ := readIndex_eq_ok_iff.1 h
      exact ⟨_, rfl⟩

/-- Where two modes read a variable, it is the same one. -/
theorem readVariable_agree {bracket : Nat}
    (h : readVariable mode subscript? position bracket = .ok token)
    (h' : readVariable mode' subscript? position bracket = .ok token') : token' = token := by
  cases mode with
  | constant => cases h
  | scalar =>
    cases subscript? with
    | some s => cases h
    | none =>
      cases mode' with
      | scalar => exact (Except.ok.inj h').symm.trans (Except.ok.inj h)
      | constant | vector => cases h'
  | vector size hsize =>
    cases subscript? with
    | none => cases h
    | some s =>
      cases mode' with
      | constant | scalar => cases h'
      | vector size' hsize' =>
        obtain ⟨-, -, -, rfl⟩ := readIndex_eq_ok_iff.1 h
        obtain ⟨-, -, -, rfl⟩ := readIndex_eq_ok_iff.1 h'
        rfl

/-- The one variable `x` and a variable with an index are not spelled alike. -/
theorem readVariable_scalar_ne_vector {bracket : Nat} {size : UInt64} {hsize : size ≠ 0}
    (h : readVariable .scalar subscript? position bracket = .ok token) :
    readVariable (.vector size hsize) subscript? position bracket ≠ .ok token' := by
  cases subscript? with
  | none => exact fun h' => nomatch h'
  | some s => cases h

/-- A piece that is no variable is read alike in all modes. -/
theorem read_eq_or_isVariable (piece : Lexeme) :
    (∀ mode mode' previous position,
      piece.read mode previous position = piece.read mode' previous position) ∨
    ∃ subscript?, piece = .word variableName subscript? := by
  cases piece with
  | word name subscript? =>
    by_cases hname : name = variableName
    · exact .inr ⟨subscript?, by rw [hname]⟩
    · refine .inl fun mode mode' previous position => ?_
      simp only [Lexeme.read, readWord, if_neg hname]
  | numeral literal => exact .inl fun _ _ _ _ => rfl
  | symbol s => exact .inl fun _ _ _ _ => rfl
  | unknown c => exact .inl fun _ _ _ _ => rfl

/-- Where two modes read a piece, it is the same token. -/
theorem read_agree (h : piece.read mode previous position = .ok token)
    (h' : piece.read mode' previous position = .ok token') : token' = token := by
  obtain halike | ⟨subscript?, rfl⟩ := read_eq_or_isVariable piece
  · rw [halike mode' mode, h] at h'
    exact (Except.ok.inj h').symm
  · rw [Lexeme.read, readWord_variableName] at h h'
    exact readVariable_agree h h'

/-- A piece is read whatever stands before it, if it is read at all. -/
theorem read_ne_error (h : piece.read mode previous position = .ok token) :
    piece.read mode previous' position ≠ .error e := by
  cases piece with
  | symbol s => exact fun h' => nomatch h'
  | word name subscript? | numeral literal | unknown c =>
    intro h'
    cases h.symm.trans h'

/-- A piece that one mode reads and another refuses is a variable. -/
theorem isVariable_of_read (h : piece.read mode previous position = .ok token)
    (h' : piece.read mode' previous' position = .error e) :
    ∃ subscript?, piece = .word variableName subscript? := by
  obtain halike | hvariable := read_eq_or_isVariable piece
  · rw [halike mode' mode] at h'
    exact absurd h' (read_ne_error h)
  · exact hvariable

/-! ## Pieces in two modes -/

/-- Where two modes read the same pieces, they read the same tokens. -/
theorem readAll_agree (h : readAll mode previous position pieces = .ok tokens)
    (h' : readAll mode' previous position pieces = .ok tokens') : tokens' = tokens := by
  induction pieces generalizing previous position tokens tokens' with
  | nil =>
    cases h
    cases h'
    rfl
  | cons piece pieces ih =>
    obtain ⟨token, hread, h⟩ := bind_eq_ok.1 h
    obtain ⟨rest, hrest, h⟩ := bind_eq_ok.1 h
    obtain ⟨token', hread', h'⟩ := bind_eq_ok.1 h'
    obtain ⟨rest', hrest', h'⟩ := bind_eq_ok.1 h'
    obtain rfl := read_agree hread hread'
    obtain rfl := ih hrest hrest'
    cases h
    cases h'
    rfl

/-- Where pieces are read, so is each of them, after those before it. -/
theorem exists_read_of_readAll {before after : List Lexeme}
    (h : readAll mode previous position (before ++ piece :: after) = .ok tokens) :
    ∃ front token rest previous',
      tokens = front ++ token :: rest ∧
        readAll mode previous position before = .ok front ∧
        piece.read mode previous' (position + byteLength (Lexeme.join before)) = .ok token := by
  induction before generalizing previous position tokens with
  | nil =>
    obtain ⟨token, hread, h⟩ := bind_eq_ok.1 h
    obtain ⟨rest, -, h⟩ := bind_eq_ok.1 h
    cases h
    exact ⟨[], token, rest, previous, rfl, rfl, hread⟩
  | cons first before ih =>
    obtain ⟨token, hread, h⟩ := bind_eq_ok.1 h
    obtain ⟨tokens, htokens, h⟩ := bind_eq_ok.1 h
    cases h
    obtain ⟨front, here, rest, previous', rfl, hfront, hhere⟩ := ih htokens
    refine ⟨token :: front, here, rest, previous', rfl, ?_, ?_⟩
    · exact bind_eq_ok.2 ⟨token, hread, bind_eq_ok.2 ⟨front, hfront, rfl⟩⟩
    · rwa [Lexeme.join, List.flatMap_cons, byteLength_append, ← Nat.add_assoc]

/-- What is known of pieces that one mode reads as `tokens` and another refuses with
`e`: they are `before`, which the other reads as `front` too, a variable that is `token`
in the one and refused in the other, and `after`. -/
structure FirstRefused (mode mode' : VarMode) (pieces : List Lexeme) (tokens : List Token)
    (e : LexError) (before : List Lexeme) (subscript? : Option Subscript) (after : List Lexeme)
    (front : List Token) (token : Token) (rest : List Token) : Prop where
  pieces_eq : pieces = before ++ .word variableName subscript? :: after
  tokens_eq : tokens = front ++ token :: rest
  before_reads : readAll mode' none 0 before = .ok front
  reads : readVariable mode subscript? (byteLength (Lexeme.join before))
    (byteLength (Lexeme.join before) + 1) = .ok token
  refuses : readVariable mode' subscript? (byteLength (Lexeme.join before))
    (byteLength (Lexeme.join before) + 1) = .error e

/-- Pieces that one mode reads are read as the same tokens in another, or refused for
the first variable that is refused there. -/
theorem readAll_or_refused (h : readAll mode none 0 pieces = .ok tokens) (mode' : VarMode) :
    readAll mode' none 0 pieces = .ok tokens ∨
    ∃ e, readAll mode' none 0 pieces = .error e ∧
      ∃ before subscript? after front token rest,
        FirstRefused mode mode' pieces tokens e before subscript? after front token rest := by
  cases h' : readAll mode' none 0 pieces with
  | ok tokens' => exact .inl (by rw [readAll_agree h h'])
  | error e =>
    obtain ⟨before, piece, after, front', previous', rfl, hbefore, -, hbad⟩ :=
      exists_error_of_readAll h'
    obtain ⟨front, token, rest, previous, rfl, hfront, hread⟩ := exists_read_of_readAll h
    obtain ⟨subscript?, rfl⟩ := isVariable_of_read hread hbad
    -- What stands before the variable is read by both, so both know the same tokens there.
    obtain rfl := readAll_agree hbefore hfront
    rw [Lexeme.read, readWord_variableName, Nat.zero_add] at hread hbad
    exact .inr ⟨e, rfl, before, subscript?, after, front, token, rest, rfl, rfl, hbefore, hread,
      hbad⟩

/-! ## Texts in two modes -/

section

open Compiled

variable {text : String} {size size' : UInt64} {hsize : size ≠ 0} {hsize' : size' ≠ 0}

/-- In the mode without variables no text has any. -/
theorem indices_of_tokenize_constant (h : tokenize .constant text = .ok tokens) :
    indices tokens = [] :=
  List.eq_nil_iff_forall_not_mem.2 fun _ hmem =>
    absurd (var_lt_of_tokenize h (mem_indices.1 hmem)) (Nat.not_lt_zero _)

/-- A text that is read without variables is read alike in every mode. -/
theorem tokenize_of_constant (h : tokenize .constant text = .ok tokens) (mode : VarMode) :
    tokenize mode text = .ok tokens := by
  obtain h | ⟨e, -, before, subscript?, after, front, token, rest, hfirst⟩ :=
    readAll_or_refused h mode
  · exact h
  · cases hfirst.reads

/-- A text that has no variables is read without them. -/
theorem tokenize_constant (h : tokenize mode text = .ok tokens) (hnone : indices tokens = []) :
    tokenize .constant text = .ok tokens := by
  obtain h | ⟨e, -, before, subscript?, after, front, token, rest, hfirst⟩ :=
    readAll_or_refused h .constant
  · exact h
  · obtain ⟨index, rfl⟩ := exists_var_of_readVariable hfirst.reads
    simp [hfirst.tokens_eq] at hnone

/-- A text that is read with the one variable `x` and with indices has no variables. -/
theorem tokenize_scalar_vector (h : tokenize .scalar text = .ok tokens)
    (h' : tokenize (.vector size hsize) text = .ok tokens') :
    indices tokens = [] ∧ tokens' = tokens := by
  refine ⟨?_, readAll_agree h h'⟩
  obtain h | ⟨e, -, before, subscript?, after, front, token, rest, hfirst⟩ :=
    readAll_or_refused h .constant
  · exact indices_of_tokenize_constant h
  · -- A variable that `x` alone spells would have to be read with an index as well.
    rw [tokenize, tokenizeNormal, hfirst.pieces_eq] at h'
    obtain ⟨front', token', rest', previous, -, -, hread⟩ := exists_read_of_readAll h'
    rw [Lexeme.read, readWord_variableName, Nat.zero_add] at hread
    exact absurd hread (readVariable_scalar_ne_vector hfirst.reads)

/-- A variable that one dimension allows and another does not has digits for its index,
and their number is not below the other dimension. -/
theorem readVariable_beyond {bracket : Nat}
    (h : readVariable (.vector size hsize) subscript? position bracket = .ok token)
    (h' : readVariable (.vector size' hsize') subscript? position bracket = .error e) :
    ∃ digits, subscript? = some ⟨digits, true⟩ ∧ IsDigits digits ∧
      token = .var (Nat.ofDigitChars 10 digits 0) ∧
      size'.toNat ≤ Nat.ofDigitChars 10 digits 0 ∧
      e = .indexOutOfRange (String.ofList digits) size'.toNat (bracket + 1) := by
  cases subscript? with
  | none => cases h
  | some s =>
    obtain ⟨digits, closed⟩ := s
    obtain ⟨rfl, hdigits, -, rfl⟩ := readIndex_eq_ok_iff.1 h
    rw [readVariable, readIndex_eq hdigits] at h'
    split at h'
    · cases h'
    · rename_i hlarge
      cases h'
      exact ⟨digits, rfl, hdigits, rfl, Nat.le_of_not_lt hlarge, rfl⟩

/-- What is known of the first variable of a text, read as `tokens`, whose index is not
below the dimension: the text is `before`, the variable, whose index is written with
`digits`, and `after`.  The variables before it are those of the tokens of `before`, and
the dimension allows them all. -/
structure FirstBeyond (size : UInt64) (hsize : size ≠ 0) (text : String) (tokens : List Token)
    (before digits after : List Char) : Prop where
  text_eq : normalise text.toList = before ++ variableName ++ '[' :: (digits ++ ']' :: after)
  isDigits : IsDigits digits
  large : size.toNat ≤ Nat.ofDigitChars 10 digits 0
  first : ∃ front rest, tokenize (.vector size hsize) (String.ofList before) = .ok front ∧
    indices tokens = indices front ++ Nat.ofDigitChars 10 digits 0 :: rest ∧
    ∀ index ∈ indices front, index < size.toNat

/-- A text that is read in one dimension is read alike in another, or refused for the
first variable that is not below it. -/
theorem tokenize_vector_or_beyond (h : tokenize (.vector size hsize) text = .ok tokens)
    (size' : UInt64) (hsize' : size' ≠ 0) :
    tokenize (.vector size' hsize') text = .ok tokens ∨
    ∃ before digits after, FirstBeyond size' hsize' text tokens before digits after ∧
      tokenize (.vector size' hsize') text =
        .error (.indexOutOfRange (String.ofList digits) size'.toNat (byteLength before + 2)) := by
  obtain h | ⟨e, hrefused, before, subscript?, after, front, token, rest, hfirst⟩ :=
    readAll_or_refused h (.vector size' hsize')
  · exact .inl h
  obtain ⟨digits, rfl, hdigits, rfl, hlarge, rfl⟩ :=
    readVariable_beyond hfirst.reads hfirst.refuses
  have htext := eq_join_of_split hfirst.pieces_eq
  have hsettled : ∀ c ∈ Lexeme.join before, Settled c := by
    intro c hc
    have hmem : c ∈ normalise text.toList := by
      rw [htext, List.append_assoc]
      exact List.mem_append_left _ hc
    exact settled_of_mem_normalise hmem
  have hfront : tokenize (.vector size' hsize') (String.ofList (Lexeme.join before)) =
      .ok front := by
    rw [tokenize_ofList hsettled, tokenizeNormal, split_join_of_append hfirst.pieces_eq]
    exact hfirst.before_reads
  refine .inr ⟨Lexeme.join before, digits, Lexeme.join after,
    ⟨?_, hdigits, hlarge, front, indices rest, hfront, ?_, ?_⟩, hrefused⟩
  · simpa [Lexeme.text, Subscript.text] using htext
  · rw [hfirst.tokens_eq, indices_append, indices_cons_var]
  · exact fun index hmem => var_lt_of_tokenize hfront (mem_indices.1 hmem)

/-! ## Texts in all modes -/

/-- Ordering tokens keeps the indices of their variables, and which comes first. -/
theorem indices_of_toRpn {out : List Token} (h : toRpn tokens = .ok out) :
    indices out = indices tokens := by
  have hpasses : ∀ tokens : List Token, indices (tokens.filter Token.passes) = indices tokens := by
    intro tokens
    rw [indices, List.filterMap_filter]
    refine congrArg (List.filterMap · tokens) (funext fun token => ?_)
    cases token <;> rfl
  obtain ⟨first, held, hrun, -, rfl⟩ := Rpn.toRpn_eq_ok_iff.1 h
  obtain ⟨hwait, -, hfirst⟩ := Rpn.conserves_of_run (by simp [Rpn.AllWait]) hrun
  have hheld : indices (held.map (·.token)) = [] := by
    refine List.filterMap_eq_nil_iff.2 (List.forall_mem_map.2 fun x hx => ?_)
    have hwaits := hwait x hx
    cases hx : x.token <;> simp_all [Token.waits]
  rw [indices_append, hheld, List.append_nil, ← hpasses first, hfirst, hpasses tokens]

/-- What a text is read as in each mode, related: `read` gives the outcome in a mode, and
`refuse` what it makes of an error. -/
structure OrderedByMode {ε : Type} (text : String) (refuse : LexError → ε)
    (read : VarMode → Except ε (List Token)) : Prop where
  of_constant : ∀ tokens, read .constant = .ok tokens → ∀ mode, read mode = .ok tokens
  to_constant : ∀ mode tokens, read mode = .ok tokens → indices tokens = [] →
    read .constant = .ok tokens
  scalar_vector : ∀ size hsize tokens tokens', read .scalar = .ok tokens →
    read (.vector size hsize) = .ok tokens' → indices tokens = [] ∧ tokens' = tokens
  within : ∀ size hsize size' hsize' tokens, read (.vector size hsize) = .ok tokens →
    (∀ index ∈ indices tokens, index < size'.toNat) → read (.vector size' hsize') = .ok tokens
  beyond : ∀ size hsize size' hsize' tokens, read (.vector size hsize) = .ok tokens →
    (∃ index ∈ indices tokens, size'.toNat ≤ index) →
      ∃ before digits after, FirstBeyond size' hsize' text tokens before digits after ∧
        read (.vector size' hsize') = .error (refuse
          (.indexOutOfRange (String.ofList digits) size'.toNat (byteLength before + 2)))

/-- The tokens of a text in the modes are ordered. -/
theorem orderedByMode_tokenize (text : String) :
    OrderedByMode text id (tokenize · text) where
  of_constant _ h mode := tokenize_of_constant h mode
  to_constant _ _ h hnone := tokenize_constant h hnone
  scalar_vector _ _ _ _ h h' := tokenize_scalar_vector h h'
  within size hsize size' hsize' tokens h hbelow := by
    obtain h | ⟨before, digits, after, hbeyond, -⟩ := tokenize_vector_or_beyond h size' hsize'
    · exact h
    · obtain ⟨front, rest, -, hindices, -⟩ := hbeyond.first
      have hlt := hbelow _ (hindices ▸ List.mem_append_right _ List.mem_cons_self)
      exact absurd hbeyond.large (Nat.not_le.2 hlt)
  beyond size hsize size' hsize' tokens h hlarge := by
    obtain h | hbeyond := tokenize_vector_or_beyond h size' hsize'
    · obtain ⟨index, hmem, hle⟩ := hlarge
      exact absurd (var_lt_of_tokenize h (mem_indices.1 hmem)) (Nat.not_lt.2 hle)
    · exact hbeyond

/-- A text compiles to the order of its tokens. -/
theorem map_compile_eq_ok_iff {out : List Token} :
    (compile mode text).map Compiled.tokens = .ok out ↔
      ∃ formula, tokenize mode text = .ok formula ∧ toRpn formula = .ok out := by
  simp only [map_eq_ok, compile_eq_ok_iff]
  constructor
  · rintro ⟨c, ⟨formula, tokens, hformula, htokens, rfl⟩, rfl⟩
    exact ⟨formula, hformula, htokens⟩
  · rintro ⟨formula, hformula, hout⟩
    exact ⟨⟨out, mode⟩, ⟨formula, out, hformula, hout, rfl⟩, rfl⟩

/-- So is the order of its tokens. -/
theorem orderedByMode_compile (text : String) :
    OrderedByMode text .lex fun mode => (compile mode text).map Compiled.tokens where
  of_constant out h mode := by
    obtain ⟨formula, hformula, hout⟩ := map_compile_eq_ok_iff.1 h
    exact map_compile_eq_ok_iff.2 ⟨formula, tokenize_of_constant hformula mode, hout⟩
  to_constant mode out h hnone := by
    obtain ⟨formula, hformula, hout⟩ := map_compile_eq_ok_iff.1 h
    rw [indices_of_toRpn hout] at hnone
    exact map_compile_eq_ok_iff.2 ⟨formula, tokenize_constant hformula hnone, hout⟩
  scalar_vector size hsize out out' h h' := by
    obtain ⟨formula, hformula, hout⟩ := map_compile_eq_ok_iff.1 h
    obtain ⟨formula', hformula', hout'⟩ := map_compile_eq_ok_iff.1 h'
    obtain ⟨hnone, rfl⟩ := tokenize_scalar_vector hformula hformula'
    rw [indices_of_toRpn hout]
    exact ⟨hnone, Except.ok.inj (hout'.symm.trans hout)⟩
  within size hsize size' hsize' out h hbelow := by
    obtain ⟨formula, hformula, hout⟩ := map_compile_eq_ok_iff.1 h
    rw [indices_of_toRpn hout] at hbelow
    have hformula' := (orderedByMode_tokenize text).within _ _ _ hsize' _ hformula hbelow
    exact map_compile_eq_ok_iff.2 ⟨formula, hformula', hout⟩
  beyond size hsize size' hsize' out h hlarge := by
    obtain ⟨formula, hformula, hout⟩ := map_compile_eq_ok_iff.1 h
    have hindices := indices_of_toRpn hout
    rw [hindices] at hlarge
    obtain ⟨before, digits, after, hbeyond, herror⟩ :=
      (orderedByMode_tokenize text).beyond _ _ _ hsize' _ hformula hlarge
    refine ⟨before, digits, after, { hbeyond with first := hindices ▸ hbeyond.first }, ?_⟩
    rw [map_eq_error, compile_eq, herror]
    rfl

/-- **The modes differ in the variables they allow and in nothing else.**  A text without
variables is read alike in every mode, and a text that is read both with the one variable
`x` and with indices has none.  A text that is read in one dimension is read alike in
every other that its variables are below; in a smaller one it is refused for the first of
its variables that is not, by its index as it is written.  So are the tokens of a text
related, and their order. -/
theorem modes_ordered (text : String) :
    OrderedByMode text id (tokenize · text) ∧
      OrderedByMode text .lex fun mode => (compile mode text).map Compiled.tokens :=
  ⟨orderedByMode_tokenize text, orderedByMode_compile text⟩

/-- Two variables, of which the second is too large for three dimensions. -/
theorem modes_ordered_smaller :
    (compile (.vector 8 (by decide)) "x[0] - X[007]").map Compiled.tokens =
        .ok [.var 0, .var 7, .binary .sub] ∧
      (compile (.vector 9 (by decide)) "x[0] - X[007]").map Compiled.tokens =
        .ok [.var 0, .var 7, .binary .sub] ∧
      ∃ before digits after,
        FirstBeyond 3 (by decide) "x[0] - X[007]" [.var 0, .var 7, .binary .sub]
            before digits after ∧
          (compile (.vector 3 (by decide)) "x[0] - X[007]").map Compiled.tokens =
            .error (.lex (.indexOutOfRange (String.ofList digits) 3 (byteLength before + 2))) := by
  have hread : (compile (.vector 8 (by decide)) "x[0] - X[007]").map Compiled.tokens =
      .ok [.var 0, .var 7, .binary .sub] := toOption_eq_some.1 (by decide +kernel)
  have hmodes := (modes_ordered "x[0] - X[007]").2
  exact ⟨hread, hmodes.within 8 (by decide) 9 (by decide) _ hread (by decide),
    hmodes.beyond 8 (by decide) 3 (by decide) _ hread (by decide)⟩

end

end Formula
