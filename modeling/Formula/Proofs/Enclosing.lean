import Formula.Compiled
import Formula.Proofs.Groups
import Formula.Proofs.Outcome
import Formula.Proofs.Spelled
import Formula.Proofs.Written

/-!
# Formula.Proofs.Enclosing

Texts in parentheses mean what they mean alone.

* `normalise_append` — the normal form of a text put together of parts, where no
  capital sigma looks at its neighbours;
* `LexicalAfter.ascii` — which is so of every text that is read;
* `lexicalAfter_enclosed` — a text in parentheses has its tokens in
  parentheses, however ill formed it is;
* `compile_enclosed` — so it compiles to its own tokens, and under a function, a
  sign or a binary operator to these and the operator after them.
-/

namespace Formula

open Text

/-! ## Texts put together -/

/-- Only a capital sigma has a lower case that depends on its neighbours. -/
theorem lowerFrom_eq_flatMap {cs : List Char} (h : 'Σ' ∉ cs) (before : List Char) :
    lowerFrom before cs = cs.flatMap fun c => lowerChar [] c [] := by
  induction cs generalizing before with
  | nil => rfl
  | cons c cs ih =>
    obtain ⟨hc, hcs⟩ := not_or.1 (mt List.mem_cons.2 h)
    have hne : c ≠ 'Σ' := fun heq => hc heq.symm
    rw [lowerFrom, ih hcs, List.flatMap_cons, lowerChar, lowerChar, if_neg hne, if_neg hne]

/-- The normal form of two texts one after the other. -/
theorem normalise_append {s t : List Char} (hs : 'Σ' ∉ s) (ht : 'Σ' ∉ t) :
    normalise (s ++ t) = normalise s ++ normalise t := by
  have hfilter : ∀ {u : List Char}, 'Σ' ∉ u → 'Σ' ∉ u.filter (! isBlank ·) :=
    fun hu hmem => hu (List.mem_filter.1 hmem).1
  have happend : 'Σ' ∉ s.filter (! isBlank ·) ++ t.filter (! isBlank ·) := by
    rw [List.mem_append, not_or]
    exact ⟨hfilter hs, hfilter ht⟩
  simp only [normalise, lowerCase, List.filter_append]
  rw [lowerFrom_eq_flatMap happend, lowerFrom_eq_flatMap (hfilter hs),
    lowerFrom_eq_flatMap (hfilter ht), List.flatMap_append]

/-- A capital sigma becomes one of the small ones. -/
theorem exists_sigma_of_mem {cs : List Char} (h : 'Σ' ∈ cs) (before : List Char) :
    'ς' ∈ lowerFrom before cs ∨ 'σ' ∈ lowerFrom before cs := by
  induction cs generalizing before with
  | nil => cases h
  | cons c cs ih =>
    rw [lowerFrom, List.mem_append, List.mem_append]
    obtain rfl | hmem := List.mem_cons.1 h
    · have hsigma : lowerChar before 'Σ' cs = ['ς'] ∨ lowerChar before 'Σ' cs = ['σ'] := by
        rw [lowerChar, if_pos rfl]
        split
        · exact .inl rfl
        · exact .inr rfl
      obtain hfinal | hinner := hsigma
      · rw [hfinal]
        exact .inl (.inl List.mem_cons_self)
      · rw [hinner]
        exact .inr (.inl List.mem_cons_self)
    · obtain hfinal | hinner := ih hmem (c :: before)
      · exact .inl (.inr hfinal)
      · exact .inr (.inr hinner)

/-- There is no capital sigma in a text whose normal form is in ASCII. -/
theorem sigma_not_mem_of_ascii {cs : List Char} (h : ∀ c ∈ normalise cs, c.toNat < 128) :
    'Σ' ∉ cs := by
  intro hmem
  have hvisible : 'Σ' ∈ cs.filter (! isBlank ·) := List.mem_filter.2 ⟨hmem, by decide⟩
  obtain hfinal | hinner := exists_sigma_of_mem hvisible []
  · exact absurd (h 'ς' hfinal) (by decide)
  · exact absurd (h 'σ' hinner) (by decide)

/-- Whether the text has the given normal form, and no capital sigma.  Such texts
can be put together. -/
structure NormalForm (text : String) (normal : List Char) : Prop where
  sigma : 'Σ' ∉ text.toList
  normalise_eq : normalise text.toList = normal

theorem NormalForm.append {s t : String} {cs ds : List Char} (hs : NormalForm s cs)
    (ht : NormalForm t ds) : NormalForm (s ++ t) (cs ++ ds) := by
  refine ⟨?_, ?_⟩
  · rw [String.toList_append, List.mem_append, not_or]
    exact ⟨hs.sigma, ht.sigma⟩
  · rw [String.toList_append, normalise_append hs.sigma ht.sigma, hs.normalise_eq,
      ht.normalise_eq]

/-- The text in parentheses. -/
def enclosed (text : String) : String := "(" ++ text ++ ")"

theorem NormalForm.enclosed {text : String} {cs : List Char} (h : NormalForm text cs) :
    NormalForm (enclosed text) ('(' :: (cs ++ [')'])) := by
  have hleft : NormalForm "(" ['('] := ⟨by decide, by decide +kernel⟩
  have hright : NormalForm ")" [')'] := ⟨by decide, by decide +kernel⟩
  exact (hleft.append h).append hright

/-- Names of functions are in normal form. -/
theorem Func.normalForm (f : Func) : NormalForm f.name f.name.toList := by
  cases f <;> exact ⟨by decide, by decide +kernel⟩

/-- Signs are in normal form. -/
theorem Sign.normalForm (s : Sign) : NormalForm (String.singleton s.char) [s.char] := by
  cases s <;> exact ⟨by decide, by decide +kernel⟩

/-- Binary operators are in normal form. -/
theorem BinOp.normalForm (op : BinOp) : NormalForm (String.singleton op.char) [op.char] := by
  cases op <;> exact ⟨by decide, by decide +kernel⟩

/-! ## Spellings -/

variable {mode : VarMode} {previous : Option Token} {token : Token} {u v body rest : List Char}
  {tokens bodyTokens : List Token}

/-- Spellings are in ASCII. -/
theorem Spells.ascii (h : Spells mode v token) : ∀ c ∈ v, c.toNat < 128 := by
  cases h with
  | number h => exact h.ascii
  | func f => exact f.ascii
  | @indexed digits size hne hmode hdigits hsize =>
    simp only [List.forall_mem_cons, List.forall_mem_append]
    exact ⟨by decide, by decide, hdigits.ascii, by decide, by simp⟩
  | _ => exact ascii_of_all (by decide)

/-- Texts that are read are in ASCII. -/
theorem LexicalAfter.ascii (h : LexicalAfter mode u previous rest tokens) :
    ∀ c ∈ rest, c.toNat < 128 := by
  induction h with
  | nil => simp
  | cons hspell _ _ _ ih => exact List.forall_mem_append.2 ⟨hspell.ascii, ih⟩

/-- What has the right kind where an operand is awaited has it wherever one is. -/
theorem Placed.of_awaits {previous' : Option Token} (h : Placed previous' token)
    (hprevious' : awaitsOperand previous' = true) (hprevious : awaitsOperand previous = true) :
    Placed previous token := by
  cases token with
  | sign s => exact hprevious
  | binary op =>
    cases op with
    | add | sub =>
      rw [Placed, hprevious'] at h
      cases h
    | mul | div | pow => trivial
  | _ => trivial

/-- What may stand at the beginning may stand wherever an operand is
awaited. -/
theorem LexicalAfter.of_awaits (h : LexicalAfter mode [] none rest tokens)
    (hawaits : Awaits u previous) : LexicalAfter mode u previous rest tokens := by
  cases h with
  | nil => exact .nil
  | cons hspell _ hplaced hrest =>
    exact .cons hspell (hawaits.separate _) (hplaced.of_awaits rfl hawaits.operand) hrest

/-- What may stand after anything may stand after a text. -/
theorem LexicalAfter.append (h : LexicalAfter mode u previous body bodyTokens)
    (hrest : ∀ w token?, LexicalAfter mode w token? rest tokens) :
    LexicalAfter mode u previous (body ++ rest) (bodyTokens ++ tokens) := by
  induction h with
  | nil => exact hrest _ _
  | cons hspell hseparate hplaced _ ih =>
    rw [List.append_assoc]
    exact .cons hspell hseparate hplaced ih

/-- A text in parentheses may stand after anything, and before what may stand
after an operand. -/
theorem lexicalAfter_enclosed (hbody : Lexical mode body bodyTokens)
    (hrest : GoesOn mode rest tokens) :
    LexicalAfter mode u previous ('(' :: (body ++ ')' :: rest))
      (.leftParen :: (bodyTokens ++ .rightParen :: tokens)) := by
  refine lexicalAfter_group fun hawaits => ?_
  exact (hbody.of_awaits hawaits).append fun _ _ => lexicalAfter_rightParen hrest

/-! ## Whole texts -/

/-- A text that is read has the spellings of its tokens for normal form. -/
theorem exists_normalForm_of_tokenize {text : String} (h : tokenize mode text = .ok tokens) :
    ∃ cs, NormalForm text cs ∧ Lexical mode cs tokens := by
  have hlexical := tokenizeNormal_eq_ok_iff.1 h
  exact ⟨_, ⟨sigma_not_mem_of_ascii hlexical.ascii, rfl⟩, hlexical⟩

/-- A text compiles to the order of the tokens its normal form spells. -/
theorem compile_of_normalForm {text : String} {cs : List Char} {order : List Token}
    (htext : NormalForm text cs) (hlexical : Lexical mode cs tokens)
    (horder : toRpn tokens = .ok order) : compile mode text = .ok ⟨order, mode⟩ := by
  refine compile_eq_ok_iff.2 ⟨tokens, order, ?_, horder, rfl⟩
  rw [tokenize, htext.normalise_eq]
  exact tokenizeNormal_of_lexical hlexical

/-- A text that compiles has a normal form that spells tokens, and these can be
brought into order. -/
theorem exists_normalForm_of_compile {text : String} {c : Compiled}
    (h : compile mode text = .ok c) :
    ∃ cs formula, NormalForm text cs ∧ Lexical mode cs formula ∧
      toRpn formula = .ok c.tokens ∧ c = ⟨c.tokens, mode⟩ := by
  obtain ⟨formula, order, hformula, horder, rfl⟩ := compile_eq_ok_iff.1 h
  obtain ⟨cs, htext, hlexical⟩ := exists_normalForm_of_tokenize hformula
  exact ⟨cs, formula, htext, hlexical, horder, rfl⟩

section

variable {a b : String} {ca cb : Compiled} (ha : compile mode a = .ok ca)
include ha

/-- A text in parentheses compiles to what it compiles to alone. -/
theorem compile_group : compile mode (enclosed a) = .ok ca := by
  obtain ⟨cs, formula, htext, hlexical, horder, hca⟩ := exists_normalForm_of_compile ha
  rw [hca]
  exact compile_of_normalForm htext.enclosed (lexicalAfter_enclosed hlexical goesOn_nil)
    (toRpn_group horder)

/-- A call of a function compiles to its argument and the function. -/
theorem compile_call (f : Func) :
    compile mode (f.name ++ enclosed a) = .ok ⟨ca.tokens ++ [.func f], mode⟩ := by
  obtain ⟨cs, formula, htext, hlexical, horder, -⟩ := exists_normalForm_of_compile ha
  have hcall : Lexical mode (f.name.toList ++ '(' :: (cs ++ [')']))
      (.func f :: .leftParen :: (formula ++ [.rightParen])) :=
    .cons (.func f) (awaits_nil.separate _) trivial (lexicalAfter_enclosed hlexical goesOn_nil)
  exact compile_of_normalForm (f.normalForm.append htext.enclosed) hcall (toRpn_call horder f)

/-- A sign before a text in parentheses is compiled after it. -/
theorem compile_sign (s : Sign) :
    compile mode (String.singleton s.char ++ enclosed a) =
      .ok ⟨ca.tokens ++ [.sign s], mode⟩ := by
  obtain ⟨cs, formula, htext, hlexical, horder, -⟩ := exists_normalForm_of_compile ha
  have hsigned : Lexical mode (s.char :: '(' :: (cs ++ [')']))
      (.sign s :: .leftParen :: (formula ++ [.rightParen])) :=
    lexicalAfter_sign s awaits_nil fun _ => lexicalAfter_enclosed hlexical goesOn_nil
  exact compile_of_normalForm (s.normalForm.append htext.enclosed) hsigned (toRpn_sign horder s)

/-- A binary operator between two texts in parentheses is compiled after
both. -/
theorem compile_binary (hb : compile mode b = .ok cb) (op : BinOp) :
    compile mode (enclosed a ++ String.singleton op.char ++ enclosed b) =
      .ok ⟨ca.tokens ++ cb.tokens ++ [.binary op], mode⟩ := by
  obtain ⟨cs, formula, htext, hlexical, horder, -⟩ := exists_normalForm_of_compile ha
  obtain ⟨ds, formula', htext', hlexical', horder', -⟩ := exists_normalForm_of_compile hb
  have hnormal : NormalForm (enclosed a ++ String.singleton op.char ++ enclosed b)
      ('(' :: (cs ++ ')' :: op.char :: '(' :: (ds ++ [')']))) := by
    simpa using (htext.enclosed.append op.normalForm).append htext'.enclosed
  have hboth : Lexical mode ('(' :: (cs ++ ')' :: op.char :: '(' :: (ds ++ [')'])))
      (.leftParen :: (formula ++ .rightParen :: .binary op ::
        .leftParen :: (formula' ++ [.rightParen]))) :=
    lexicalAfter_enclosed hlexical
      (.binary op fun _ => lexicalAfter_enclosed hlexical' goesOn_nil)
  exact compile_of_normalForm hnormal hboth (by simpa using toRpn_binary horder op horder')

end

/-- **Parentheses change nothing, and what stands outside them comes last.**  A
text that compiles, well formed or not, compiles in parentheses to what it
compiles to alone; a function, a sign or a binary operator outside the
parentheses comes after what is inside them. -/
theorem compile_enclosed {mode : VarMode} {a b : String} {ca cb : Compiled}
    (ha : compile mode a = .ok ca) (hb : compile mode b = .ok cb) :
    compile mode (enclosed a) = .ok ca ∧
    (∀ f : Func,
      compile mode (f.name ++ enclosed a) = .ok ⟨ca.tokens ++ [.func f], mode⟩) ∧
    (∀ s : Sign,
      compile mode (String.singleton s.char ++ enclosed a) =
        .ok ⟨ca.tokens ++ [.sign s], mode⟩) ∧
    (∀ op : BinOp,
      compile mode (enclosed a ++ String.singleton op.char ++ enclosed b) =
        .ok ⟨ca.tokens ++ cb.tokens ++ [.binary op], mode⟩) :=
  ⟨compile_group ha, compile_call ha, compile_sign ha, compile_binary ha hb⟩

/-- An operator without a right operand, and a function without an argument. -/
theorem compile_enclosed_unfinished :
    compile .scalar "X -" = .ok ⟨[.var 0, .binary .sub], .scalar⟩ ∧
    compile .scalar "sin" = .ok ⟨[.func .sin], .scalar⟩ ∧
    compile .scalar (enclosed "X -") = .ok ⟨[.var 0, .binary .sub], .scalar⟩ ∧
    (∀ f : Func,
      compile .scalar (f.name ++ enclosed "X -") =
        .ok ⟨[.var 0, .binary .sub, .func f], .scalar⟩) ∧
    (∀ s : Sign,
      compile .scalar (String.singleton s.char ++ enclosed "X -") =
        .ok ⟨[.var 0, .binary .sub, .sign s], .scalar⟩) ∧
    (∀ op : BinOp,
      compile .scalar (enclosed "X -" ++ String.singleton op.char ++ enclosed "sin") =
        .ok ⟨[.var 0, .binary .sub, .func .sin, .binary op], .scalar⟩) := by
  have ha : compile .scalar "X -" = .ok ⟨[.var 0, .binary .sub], .scalar⟩ :=
    toOption_eq_some.1 (by decide +kernel)
  have hb : compile .scalar "sin" = .ok ⟨[.func .sin], .scalar⟩ :=
    toOption_eq_some.1 (by decide +kernel)
  exact ⟨ha, hb, compile_enclosed ha hb⟩

end Formula
