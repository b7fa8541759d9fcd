import Formula.Grammar.Basic

/-!
# Formula.Proofs.Sentences

The sentences of the grammar, told by their tokens one after the other.

A token may stand where the token before it asks for it: at an operand or in
front of one, or behind an operand.  `Alternates` says that every token of a
list stands in such a place and that the parentheses of the list match, and

* `derives_of_alternates` — such a list is a sentence;
* `alternates_of_expr?` — every sentence is such a list;
* `isSentence_iff_alternates` — both.
-/

namespace Formula

/-! ## Sentences -/

/-- Whether tokens are a formula of the level that means an expression. -/
def Derives (l : Level) (tokens : List Token) : Prop :=
  ∃ (p : Phrase Operand l) (t : Expr), p.expr? = some t ∧ p.tokens = tokens

/-- Whether tokens are a sentence of the grammar without calls of several
arguments. -/
def IsSentence (tokens : List Token) : Prop := Derives .sum tokens

namespace Derives

variable {s u : List Token}

/-! ### The rules of the grammar -/

theorem operand (a : Operand) : Derives .primary [a.token] :=
  ⟨.operand a, a.expr, rfl, rfl⟩

theorem group (h : Derives .sum s) : Derives .primary (.leftParen :: (s ++ [.rightParen])) := by
  obtain ⟨p, t, ht, rfl⟩ := h
  exact ⟨.group p, t, ht, rfl⟩

theorem apply (f : Func) (h : Derives .primary s) : Derives .primary (.func f :: s) := by
  obtain ⟨p, t, ht, rfl⟩ := h
  exact ⟨.apply f p, .apply f t, Phrase.one_eq_some_iff.2 ⟨t, ht, rfl⟩, rfl⟩

theorem ofPrimary (h : Derives .primary s) : Derives .factor s := by
  obtain ⟨p, t, ht, rfl⟩ := h
  exact ⟨.ofPrimary p, t, ht, rfl⟩

theorem power (hs : Derives .primary s) (hu : Derives .factor u) :
    Derives .factor (s ++ .binary .pow :: u) := by
  obtain ⟨p, t, ht, rfl⟩ := hs
  obtain ⟨q, v, hv, rfl⟩ := hu
  exact ⟨.power p q, .binary .pow t v, Phrase.two_eq_some_iff.2 ⟨t, v, ht, hv, rfl⟩, rfl⟩

theorem sign (g : Sign) (h : Derives .factor s) : Derives .factor (.sign g :: s) := by
  obtain ⟨p, t, ht, rfl⟩ := h
  exact ⟨.sign g p, .sign g t, Phrase.one_eq_some_iff.2 ⟨t, ht, rfl⟩, rfl⟩

theorem ofFactor (h : Derives .factor s) : Derives .term s := by
  obtain ⟨p, t, ht, rfl⟩ := h
  exact ⟨.ofFactor p, t, ht, rfl⟩

theorem product (hs : Derives .term s) (op : ProductOp) (hu : Derives .factor u) :
    Derives .term (s ++ .binary op.op :: u) := by
  obtain ⟨p, t, ht, rfl⟩ := hs
  obtain ⟨q, v, hv, rfl⟩ := hu
  exact ⟨.product p op q, .binary op.op t v, Phrase.two_eq_some_iff.2 ⟨t, v, ht, hv, rfl⟩, rfl⟩

theorem ofTerm (h : Derives .term s) : Derives .sum s := by
  obtain ⟨p, t, ht, rfl⟩ := h
  exact ⟨.ofTerm p, t, ht, rfl⟩

theorem sum (hs : Derives .sum s) (op : SumOp) (hu : Derives .term u) :
    Derives .sum (s ++ .binary op.op :: u) := by
  obtain ⟨p, t, ht, rfl⟩ := hs
  obtain ⟨q, v, hv, rfl⟩ := hu
  exact ⟨.sum p op q, .binary op.op t v, Phrase.two_eq_some_iff.2 ⟨t, v, ht, hv, rfl⟩, rfl⟩

/-! ### What may stand before a term or a sum -/

/-- What makes a term of every factor makes a term of every term: it goes into
the first of the factors. -/
theorem prepend_term (hfactor : ∀ {s}, Derives .factor s → Derives .term (u ++ s))
    (h : Derives .term s) : Derives .term (u ++ s) := by
  obtain ⟨p, t, ht, rfl⟩ := h
  -- The level is an index of the phrase, and an induction needs it to be a variable.
  generalize hl : Level.term = l at p
  induction p generalizing t with
  | ofFactor p => exact hfactor ⟨p, t, ht, rfl⟩
  | product lhs op rhs ihl ihr =>
    obtain ⟨v, w, hv, hw, -⟩ := Phrase.two_eq_some_iff.1 ht
    have hlhs := ihl v rfl hv
    rw [Phrase.tokens, ← List.append_assoc]
    exact hlhs.product op ⟨rhs, w, hw, rfl⟩
  | _ => cases hl

/-- What makes a sum of every term makes a sum of every sum: it goes into the
first of the terms. -/
theorem prepend_sum (hterm : ∀ {s}, Derives .term s → Derives .sum (u ++ s))
    (h : Derives .sum s) : Derives .sum (u ++ s) := by
  obtain ⟨p, t, ht, rfl⟩ := h
  generalize hl : Level.sum = l at p
  induction p generalizing t with
  | ofTerm p => exact hterm ⟨p, t, ht, rfl⟩
  | sum lhs op rhs ihl ihr =>
    obtain ⟨v, w, hv, hw, -⟩ := Phrase.two_eq_some_iff.1 ht
    have hlhs := ihl v rfl hv
    rw [Phrase.tokens, ← List.append_assoc]
    exact hlhs.sum op ⟨rhs, w, hw, rfl⟩
  | _ => cases hl

/-- What makes a term of every factor makes a sum of every sum. -/
theorem prepend_sum_of_factor (hfactor : ∀ {s}, Derives .factor s → Derives .term (u ++ s))
    (h : Derives .sum s) : Derives .sum (u ++ s) := by
  refine prepend_sum (fun hterm => ?_) h
  exact (prepend_term hfactor hterm).ofTerm

/-- A sign before a sum is that of its first factor. -/
theorem sign_sum (g : Sign) (h : Derives .sum s) : Derives .sum (.sign g :: s) := by
  have hfactor : ∀ {s}, Derives .factor s → Derives .term ([.sign g] ++ s) :=
    fun h => (h.sign g).ofFactor
  exact prepend_sum_of_factor hfactor h

/-- A primary and an operator before a sum go into its first term, or into the
first factor of it. -/
theorem binary_sum (hs : Derives .primary s) (op : BinOp) (hu : Derives .sum u) :
    Derives .sum (s ++ .binary op :: u) := by
  have hsum : ∀ op : SumOp, Derives .sum (s ++ [.binary op.op] ++ u) := by
    intro op
    refine prepend_sum (fun h => ?_) hu
    rw [← List.append_cons]
    exact hs.ofPrimary.ofFactor.ofTerm.sum op h
  have hproduct : ∀ op : ProductOp, Derives .sum (s ++ [.binary op.op] ++ u) := by
    intro op
    refine prepend_sum_of_factor (fun h => ?_) hu
    rw [← List.append_cons]
    exact hs.ofPrimary.ofFactor.product op h
  have hpower : Derives .sum (s ++ [.binary .pow] ++ u) := by
    refine prepend_sum_of_factor (fun h => ?_) hu
    rw [← List.append_cons]
    exact (hs.power h).ofFactor
  rw [List.append_cons]
  cases op with
  | add => exact hsum .add
  | sub => exact hsum .sub
  | mul => exact hproduct .mul
  | div => exact hproduct .div
  | pow => exact hpower

end Derives

/-! ## Places -/

/-- What is asked for at a place: a formula in front of which a sign may stand,
a primary after a function, or an operator after an operand. -/
inductive Place
  | formula | primary | operator
  deriving DecidableEq

/-- Whether an operand may end with the token. -/
def Token.endsOperand : Token → Bool
  | number _ | var _ | rightParen => true
  | func _ | binary _ | sign _ | leftParen | comma => false

/-- Whether an operand may begin with the token, a sign before it included. -/
def Token.beginsOperand : Token → Bool
  | number _ | var _ | func _ | sign _ | leftParen => true
  | binary _ | rightParen | comma => false

namespace Place

/-- The place after a token. -/
def after : Token → Place
  | .number _ | .var _ | .rightParen => operator
  | .func _ => primary
  | .binary _ | .sign _ | .leftParen | .comma => formula

/-- Whether a token may stand at a place. -/
def admits : Place → Token → Bool
  | formula, token => token.beginsOperand
  | primary, token => token.beginsOperand && ! token.isOperator
  | operator, .binary _ | operator, .rightParen => true
  | operator, _ => false

end Place

/-- Whether every token of a list stands at a place that admits it, the first
at `place`, and the list closes the `depth` parentheses that are open before
it and those that it opens. -/
inductive Alternates : Place → Nat → List Token → Prop
  | nil : Alternates .operator 0 []
  | leftParen (hplace : place.admits .leftParen = true)
      (hrest : Alternates .formula (depth + 1) tokens) :
      Alternates place depth (.leftParen :: tokens)
  | rightParen (hrest : Alternates .operator depth tokens) :
      Alternates .operator (depth + 1) (.rightParen :: tokens)
  | cons (hparen : token.isParen = false) (hplace : place.admits token = true)
      (hrest : Alternates (.after token) depth tokens) :
      Alternates place depth (token :: tokens)

/-! ## From places to derivations -/

/-- Whether tokens may follow a primary in a formula. -/
def Continues (tokens : List Token) : Prop :=
  tokens = [] ∨ ∃ op s, tokens = .binary op :: s ∧ Derives .sum s

/-- Whether tokens are what is asked for at a place, as far as it reaches. -/
def Fills : Place → List Token → Prop
  | .formula, tokens => Derives .sum tokens
  | .primary, tokens => ∃ s u, tokens = s ++ u ∧ Derives .primary s ∧ Continues u
  | .operator, tokens => Continues tokens

/-- Whether tokens close parentheses, of which `depth` are open, and go on with
the formula after each. -/
def Closes : Nat → List Token → Prop
  | 0, tokens => tokens = []
  | depth + 1, tokens =>
    ∃ u rest, tokens = .rightParen :: (u ++ rest) ∧ Continues u ∧ Closes depth rest

/-- A primary may be continued to a sum. -/
theorem Continues.sum {s u : List Token} (hu : Continues u) (hs : Derives .primary s) :
    Derives .sum (s ++ u) := by
  obtain rfl | ⟨op, u, rfl, hu⟩ := hu
  · rw [List.append_nil]
    exact hs.ofPrimary.ofFactor.ofTerm
  · exact hs.binary_sum op hu

/-- A primary fills the places at which an operand is asked for. -/
theorem fills_of_primary {place : Place} {s u : List Token} (hplace : place ≠ .operator)
    (hs : Derives .primary s) (hu : Continues u) : Fills place (s ++ u) := by
  cases place with
  | formula => exact hu.sum hs
  | primary => exact ⟨s, u, rfl, hs, hu⟩
  | operator => exact absurd rfl hplace

/-- No operand begins where an operator is asked for. -/
theorem Place.ne_operator {place : Place} {token : Token} (hplace : place.admits token = true)
    (hbegins : token.beginsOperand = true) : place ≠ .operator := by
  rintro rfl
  cases token with
  | binary op => cases hbegins
  | rightParen => cases hbegins
  | _ => cases hplace

/-- A token at its place, and after it what it asks for, is what is asked for
there. -/
theorem fills_cons {place : Place} {token : Token} {s : List Token}
    (hparen : token.isParen = false) (hplace : place.admits token = true)
    (hs : Fills (.after token) s) : Fills place (token :: s) := by
  cases token with
  | number value =>
    exact fills_of_primary (Place.ne_operator hplace rfl) (Derives.operand (.number value)) hs
  | var index =>
    exact fills_of_primary (Place.ne_operator hplace rfl) (Derives.operand (.var index)) hs
  | func f =>
    obtain ⟨s, u, rfl, hs, hu⟩ := hs
    exact fills_of_primary (Place.ne_operator hplace rfl) (hs.apply f) hu
  | binary op =>
    cases place with
    | operator => exact .inr ⟨op, s, rfl, hs⟩
    | _ => cases hplace
  | sign g =>
    cases place with
    | formula => exact Derives.sign_sum g hs
    | _ => cases hplace
  | comma => cases place <;> cases hplace
  | leftParen | rightParen => cases hparen

/-- Tokens at their places are made up of what is asked for first, and of what
follows the parentheses that close. -/
theorem exists_fills_of_alternates {place : Place} {depth : Nat} {tokens : List Token}
    (h : Alternates place depth tokens) :
    ∃ s rest, tokens = s ++ rest ∧ Fills place s ∧ Closes depth rest := by
  induction h with
  | nil => exact ⟨[], [], rfl, .inl rfl, rfl⟩
  | leftParen hplace hrest ih =>
    obtain ⟨s, _, rfl, hs, u, rest, rfl, hu, hclose⟩ := ih
    refine ⟨(.leftParen :: (s ++ [.rightParen])) ++ u, rest, by simp, ?_, hclose⟩
    exact fills_of_primary (Place.ne_operator hplace rfl) (Derives.group hs) hu
  | rightParen hrest ih =>
    obtain ⟨u, rest, rfl, hu, hclose⟩ := ih
    exact ⟨[], _, rfl, .inl rfl, u, rest, rfl, hu, hclose⟩
  | @cons token place depth tokens hparen hplace hrest ih =>
    obtain ⟨s, rest, rfl, hs, hclose⟩ := ih
    exact ⟨token :: s, rest, rfl, fills_cons hparen hplace hs, hclose⟩

/-- Tokens that all stand at their places are a sentence. -/
theorem derives_of_alternates {tokens : List Token} (h : Alternates .formula 0 tokens) :
    Derives .sum tokens := by
  obtain ⟨s, rest, rfl, hs, rfl⟩ := exists_fills_of_alternates h
  rwa [List.append_nil]

/-! ## From derivations to places -/

/-- A place at which a formula of the level may begin. -/
def Level.BeginsAt (l : Level) (place : Place) : Prop :=
  place = .formula ∨ place = .primary ∧ l = .primary

/-- Where a primary may begin, a token that begins an operand is admitted,
unless it is a sign. -/
theorem Level.BeginsAt.admits {l : Level} {place : Place} {token : Token}
    (h : l.BeginsAt place) (hbegins : token.beginsOperand = true)
    (hoperator : token.isOperator = false) : place.admits token = true := by
  obtain rfl | ⟨rfl, -⟩ := h
  · exact hbegins
  · simp only [Place.admits, hbegins, hoperator, Bool.not_false, Bool.and_self]

/-- A sign may stand before all but a primary. -/
theorem Level.BeginsAt.eq_formula {l : Level} {place : Place} (h : l.BeginsAt place)
    (hl : l ≠ .primary) : place = .formula := by
  obtain rfl | ⟨-, rfl⟩ := h
  · rfl
  · exact absurd rfl hl

/-- The tokens of a formula stand at their places when those after it do. -/
theorem alternates_tokens {p : Phrase Operand l} {t : Expr} (ht : p.expr? = some t)
    {place : Place} {depth : Nat} {rest : List Token} (hplace : l.BeginsAt place)
    (hrest : Alternates .operator depth rest) : Alternates place depth (p.tokens ++ rest) := by
  induction p generalizing t place depth rest with
  | operand a =>
    cases a with
    | number value => exact .cons rfl (hplace.admits rfl rfl) hrest
    | var index => exact .cons rfl (hplace.admits rfl rfl) hrest
  | group body ih =>
    have hbody := ih ht (.inl rfl) (.rightParen hrest)
    rw [Phrase.tokens, List.cons_append, List.append_assoc]
    exact .leftParen (hplace.admits rfl rfl) hbody
  | apply f argument ih =>
    obtain ⟨u, hu, -⟩ := Phrase.one_eq_some_iff.1 ht
    exact .cons rfl (hplace.admits rfl rfl) (ih hu (.inr ⟨rfl, rfl⟩) hrest)
  | call | pair | cons => cases ht
  | ofPrimary p ih | ofFactor p ih | ofTerm p ih =>
    cases hplace.eq_formula (by decide)
    exact ih ht (.inl rfl) hrest
  | sign s body ih =>
    cases hplace.eq_formula (by decide)
    obtain ⟨u, hu, -⟩ := Phrase.one_eq_some_iff.1 ht
    exact .cons rfl rfl (ih hu (.inl rfl) hrest)
  | power lhs rhs ihl ihr | product lhs op rhs ihl ihr | sum lhs op rhs ihl ihr =>
    cases hplace.eq_formula (by decide)
    obtain ⟨u, v, hu, hv, -⟩ := Phrase.two_eq_some_iff.1 ht
    rw [Phrase.tokens, List.append_assoc]
    exact ihl hu (.inl rfl) (.cons rfl rfl (ihr hv (.inl rfl) hrest))

/-- **The sentences of the grammar are the lists of tokens in which every token
stands at its place.** -/
theorem isSentence_iff_alternates {tokens : List Token} :
    IsSentence tokens ↔ Alternates .formula 0 tokens := by
  constructor
  · rintro ⟨p, t, ht, rfl⟩
    have h := alternates_tokens ht (.inl rfl) Alternates.nil
    rwa [List.append_nil] at h
  · exact derives_of_alternates

end Formula
