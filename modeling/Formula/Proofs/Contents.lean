import Formula.Proofs.Origins

/-!
# Formula.Proofs.Contents

What becomes of the tokens that are taken in.

* `perm_of_run` — but for parentheses they go out or are held, each as often
  as it was taken in;
* `openParens` — the parentheses that are still open, which each step changes
  by the parenthesis it takes in and by nothing else;
* `conserves_of_run` — what is held is an operator, a function or an opening
  parenthesis, and all else has gone out in the order in which it came;
* `toRpn_conserves` — a whole formula goes out without its parentheses, with
  its other tokens each as often as before, and with its operands and commas in
  their old order.
-/

namespace Formula

/-! ## Tokens that are no parentheses -/

/-- The tokens that are no parentheses. -/
def withoutParens (tokens : List Token) : List Token :=
  tokens.filter (! ·.isParen)

@[simp] theorem withoutParens_nil : withoutParens [] = [] := rfl

@[simp] theorem withoutParens_append (s t : List Token) :
    withoutParens (s ++ t) = withoutParens s ++ withoutParens t :=
  List.filter_append s t

theorem mem_withoutParens {token : Token} {tokens : List Token} (h : token.isParen = false) :
    token ∈ withoutParens tokens ↔ token ∈ tokens := by
  simp [withoutParens, h]

namespace Rpn

variable {position : Nat} {held held' : List Held} {token : Token} {out tokens : List Token}

/-- Several tokens lose nothing and add nothing but themselves. -/
theorem perm_of_run (h : run position held tokens = .ok (out, held')) :
    (withoutParens (out ++ held'.map (·.token))).Perm
      (withoutParens (held.map (·.token) ++ tokens)) := by
  rw [run_eq_forget] at h
  cases hsend : sendAll held (placesFrom position tokens) with
  | error err =>
    rw [hsend] at h
    cases h
  | ok last =>
    rw [hsend] at h
    cases h
    obtain ⟨parens, hparens, hperm⟩ := perm_of_sendAll hsend
    have hnone : withoutParens (parens.map (·.token)) = [] := by
      refine List.filter_eq_nil_iff.2 (List.forall_mem_map.2 fun x hx => ?_)
      simp [hparens x hx]
    have htokens := (hperm.map (·.token)).filter (! ·.isParen)
    rw [List.map_append, List.map_append, List.map_append, map_token_placesFrom] at htokens
    change (withoutParens _).Perm _ at htokens
    rwa [withoutParens_append, hnone, List.append_nil] at htokens

/-- But for parentheses, a formula goes out with the tokens it has. -/
theorem perm_of_toRpn (h : toRpn tokens = .ok out) :
    (withoutParens out).Perm (withoutParens tokens) := by
  obtain ⟨first, held, hrun, -, rfl⟩ := toRpn_eq_ok_iff.1 h
  simpa using perm_of_run hrun

/-- So each of its tokens goes out, and no other. -/
theorem mem_of_toRpn (h : toRpn tokens = .ok out) (htoken : token.isParen = false) :
    token ∈ out ↔ token ∈ tokens := by
  rw [← mem_withoutParens htoken, (perm_of_toRpn h).mem_iff, mem_withoutParens htoken]

/-! ## Open parentheses -/

/-- The places of the open parentheses, the innermost first. -/
def openParens (held : List Held) : List Nat :=
  (held.filter (·.token = .leftParen)).map (·.position)

@[simp] theorem openParens_append (s t : List Held) :
    openParens (s ++ t) = openParens s ++ openParens t := by
  simp [openParens]

theorem openParens_cons_leftParen (i : Nat) (held : List Held) :
    openParens (⟨.leftParen, i⟩ :: held) = i :: openParens held := rfl

/-- No parenthesis is open when none is held. -/
theorem openParens_eq_nil_iff : openParens held = [] ↔ ∀ x ∈ held, x.token ≠ .leftParen := by
  simp [openParens]

theorem openParens_cons_of_ne {x : Held} (h : x.token ≠ .leftParen) (held : List Held) :
    openParens (x :: held) = openParens held := by
  rw [openParens, List.filter_cons_of_neg (by simpa using h), openParens]

/-- No parenthesis is open among what goes before an operator. -/
theorem openParens_of_goesBefore {b : Binding} (h : ∀ x ∈ held, goesBefore b x = true) :
    openParens held = [] :=
  openParens_eq_nil_iff.2 fun x hx => ne_leftParen_of_goesBefore (h x hx)

/-- An opening parenthesis becomes the innermost. -/
theorem Takes.openParens_of_leftParen (h : Takes position held .leftParen out held') :
    openParens held' = position :: openParens held := by
  cases h with
  | operand hoperand => cases hoperand
  | operator hoperator => cases hoperator
  | leftParen => rfl

/-- A closing parenthesis closes the innermost. -/
theorem Takes.openParens_of_rightParen (h : Takes position held .rightParen out held') :
    ∃ i, openParens held = i :: openParens held' := by
  cases h with
  | operand hoperand => cases hoperand
  | operator hoperator => cases hoperator
  | call hpending | group hpending _ =>
    rw [openParens_append, openParens_eq_nil_iff.2 hpending, List.nil_append,
      openParens_cons_leftParen]
    exact ⟨_, rfl⟩

/-- No other token opens a parenthesis or closes one. -/
theorem Takes.openParens_eq (h : Takes position held token out held')
    (htoken : token.isParen = false) : openParens held' = openParens held := by
  cases h with
  | operand _ => rfl
  | func f => rfl
  | leftParen => cases htoken
  | operator hoperator hbinding hpending hheld =>
    rw [openParens_append, openParens_of_goesBefore hpending, openParens_cons_of_ne]
    · rfl
    · rintro rfl
      cases hoperator
  | call _ => cases htoken
  | group _ _ => cases htoken
  | comma hpending => rw [openParens_append, openParens_eq_nil_iff.2 hpending, List.nil_append]

end Rpn

/-! ## Tokens that wait, and tokens that do not -/

/-- Whether a token waits for others before it goes out. -/
def Token.waits : Token → Bool
  | func _ | binary _ | sign _ | leftParen => true
  | number _ | var _ | rightParen | comma => false

/-- Whether a token goes out as soon as it is taken in. -/
def Token.passes : Token → Bool
  | number _ | var _ | comma => true
  | func _ | binary _ | sign _ | leftParen | rightParen => false

theorem Token.passes_eq_false_of_waits {token : Token} (h : token.waits = true) :
    token.passes = false := by
  cases token with
  | number _ | var _ | comma => cases h
  | _ => rfl

theorem Token.isParen_eq_false_of_passes {token : Token} (h : token.passes = true) :
    token.isParen = false := by
  cases token with
  | leftParen | rightParen => cases h
  | _ => rfl

/-- The one parenthesis that waits is the opening one. -/
theorem Token.isParen_eq_false_of_waits {token : Token} (h : token.waits = true)
    (hne : token ≠ .leftParen) : token.isParen = false := by
  cases token with
  | leftParen => exact absurd rfl hne
  | rightParen => cases h
  | _ => rfl

/-- Operators wait. -/
theorem Token.waits_of_isOperator {token : Token} (h : token.isOperator = true) :
    token.waits = true ∧ token.passes = false := by
  cases token with
  | binary op => exact ⟨rfl, rfl⟩
  | sign s => exact ⟨rfl, rfl⟩
  | _ => cases h

/-- Operands do not. -/
theorem Token.passes_of_isOperand {token : Token} (h : token.isOperand = true) :
    token.passes = true := by
  cases token with
  | number value => rfl
  | var index => rfl
  | _ => cases h

namespace Rpn

variable {position : Nat} {held held' : List Held} {token : Token} {out tokens : List Token}

/-- Whether every held token is one that waits. -/
def AllWait (held : List Held) : Prop := ∀ x ∈ held, x.token.waits = true

/-- Held after a step is only what was held before it, and the token itself if
it waits. -/
theorem Takes.mem_held (h : Takes position held token out held') :
    ∀ x ∈ held', x ∈ held ∨ x = ⟨token, position⟩ ∧ token.waits = true := by
  intro x hx
  cases h with
  | operand _ => exact .inl hx
  | func f =>
    obtain rfl | hx := List.mem_cons.1 hx
    · exact .inr ⟨rfl, rfl⟩
    · exact .inl hx
  | leftParen =>
    obtain rfl | hx := List.mem_cons.1 hx
    · exact .inr ⟨rfl, rfl⟩
    · exact .inl hx
  | operator hoperator =>
    obtain rfl | hx := List.mem_cons.1 hx
    · exact .inr ⟨rfl, (Token.waits_of_isOperator hoperator).1⟩
    · exact .inl (List.mem_append_right _ hx)
  | call _ => exact .inl (List.mem_append_right _ (List.mem_cons_of_mem _ (.tail _ hx)))
  | group _ _ => exact .inl (List.mem_append_right _ (.tail _ hx))
  | comma _ => exact .inl (List.mem_append_right _ hx)

/-- A step sends out held tokens, no opening parenthesis among them, and after
them the token itself if it does not wait. -/
theorem Takes.exists_flushed (h : Takes position held token out held') :
    ∃ flushed, out = flushed ++ [token].filter Token.passes ∧
      ∀ t ∈ flushed, t ≠ .leftParen ∧ ∃ x ∈ held, x.token = t := by
  have hmap : ∀ {pending rest : List Held}, (∀ x ∈ pending, x.token ≠ .leftParen) →
      ∀ t ∈ pending.map (·.token), t ≠ .leftParen ∧ ∃ x ∈ pending ++ rest, x.token = t := by
    intro pending rest hpending t ht
    obtain ⟨x, hx, rfl⟩ := List.mem_map.1 ht
    exact ⟨hpending x hx, x, List.mem_append_left _ hx, rfl⟩
  cases h with
  | operand hoperand =>
    refine ⟨[], ?_, by simp⟩
    rw [List.filter_cons_of_pos (Token.passes_of_isOperand hoperand)]
    rfl
  | func f => exact ⟨[], rfl, by simp⟩
  | leftParen => exact ⟨[], rfl, by simp⟩
  | operator hoperator _ hpending _ =>
    refine ⟨_, ?_, hmap fun x hx => ne_leftParen_of_goesBefore (hpending x hx)⟩
    rw [List.filter_cons_of_neg (by simp [Token.waits_of_isOperator hoperator]), List.filter_nil,
      List.append_nil]
  | call hpending =>
    refine ⟨_, (List.append_nil _).symm, ?_⟩
    intro t ht
    obtain ht | ht := List.mem_append.1 ht
    · exact hmap hpending t ht
    · obtain rfl := List.mem_singleton.1 ht
      exact ⟨by simp, _, List.mem_append_right _ (.tail _ (.head _)), rfl⟩
  | group hpending _ => exact ⟨_, (List.append_nil _).symm, hmap hpending⟩
  | comma hpending => exact ⟨_, rfl, hmap hpending⟩

section

variable (hheld : AllWait held)
include hheld

/-- Where the held tokens wait, they still do after a step. -/
theorem Takes.allWait (h : Takes position held token out held') : AllWait held' := by
  intro x hx
  obtain hx | ⟨rfl, hwaits⟩ := h.mem_held x hx
  · exact hheld x hx
  · exact hwaits

/-- No parenthesis goes out in a step. -/
theorem Takes.isParen_of_mem (h : Takes position held token out held') :
    ∀ t ∈ out, t.isParen = false := by
  obtain ⟨flushed, rfl, hflushed⟩ := h.exists_flushed
  intro t ht
  obtain ht | ht := List.mem_append.1 ht
  · obtain ⟨hne, x, hx, rfl⟩ := hflushed t ht
    exact Token.isParen_eq_false_of_waits (hheld x hx) hne
  · exact Token.isParen_eq_false_of_passes (List.mem_filter.1 ht).2

/-- Of the tokens that do not wait, only the one that is taken in goes out. -/
theorem Takes.filter_passes (h : Takes position held token out held') :
    out.filter Token.passes = [token].filter Token.passes := by
  obtain ⟨flushed, rfl, hflushed⟩ := h.exists_flushed
  have hnone : flushed.filter Token.passes = [] := by
    rw [List.filter_eq_nil_iff]
    intro t ht
    obtain ⟨-, x, hx, rfl⟩ := hflushed t ht
    simp [Token.passes_eq_false_of_waits (hheld x hx)]
  rw [List.filter_append, hnone, List.nil_append, List.filter_filter]
  simp

/-- What is held after several tokens waits, no parenthesis has gone out, and
the tokens that do not wait have gone out in the order in which they came. -/
theorem conserves_of_run (h : run position held tokens = .ok (out, held')) :
    AllWait held' ∧ (∀ t ∈ out, t.isParen = false) ∧
      out.filter Token.passes = tokens.filter Token.passes := by
  induction tokens generalizing position held out with
  | nil =>
    cases h
    exact ⟨hheld, by simp, rfl⟩
  | cons token tokens ih =>
    obtain ⟨first, held₁, rest, hfirst, hrest, rfl⟩ := run_cons_eq_ok_iff.1 h
    obtain ⟨hwait, hparen, hpasses⟩ := ih (hfirst.allWait hheld) hrest
    refine ⟨hwait, ?_, ?_⟩
    · exact List.forall_mem_append.2 ⟨hfirst.isParen_of_mem hheld, hparen⟩
    · rw [List.filter_append, hfirst.filter_passes hheld, hpasses, ← List.filter_append]
      rfl

end

end Rpn

/-! ## Whole formulas -/

/-- A list is as long as its tokens that are no parentheses, and its
parentheses, are many. -/
theorem length_withoutParens_add (tokens : List Token) :
    (withoutParens tokens).length + tokens.countP Token.isParen = tokens.length := by
  have hcount : tokens.countP (! ·.isParen) = tokens.countP (¬ ·.isParen) :=
    List.countP_congr fun t _ => by simp
  rw [withoutParens, ← List.countP_eq_length_filter, hcount, Nat.add_comm,
    List.length_eq_countP_add_countP Token.isParen]

/-- **Nothing is lost, added or doubled.**  Whatever tokens can be brought into
order, well formed or not: the order has no parenthesis, every other token as
often as they have it, and the operands and commas one after the other as they
stood. -/
theorem toRpn_conserves {tokens out : List Token} (h : toRpn tokens = .ok out) :
    (∀ t ∈ out, t.isParen = false) ∧ out.Perm (withoutParens tokens) ∧
      out.length + tokens.countP Token.isParen = tokens.length ∧
      out.filter Token.passes = tokens.filter Token.passes := by
  obtain ⟨first, held, hrun, hopen, rfl⟩ := Rpn.toRpn_eq_ok_iff.1 h
  obtain ⟨hwait, hparen, hpasses⟩ := Rpn.conserves_of_run (by simp [Rpn.AllWait]) hrun
  have hheld : ∀ t ∈ held.map (·.token), t.isParen = false ∧ t.passes = false := by
    intro t ht
    obtain ⟨x, hx, rfl⟩ := List.mem_map.1 ht
    exact ⟨Token.isParen_eq_false_of_waits (hwait x hx) (hopen x hx),
      Token.passes_eq_false_of_waits (hwait x hx)⟩
  have hnone : ∀ t ∈ first ++ held.map (·.token), t.isParen = false :=
    List.forall_mem_append.2 ⟨hparen, fun t ht => (hheld t ht).1⟩
  have hperm : (first ++ held.map (·.token)).Perm (withoutParens tokens) := by
    have hkept : withoutParens (first ++ held.map (·.token)) = first ++ held.map (·.token) :=
      List.filter_eq_self.2 fun t ht => by rw [hnone t ht]; rfl
    rw [← hkept]
    exact Rpn.perm_of_toRpn h
  refine ⟨hnone, hperm, ?_, ?_⟩
  · rw [hperm.length_eq, length_withoutParens_add]
  · have hlast : (held.map (·.token)).filter Token.passes = [] := by
      rw [List.filter_eq_nil_iff]
      intro t ht
      simp [(hheld t ht).2]
    rw [List.filter_append, hlast, List.append_nil, hpasses]

/-- A call that is no sentence: `sin(x[0]+,x[1])x[2]-`. -/
def brokenCall : List Token :=
  [.func .sin, .leftParen, .var 0, .binary .add, .comma, .var 1, .rightParen, .var 2,
    .binary .sub]

/-- The call in reverse Polish order. -/
def brokenCallOrder : List Token :=
  [.var 0, .binary .add, .comma, .var 1, .func .sin, .var 2, .binary .sub]

/-- Operators without operands, a comma and a call. -/
theorem toRpn_conserves_brokenCall :
    toRpn brokenCall = .ok brokenCallOrder ∧
      (∀ t ∈ brokenCallOrder, t.isParen = false) ∧
      brokenCallOrder.Perm (withoutParens brokenCall) ∧
      brokenCallOrder.length + brokenCall.countP Token.isParen = brokenCall.length ∧
      brokenCallOrder.filter Token.passes = brokenCall.filter Token.passes :=
  ⟨rfl, toRpn_conserves rfl⟩

end Formula
