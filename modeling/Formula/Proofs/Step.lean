import Formula.Rpn
import Formula.Proofs.Outcome
import Formula.Proofs.Spans

/-!
# Formula.Proofs.Step

All that can happen when a token is taken in.

* `Stays`, `hold_append` — which of the held tokens an operator sends out;
* `Takes` — what one token sends out and leaves held, without the searches by
  which `step` finds it;
* `step_eq_ok_iff` — a step succeeds just as `Takes` says;
* `toRpn_eq_ok_iff` — a formula goes out when its tokens can be taken in and
  leave no parenthesis open.
-/

namespace Formula

/-- Whether the token is an operand by itself. -/
def Token.isOperand : Token → Bool
  | number _ | var _ => true
  | _ => false

namespace Rpn

variable {position : Nat}

/-! ## What goes before what -/

/-- A token that goes out before an operator goes out before a looser one. -/
theorem goesBefore_of_lt {b c : Binding} {h : Held} (hbc : c.precedence < b.precedence)
    (hb : goesBefore b h = true) : goesBefore c h = true := by
  unfold goesBefore at hb ⊢
  cases hw : h.token.binding? with
  | none =>
    rw [hw] at hb
    cases hb
  | some waiting =>
    simp only [hw, Option.any_some, Binding.goesBefore, Bool.or_eq_true, decide_eq_true_eq,
      Bool.and_eq_true, beq_iff_eq] at hb ⊢
    omega

/-- What goes before an operator is no parenthesis. -/
theorem ne_leftParen_of_goesBefore {b : Binding} {h : Held} (hb : goesBefore b h = true) :
    h.token ≠ .leftParen := by
  intro htoken
  rw [goesBefore, htoken] at hb
  cases hb

/-- Only functions go before a power or a sign. -/
theorem exists_func_of_goesBefore {h : Held} (hb : goesBefore Sign.binding h = true) :
    ∃ f, h.token = .func f := by
  unfold goesBefore at hb
  obtain ⟨token, position⟩ := h
  cases token with
  | func f => exact ⟨f, rfl⟩
  | binary op => cases op <;> cases hb
  | _ => cases hb

/-- Nothing that is held goes out before an operator of binding `b`. -/
def Stays (b : Binding) (held : List Held) : Prop :=
  ∀ h ∈ held.head?, goesBefore b h = false

/-- What stays for an operator stays for a tighter one. -/
theorem Stays.of_lt {b c : Binding} (hbc : c.precedence < b.precedence) (h : Stays c held) :
    Stays b held := by
  intro x hx
  cases hb : goesBefore b x with
  | false => rfl
  | true =>
    have hc := goesBefore_of_lt hbc hb
    rw [h x hx] at hc
    cases hc

/-- No call is completed by a group where a sign would send nothing out. -/
theorem Stays.ne_func {held : List Held} (h : Stays Sign.binding held) :
    ∀ x ∈ held.head?, ∀ f, x.token ≠ .func f := by
  intro x hx f hf
  have hb := h x hx
  rw [goesBefore, hf] at hb
  cases hb

/-- Before an operator go the pending tokens, and no others. -/
theorem hold_append {b : Binding} {h : Held} {pending : List Held}
    (hpending : ∀ x ∈ pending, goesBefore b x = true) (hheld : Stays b held) :
    hold b h (pending ++ held) = (pending.map (·.token), h :: held) := by
  rw [hold, takeWhile_append_of_stop hpending hheld, dropWhile_append_of_stop hpending hheld]

/-! ## Closing a group -/

/-- Whether a group is open, and which is the innermost. -/
theorem exists_leftParen (held : List Held) :
    (∀ x ∈ held, x.token ≠ .leftParen) ∨
      ∃ pending i below, held = pending ++ ⟨.leftParen, i⟩ :: below ∧
        ∀ x ∈ pending, x.token ≠ .leftParen := by
  obtain ⟨pending, rest, rfl, hpending, hrest⟩ :=
    exists_append_of_stop (fun x : Held => decide (x.token ≠ .leftParen)) held
  have hopen : ∀ x ∈ pending, x.token ≠ .leftParen := by simpa using hpending
  cases rest with
  | nil =>
    left
    rwa [List.append_nil]
  | cons x below =>
    right
    obtain ⟨token, i⟩ := x
    have htoken : token = .leftParen := by simpa using hrest _ rfl
    exact ⟨pending, i, below, by rw [htoken], hopen⟩

theorem fromParen_of_forall_ne {held : List Held} (h : ∀ x ∈ held, x.token ≠ .leftParen) :
    fromParen held = [] := by
  have hnone := dropWhile_append_of_stop (t := []) (p := fun x : Held => x.token ≠ .leftParen)
    (by simpa using h) (by simp)
  rwa [List.append_nil] at hnone

section

variable {pending : List Held} (hpending : ∀ x ∈ pending, x.token ≠ .leftParen) (i j : Nat)
include hpending

theorem sinceParen_append (held : List Held) :
    sinceParen (pending ++ ⟨.leftParen, i⟩ :: held) = pending.map (·.token) := by
  rw [sinceParen, takeWhile_append_of_stop (by simpa using hpending) (by simp)]

theorem fromParen_append (held : List Held) :
    fromParen (pending ++ ⟨.leftParen, i⟩ :: held) = ⟨.leftParen, i⟩ :: held := by
  rw [fromParen, dropWhile_append_of_stop (by simpa using hpending) (by simp)]

/-- A closing parenthesis sends out what is pending inside it, and completes a
call. -/
theorem step_rightParen_call (f : Func) (held : List Held) :
    step position (pending ++ ⟨.leftParen, i⟩ :: ⟨.func f, j⟩ :: held) .rightParen =
      .ok (pending.map (·.token) ++ [.func f], held) := by
  simp only [step, fromParen_append hpending, sinceParen_append hpending]

/-- A closing parenthesis sends out what is pending inside it, and leaves the
rest as it was where no call is completed. -/
theorem step_rightParen_group {held : List Held}
    (hheld : ∀ x ∈ held.head?, ∀ f, x.token ≠ .func f) :
    step position (pending ++ ⟨.leftParen, i⟩ :: held) .rightParen =
      .ok (pending.map (·.token), held) := by
  simp only [step, fromParen_append hpending, sinceParen_append hpending]
  split
  · rename_i hnil
    cases hnil
  · rename_i hcall
    cases hcall
    exact absurd rfl (hheld _ rfl _)
  · rename_i hgroup
    cases hgroup
    rfl

/-- A comma in a call sends out what is pending before it. -/
theorem step_comma (f : Func) (held : List Held) :
    step position (pending ++ ⟨.leftParen, i⟩ :: ⟨.func f, j⟩ :: held) .comma =
      .ok (pending.map (·.token) ++ [.comma], ⟨.leftParen, i⟩ :: ⟨.func f, j⟩ :: held) := by
  simp only [step, fromParen_append hpending, sinceParen_append hpending]

end

/-! ## All that one token can do -/

/-- What a token sends out, and what is held before and after it.  An operator
sends out the newest of the held tokens, as long as they go before it.  A
closing parenthesis or a comma sends out what is pending in the innermost open
group, and the closing one takes the function before the group along. -/
inductive Takes (position : Nat) : List Held → Token → List Token → List Held → Prop
  | operand (hoperand : token.isOperand = true) : Takes position held token [token] held
  | func (f : Func) : Takes position held (.func f) [] (⟨.func f, position⟩ :: held)
  | leftParen : Takes position held .leftParen [] (⟨.leftParen, position⟩ :: held)
  | operator (hoperator : token.isOperator = true) (hbinding : token.binding? = some b)
      (hpending : ∀ x ∈ pending, goesBefore b x = true) (hheld : Stays b held) :
      Takes position (pending ++ held) token (pending.map (·.token)) (⟨token, position⟩ :: held)
  | call (hpending : ∀ x ∈ pending, x.token ≠ .leftParen) :
      Takes position (pending ++ ⟨.leftParen, i⟩ :: ⟨.func f, j⟩ :: held) .rightParen
        (pending.map (·.token) ++ [.func f]) held
  | group (hpending : ∀ x ∈ pending, x.token ≠ .leftParen)
      (hheld : ∀ x ∈ held.head?, ∀ f, x.token ≠ .func f) :
      Takes position (pending ++ ⟨.leftParen, i⟩ :: held) .rightParen
        (pending.map (·.token)) held
  | comma (hpending : ∀ x ∈ pending, x.token ≠ .leftParen) :
      Takes position (pending ++ ⟨.leftParen, i⟩ :: ⟨.func f, j⟩ :: held) .comma
        (pending.map (·.token) ++ [.comma]) (⟨.leftParen, i⟩ :: ⟨.func f, j⟩ :: held)

variable {held held' held'' : List Held} {token : Token} {s t : List Token}
  {out out' : List Token}

/-- An operand goes out at once. -/
theorem step_operand (hoperand : token.isOperand = true) :
    step position held token = .ok ([token], held) := by
  cases token with
  | number value => rfl
  | var index => rfl
  | _ => cases hoperand

/-- An operator is held, after those that go before it. -/
theorem step_operator {b : Binding} (hoperator : token.isOperator = true)
    (hbinding : token.binding? = some b) :
    step position held token = .ok (hold b ⟨token, position⟩ held) := by
  cases token with
  | binary op =>
    cases hbinding
    rfl
  | sign s =>
    cases hbinding
    rfl
  | _ => cases hoperator

/-- Every operator has a binding. -/
theorem exists_binding? (hoperator : token.isOperator = true) :
    ∃ b, token.binding? = some b := by
  cases token with
  | binary op => exact ⟨op.binding, rfl⟩
  | sign s => exact ⟨Sign.binding, rfl⟩
  | _ => cases hoperator

/-- An operator sends out those that go before it. -/
theorem takes_of_isOperator (hoperator : token.isOperator = true)
    (h : step position held token = .ok (out, held')) : Takes position held token out held' := by
  obtain ⟨b, hbinding⟩ := exists_binding? hoperator
  obtain ⟨pending, held, rfl, hpending, hheld⟩ := exists_append_of_stop (goesBefore b) held
  rw [step_operator hoperator hbinding, hold_append hpending hheld] at h
  cases h
  exact .operator hoperator hbinding hpending hheld

/-- A parenthesis closes the innermost open group. -/
theorem takes_of_rightParen (h : step position held .rightParen = .ok (out, held')) :
    Takes position held .rightParen out held' := by
  obtain hopen | ⟨pending, i, below, rfl, hpending⟩ := exists_leftParen held
  · simp only [step, fromParen_of_forall_ne hopen] at h
    cases h
  by_cases hcall : ∃ f j held, below = ⟨.func f, j⟩ :: held
  · obtain ⟨f, j, held, rfl⟩ := hcall
    rw [step_rightParen_call hpending] at h
    cases h
    exact .call hpending
  · have hbelow : ∀ x ∈ below.head?, ∀ f, x.token ≠ .func f := by
      intro x hx f hf
      obtain ⟨held, rfl⟩ := List.head?_eq_some_iff.1 hx
      exact hcall ⟨f, x.position, held, by rw [← hf]⟩
    rw [step_rightParen_group hpending i hbelow] at h
    cases h
    exact .group hpending hbelow

/-- A comma stands in the innermost open group, which is that of a call. -/
theorem takes_of_comma (h : step position held .comma = .ok (out, held')) :
    Takes position held .comma out held' := by
  obtain hopen | ⟨pending, i, below, rfl, hpending⟩ := exists_leftParen held
  · simp only [step, fromParen_of_forall_ne hopen] at h
    cases h
  simp only [step, fromParen_append hpending, sinceParen_append hpending] at h
  split at h
  · rename_i hcall
    cases hcall
    cases h
    exact .comma hpending
  · cases h

/-- A step succeeds in no other way. -/
theorem step_eq_ok_iff :
    step position held token = .ok (out, held') ↔ Takes position held token out held' := by
  constructor
  · intro h
    cases token with
    | number value =>
      cases h
      exact .operand rfl
    | var index =>
      cases h
      exact .operand rfl
    | func f =>
      cases h
      exact .func f
    | leftParen =>
      cases h
      exact .leftParen
    | binary op => exact takes_of_isOperator rfl h
    | sign s => exact takes_of_isOperator rfl h
    | rightParen => exact takes_of_rightParen h
    | comma => exact takes_of_comma h
  · intro h
    cases h with
    | operand hoperand => exact step_operand hoperand
    | func f => rfl
    | leftParen => rfl
    | operator hoperator hbinding hpending hheld =>
      rw [step_operator hoperator hbinding, hold_append hpending hheld]
    | call hpending => exact step_rightParen_call hpending _ _ _ _
    | group hpending hheld => exact step_rightParen_group hpending _ hheld
    | comma hpending => exact step_comma hpending _ _ _ _

/-! ## Taking tokens in, when nothing fails -/

theorem run_singleton (position : Nat) (held : List Held) (token : Token) :
    run position held [token] = step position held token := by
  rw [run_cons]
  cases step position held token with
  | error e => rfl
  | ok first => simp only [Except.bind, run_nil, Except.map, List.append_nil]

theorem run_cons_ok (hfirst : step position held token = .ok (out, held'))
    (hrest : run (position + 1) held' t = .ok (out', held'')) :
    run position held (token :: t) = .ok (out ++ out', held'') := by
  rw [run_cons, hfirst]
  simp only [Except.bind, hrest, Except.map]

/-- A token that sends nothing out. -/
theorem run_cons_held (hfirst : step position held token = .ok ([], held'))
    (hrest : run (position + 1) held' t = .ok (out, held'')) :
    run position held (token :: t) = .ok (out, held'') :=
  run_cons_ok hfirst hrest

/-- A list of tokens is taken in when the first token is, and then the rest. -/
theorem run_cons_eq_ok_iff :
    run position held (token :: t) = .ok (out, held'') ↔
      ∃ first held' rest, Takes position held token first held' ∧
        run (position + 1) held' t = .ok (rest, held'') ∧ first ++ rest = out := by
  constructor
  · intro h
    rw [run_cons] at h
    obtain ⟨⟨first, held'⟩, hfirst, h⟩ := bind_eq_ok.1 h
    obtain ⟨⟨rest, held''⟩, hrest, h⟩ := map_eq_ok.1 h
    cases h
    exact ⟨first, held', rest, step_eq_ok_iff.1 hfirst, hrest, rfl⟩
  · rintro ⟨first, held', rest, hfirst, hrest, rfl⟩
    exact run_cons_ok (step_eq_ok_iff.2 hfirst) hrest

theorem run_append_ok (hfirst : run position held s = .ok (out, held'))
    (hrest : run (position + s.length) held' t = .ok (out', held'')) :
    run position held (s ++ t) = .ok (out ++ out', held'') := by
  rw [run_append, hfirst]
  simp only [Except.bind, hrest, Except.map]

/-- A formula goes out whole when its tokens can be taken in and leave no
parenthesis open. -/
theorem toRpn_eq_ok_iff :
    toRpn t = .ok out ↔
      ∃ first held, run 0 [] t = .ok (first, held) ∧ (∀ x ∈ held, x.token ≠ .leftParen) ∧
        first ++ held.map (·.token) = out := by
  unfold toRpn
  constructor
  · intro h
    obtain ⟨⟨first, held⟩, hrun, h⟩ := bind_eq_ok.1 h
    obtain ⟨rest, hdrain, h⟩ := bind_eq_ok.1 h
    cases h
    obtain hopen | ⟨pending, i, below, rfl, hpending⟩ := exists_leftParen held
    · rw [drain_eq_ok hopen] at hdrain
      cases hdrain
      exact ⟨first, held, hrun, hopen, rfl⟩
    · rw [drain_eq_error rfl hpending] at hdrain
      cases hdrain
  · rintro ⟨first, held, hrun, hopen, rfl⟩
    rw [hrun]
    simp only [bind, Except.bind, drain_eq_ok hopen, pure, Except.pure]

end Rpn

end Formula
