import Formula.Proofs.Machine

/-!
# Formula.Proofs.Trees

Reading trees back from tokens in reverse Polish order.

The machine is run on trees in place of numbers (`Expr.grow`, `growAll`).  It
passes plus signs over, so the trees it makes have none:

* `growAll_postOrder` — the tokens of a tree give the tree back;
* `orders_of_growAll` — the trees have the tokens they were made from;
* `denotes_of_afterAll` — where the machine works out values, these are the
  values of the trees made from the same tokens.

Together they say that the machine and the trees are one and the same
(`evaluate_tree_exact`).
-/

namespace Formula

namespace Expr

/-! ## Trees from tokens -/

/-- The trees after one token, the newest first. -/
def grow : Token → List Expr → Option (List Expr)
  | .number x, ts => some (number x :: ts)
  | .var index, ts => some (var index :: ts)
  | .binary op, r :: l :: ts => some (binary op l r :: ts)
  | .sign .neg, t :: ts => some (sign .neg t :: ts)
  | .sign .pos, ts => some ts
  | .func f, t :: ts => some (apply f t :: ts)
  | _, _ => none

/-- The trees after tokens one after the other. -/
def growAll : List Token → List Expr → Option (List Expr)
  | [], ts => some ts
  | token :: tokens, ts => (grow token ts).bind (growAll tokens)

@[simp] theorem growAll_nil (ts : List Expr) : growAll [] ts = some ts := rfl

theorem growAll_cons (token : Token) (tokens : List Token) (ts : List Expr) :
    growAll (token :: tokens) ts = (grow token ts).bind (growAll tokens) := rfl

@[simp] theorem growAll_singleton (token : Token) (ts : List Expr) :
    growAll [token] ts = grow token ts := by
  rw [growAll_cons]
  cases grow token ts <;> rfl

theorem growAll_append (s u : List Token) (ts : List Expr) :
    growAll (s ++ u) ts = (growAll s ts).bind (growAll u) := by
  induction s generalizing ts with
  | nil => rfl
  | cons token s ih =>
    simp only [List.cons_append, growAll_cons]
    cases grow token ts with
    | none => rfl
    | some us => exact ih us

/-- The tokens of a tree without plus signs give the tree back. -/
theorem growAll_postOrder {t : Expr} (h : t.hasPlus = false) (ts : List Expr) :
    growAll t.postOrder ts = some (t :: ts) := by
  induction t generalizing ts with
  | number x => rfl
  | var index => rfl
  | sign s operand ih =>
    cases s with
    | pos => cases h
    | neg =>
      rw [postOrder, growAll_append, ih h]
      rfl
  | binary op lhs rhs ihl ihr =>
    simp only [hasPlus, Bool.or_eq_false_iff] at h
    rw [postOrder, growAll_append, ihl h.1, Option.bind_some, growAll_append, ihr h.2]
    rfl
  | apply f argument ih =>
    rw [postOrder, growAll_append, ih h]
    rfl

/-- A tree without plus signs is the only one of its order. -/
theorem eq_of_postOrder_eq {t u : Expr} (ht : t.hasPlus = false) (hu : u.hasPlus = false)
    (h : t.postOrder = u.postOrder) : t = u := by
  have hgrow : some [t] = some [u] := by
    rw [← growAll_postOrder ht [], h, growAll_postOrder hu []]
  simpa using hgrow

/-! ## Tokens from trees -/

/-- The tokens of several trees, the newest of which comes first in the list
and last in the order. -/
def orders : List Expr → List Token
  | [] => []
  | t :: ts => orders ts ++ t.postOrder

/-- A token goes into the order, unless it is a plus sign. -/
theorem orders_of_grow {token : Token} {ts us : List Expr} (h : grow token ts = some us) :
    orders us = orders ts ++ withoutPlus [token] := by
  unfold grow at h
  split at h <;> cases h <;> simp [orders, postOrder, withoutPlus]

/-- The trees made from tokens have these tokens, without the plus signs. -/
theorem orders_of_growAll {tokens : List Token} {ts us : List Expr}
    (h : growAll tokens ts = some us) : orders us = orders ts ++ withoutPlus tokens := by
  induction tokens generalizing ts with
  | nil =>
    cases h
    simp
  | cons token tokens ih =>
    obtain ⟨vs, hv, hu⟩ := Option.bind_eq_some_iff.1 h
    rw [ih hu, orders_of_grow hv, List.append_assoc]
    congr 1
    exact (List.filter_append [token] tokens).symm

/-- No tree gets a plus sign. -/
theorem hasPlus_of_grow {token : Token} {ts us : List Expr} (h : grow token ts = some us)
    (hts : ∀ t ∈ ts, t.hasPlus = false) : ∀ u ∈ us, u.hasPlus = false := by
  unfold grow at h
  split at h <;> cases h <;> simp_all [hasPlus]

/-- Trees made from tokens have no plus signs. -/
theorem hasPlus_of_growAll {tokens : List Token} {ts us : List Expr}
    (h : growAll tokens ts = some us) (hts : ∀ t ∈ ts, t.hasPlus = false) :
    ∀ u ∈ us, u.hasPlus = false := by
  induction tokens generalizing ts with
  | nil =>
    cases h
    exact hts
  | cons token tokens ih =>
    obtain ⟨vs, hv, hu⟩ := Option.bind_eq_some_iff.1 h
    exact ih hu (hasPlus_of_grow hv hts)

/-! ## Values of trees -/

/-- Whether numbers are the values of trees, one by one. -/
def Denotes (e : Evaluator) (values : Array Float) (ts : List Expr) (xs : List Float) : Prop :=
  ts.map (·.eval e values) = xs.map .ok

variable {e : Evaluator} {values : Array Float}

/-- Where one token can be worked out on values, it can be on trees, and the
results belong together. -/
theorem denotes_of_after {token : Token} {ts : List Expr} {xs ys : List Float}
    (hd : Denotes e values ts xs) (h : e.after values token xs = .ok ys) :
    ∃ us, grow token ts = some us ∧ Denotes e values us ys := by
  unfold Denotes at hd
  cases token with
  | number x =>
    cases h
    refine ⟨number x :: ts, rfl, ?_⟩
    simp only [Denotes, List.map_cons, hd, eval]
  | var index =>
    cases hx : values[index]? with
    | none =>
      rw [Evaluator.after_var_none e values xs hx] at h
      cases h
    | some x =>
      rw [Evaluator.after_var_some e values xs hx] at h
      cases h
      refine ⟨var index :: ts, rfl, ?_⟩
      simp only [Denotes, List.map_cons, hd, eval, hx]
  | binary op =>
    cases xs with
    | nil => cases h
    | cons y xs =>
      cases xs with
      | nil => cases h
      | cons x xs =>
        rw [Evaluator.after_binary] at h
        obtain ⟨z, hz, rfl⟩ := map_eq_ok.1 h
        obtain ⟨r, us, rfl, hr, hus⟩ := List.map_eq_cons_iff.1 hd
        obtain ⟨l, ts, rfl, hl, hts⟩ := List.map_eq_cons_iff.1 hus
        refine ⟨binary op l r :: ts, rfl, ?_⟩
        have hbin : (binary op l r).eval e values = .ok z := by
          rw [eval_binary, hl, hr]
          exact hz
        simp only [Denotes, List.map_cons, hbin, hts]
  | sign s =>
    cases s with
    | pos =>
      cases h
      exact ⟨ts, rfl, hd⟩
    | neg =>
      cases xs with
      | nil => cases h
      | cons x xs =>
        cases h
        obtain ⟨t, ts, rfl, ht, hts⟩ := List.map_eq_cons_iff.1 hd
        refine ⟨sign .neg t :: ts, rfl, ?_⟩
        have hneg : (sign .neg t).eval e values = .ok (Evaluator.applySign .neg x) := by
          rw [eval_sign, ht]
          rfl
        simp only [Denotes, List.map_cons, hneg, hts]
  | func f =>
    cases xs with
    | nil => cases h
    | cons x xs =>
      rw [Evaluator.after_func] at h
      obtain ⟨z, hz, rfl⟩ := map_eq_ok.1 h
      obtain ⟨t, ts, rfl, ht, hts⟩ := List.map_eq_cons_iff.1 hd
      refine ⟨apply f t :: ts, rfl, ?_⟩
      have hfun : (apply f t).eval e values = .ok z := by
        rw [eval_apply, ht]
        exact hz
      simp only [Denotes, List.map_cons, hfun, hts]
  | leftParen | rightParen | comma => cases h

/-- Where tokens can be worked out on values, they can be on trees, and the
results belong together. -/
theorem denotes_of_afterAll {tokens : List Token} {ts : List Expr} {xs ys : List Float}
    (hd : Denotes e values ts xs) (h : e.afterAll values tokens xs = .ok ys) :
    ∃ us, growAll tokens ts = some us ∧ Denotes e values us ys := by
  induction tokens generalizing ts xs with
  | nil =>
    cases h
    exact ⟨ts, rfl, hd⟩
  | cons token tokens ih =>
    rw [Evaluator.afterAll_cons] at h
    obtain ⟨zs, hz, hy⟩ := bind_eq_ok.1 h
    obtain ⟨vs, hv, hdv⟩ := denotes_of_after hd hz
    obtain ⟨us, hu, hdu⟩ := ih hdv hy
    exact ⟨us, by rw [growAll_cons, hv, Option.bind_some, hu], hdu⟩

/-- Tokens with a value are the order of a tree with that value, apart from
plus signs. -/
theorem exists_of_evaluate {tokens : List Token} {x : Float}
    (h : e.evaluate tokens values = .ok x) :
    ∃ t : Expr, t.hasPlus = false ∧ t.postOrder = withoutPlus tokens ∧
      t.eval e values = .ok x := by
  have hnil : Denotes e values [] [] := rfl
  obtain ⟨us, hu, hd⟩ := denotes_of_afterAll hnil (Evaluator.evaluate_eq_ok_iff.1 h)
  obtain ⟨t, rest, rfl, ht, hrest⟩ := List.map_eq_cons_iff.1 hd
  obtain rfl := List.map_eq_nil_iff.1 hrest
  refine ⟨t, ?_, ?_, ht⟩
  · exact hasPlus_of_growAll hu (by simp) t List.mem_cons_self
  · simpa [orders] using orders_of_growAll hu

end Expr

/-! ## The machine and the trees -/

/-- **The machine is the evaluation of trees.**  The tokens of a tree have the
outcome of the tree, errors included.  Conversely, tokens that have a value
for one evaluator and some values of the variables are, but for plus signs,
the order of exactly one tree without plus signs, and the value is that of the
tree; no evaluator and no other values then find them malformed or find a
comma in them. -/
theorem evaluate_tree_exact :
    (∀ (t : Expr) (e : Evaluator) (values : Array Float),
      e.evaluate t.postOrder values = t.eval e values) ∧
    ∀ (tokens : List Token) (e : Evaluator) (values : Array Float) (x : Float),
      e.evaluate tokens values = .ok x →
        (∃ t : Expr,
          (t.hasPlus = false ∧ t.postOrder = tokens.filter (· ≠ .sign .pos)) ∧
          t.eval e values = .ok x ∧
          ∀ u : Expr, u.hasPlus = false ∧ u.postOrder = tokens.filter (· ≠ .sign .pos) →
            u = t) ∧
        ∀ (e' : Evaluator) (values' : Array Float),
          e'.evaluate tokens values' ≠ .error .malformedExpression ∧
          e'.evaluate tokens values' ≠ .error .unsupportedComma := by
  refine ⟨fun t e values => Evaluator.evaluate_postOrder e values t, ?_⟩
  intro tokens e values x h
  obtain ⟨t, hplus, horder, heval⟩ := Expr.exists_of_evaluate h
  constructor
  · refine ⟨t, ⟨hplus, horder⟩, heval, ?_⟩
    intro u hu
    exact Expr.eq_of_postOrder_eq hu.1 hplus (hu.2.trans horder.symm)
  · intro e' values'
    have hsame : e'.evaluate tokens values' = t.eval e' values' := by
      rw [← Evaluator.evaluate_withoutPlus, ← horder, Evaluator.evaluate_postOrder]
    rw [hsame]
    constructor
    · intro herr
      exact Expr.not_isStructural_of_eval herr trivial
    · intro herr
      exact Expr.not_isStructural_of_eval herr trivial

/-- A plus sign that stands before any operand: but for it the tokens are the
order of `1 + 2`, and their value is `3`. -/
theorem evaluate_tree_exact_leading_plus :
    Evaluator.default.evaluate [.sign .pos, .number 1, .number 2, .binary .add] #[] = .ok 3 ∧
    ∃ t : Expr,
      (t.hasPlus = false ∧ t.postOrder = [.number 1, .number 2, .binary .add]) ∧
      t.eval Evaluator.default #[] = .ok 3 := by
  have hsum : (1 : Float) + 2 = 3 := by decide +kernel
  have h : Evaluator.default.evaluate
      [.sign .pos, .number 1, .number 2, .binary .add] #[] = .ok 3 := by
    rw [← hsum]
    rfl
  obtain ⟨⟨t, ht, heval, -⟩, -⟩ := evaluate_tree_exact.2 _ _ _ _ h
  exact ⟨h, t, ht, heval⟩

end Formula
