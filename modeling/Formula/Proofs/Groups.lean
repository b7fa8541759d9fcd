import Formula.Proofs.Origins

/-!
# Formula.Proofs.Groups

What is in parentheses goes out as it does alone.

* `run_moved` — the places of tokens have no effect on what goes out, nor on
  whether something fails;
* `Takes.above`, `run_above` — nor has what is held from an open parenthesis
  down;
* `run_group`, `run_call` — so tokens in parentheses go out in their own order,
  together with the function before the parentheses, and leave what was held
  before as it was;
* `toRpn_group`, `toRpn_call`, `toRpn_sign`, `toRpn_binary` — groups alone, and
  under a function, a sign or a binary operator.
-/

namespace Formula

namespace Rpn

variable {position : Nat} {held held' : List Held} {token : Token}
  {out tokens order : List Token}

/-! ## Other places -/

/-- Tokens side by side do the same wherever they begin. -/
theorem run_moved (g : Nat → Nat) {position : Nat}
    (hg : ∀ i, position ≤ i → g (i + 1) = g i + 1) (held : List Held) (tokens : List Token) :
    run (g position) (held.map (·.moved g)) tokens =
      moved g (fun (out, held) => (out, held.map (·.moved g))) (run position held tokens) := by
  rw [run_eq_forget, run_eq_forget, placesFrom_moved hg, sendAll_moved]
  cases sendAll held (placesFrom position tokens) with
  | error err => rfl
  | ok last => simp only [movedSent, moved, forget, map_token_moved]

/-! ## Above an open parenthesis -/

/-- A token does the same above an open parenthesis as with nothing below. -/
theorem Takes.above (h : Takes position held token out held') (i : Nat) (below : List Held) :
    Takes position (held ++ ⟨.leftParen, i⟩ :: below) token out
      (held' ++ ⟨.leftParen, i⟩ :: below) := by
  cases h with
  | operand hoperand => exact .operand hoperand
  | func f => exact .func f
  | leftParen => exact .leftParen
  | operator hoperator hbinding hpending hheld =>
    rw [List.append_assoc]
    exact .operator hoperator hbinding hpending (forall_mem_head?_append hheld rfl)
  | call hpending =>
    rw [List.append_assoc]
    exact .call hpending
  | group hpending hheld =>
    rw [List.append_assoc]
    exact .group hpending (forall_mem_head?_append hheld (by simp))
  | comma hpending =>
    rw [List.append_assoc]
    exact .comma hpending

/-- Tokens do the same above an open parenthesis as with nothing below. -/
theorem run_above (h : run position held tokens = .ok (out, held')) (i : Nat)
    (below : List Held) :
    run position (held ++ ⟨.leftParen, i⟩ :: below) tokens =
      .ok (out, held' ++ ⟨.leftParen, i⟩ :: below) := by
  induction tokens generalizing position held out with
  | nil =>
    cases h
    rfl
  | cons token tokens ih =>
    obtain ⟨first, held₁, rest, hfirst, hrest, rfl⟩ := run_cons_eq_ok_iff.1 h
    exact run_cons_eq_ok_iff.2 ⟨first, _, rest, hfirst.above i below, ih hrest, rfl⟩

/-! ## Groups -/

/-- Of a formula that can be brought into order, taken in after an open
parenthesis, some has gone out and the rest is pending. -/
theorem exists_run_inside (h : toRpn tokens = .ok order) (position i : Nat)
    (below : List Held) :
    ∃ out pending, run position (⟨.leftParen, i⟩ :: below) tokens =
        .ok (out, pending ++ ⟨.leftParen, i⟩ :: below) ∧
      (∀ x ∈ pending, x.token ≠ .leftParen) ∧ out ++ pending.map (·.token) = order := by
  obtain ⟨out, held, hrun, hopen, rfl⟩ := toRpn_eq_ok_iff.1 h
  have hmoved := run_moved (position + ·) (fun i (_ : 0 ≤ i) => rfl) [] tokens
  rw [hrun] at hmoved
  refine ⟨out, held.map (·.moved (position + ·)), ?_, List.forall_mem_map.2 hopen, ?_⟩
  · exact run_above hmoved i below
  · rw [map_token_moved]

/-- A group goes out in its own order, and leaves what was held as it was. -/
theorem run_group (h : toRpn tokens = .ok order) (position : Nat) (below : List Held)
    (hbelow : ∀ x ∈ below.head?, ∀ f, x.token ≠ .func f) :
    run position below (.leftParen :: (tokens ++ [.rightParen])) = .ok (order, below) := by
  obtain ⟨out, pending, hrun, hpending, rfl⟩ :=
    exists_run_inside h (position + 1) position below
  refine run_cons_held rfl (run_append_ok hrun ?_)
  rw [run_singleton]
  exact step_rightParen_group hpending position hbelow

/-- A group after a function goes out in its own order, and the function after
it. -/
theorem run_call (h : toRpn tokens = .ok order) (position j : Nat) (f : Func)
    (below : List Held) :
    run position (⟨.func f, j⟩ :: below) (.leftParen :: (tokens ++ [.rightParen])) =
      .ok (order ++ [.func f], below) := by
  obtain ⟨out, pending, hrun, hpending, rfl⟩ :=
    exists_run_inside h (position + 1) position (⟨.func f, j⟩ :: below)
  rw [List.append_assoc]
  refine run_cons_held rfl (run_append_ok hrun ?_)
  rw [run_singleton]
  exact step_rightParen_call hpending position j f below

end Rpn

/-! ## Whole formulas -/

section

open Rpn

variable {s t order order' : List Token} (hs : toRpn s = .ok order)
include hs

/-- A group alone goes out in its own order. -/
theorem toRpn_group : toRpn (.leftParen :: (s ++ [.rightParen])) = .ok order :=
  toRpn_eq_ok_iff.2 ⟨order, [], run_group hs 0 [] (by simp), by simp, List.append_nil order⟩

/-- A call sends out its argument, and then the function. -/
theorem toRpn_call (f : Func) :
    toRpn (.func f :: .leftParen :: (s ++ [.rightParen])) = .ok (order ++ [.func f]) :=
  toRpn_eq_ok_iff.2
    ⟨order ++ [.func f], [], run_cons_held rfl (run_call hs 1 0 f []), by simp,
      List.append_nil _⟩

/-- A sign before a group goes out after it. -/
theorem toRpn_sign (g : Sign) :
    toRpn (.sign g :: .leftParen :: (s ++ [.rightParen])) = .ok (order ++ [.sign g]) := by
  have hgroup := run_group hs 1 [⟨.sign g, 0⟩] (by simp)
  exact toRpn_eq_ok_iff.2 ⟨order, [⟨.sign g, 0⟩], run_cons_held rfl hgroup, by simp, rfl⟩

/-- A binary operator between two groups goes out after both. -/
theorem toRpn_binary (op : BinOp) (ht : toRpn t = .ok order') :
    toRpn (.leftParen :: (s ++ [.rightParen]) ++
        .binary op :: .leftParen :: (t ++ [.rightParen])) =
      .ok (order ++ order' ++ [.binary op]) := by
  have hleft := run_group hs 0 [] (by simp)
  have hright := fun i j => run_group ht j [⟨.binary op, i⟩] (by simp)
  exact toRpn_eq_ok_iff.2
    ⟨order ++ order', [⟨.binary op, _⟩],
      run_append_ok hleft (run_cons_held rfl (hright _ _)), by simp, rfl⟩

end

end Formula
