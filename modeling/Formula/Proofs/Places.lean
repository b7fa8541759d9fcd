import Formula.Brackets
import Formula.Proofs.Contents

/-!
# Formula.Proofs.Places

What is held before each place of a formula.

* `Reaches` — the tokens before a place can be taken in, and what they leave
  held;
* `Takes.exists_lower` — a step takes held tokens from the top only;
* `Reaches.reaches_below` — so a parenthesis or a function still lies on what was held
  when it came;
* `Reaches.getElem?_position`, `Reaches.pairwise` — every held token has its own
  place, the newest the last;
* `Reaches.depth_take` — as many parentheses are held as are open;
* `toRpn_of_reaches`, `toRpn_eq_error_of_step`, `exists_reaches_or_error` — a
  formula is taken in to its end, or fails at the first token that cannot be
  taken in;
* `reaches_of_run` — what a whole run leaves held is reached.
-/

namespace Formula

namespace Rpn

variable {tokens : List Token} {n position : Nat} {held held' : List Held} {token : Token}
  {out : List Token} {err : RpnError}

/-- The tokens before place `n` can be taken in one after the other, and `held`
is what they leave held. -/
inductive Reaches (tokens : List Token) : Nat → List Held → Prop
  | zero : Reaches tokens 0 []
  | succ {n : Nat} {held held' : List Held} {token : Token} {out : List Token}
      (h : Reaches tokens n held) (htoken : tokens[n]? = some token)
      (hstep : Takes n held token out held') : Reaches tokens (n + 1) held'

/-! ## Runs up to a place -/

/-- What is reached is what a run leaves. -/
theorem Reaches.exists_run (h : Reaches tokens n held) :
    n ≤ tokens.length ∧ ∃ out, run 0 [] (tokens.take n) = .ok (out, held) := by
  induction h with
  | zero => exact ⟨Nat.zero_le _, [], rfl⟩
  | @succ n held held' token out h htoken hstep ih =>
    obtain ⟨hle, first, hrun⟩ := ih
    refine ⟨(List.getElem?_eq_some_iff.1 htoken).1, first ++ out, ?_⟩
    have hlast : run (0 + (tokens.take n).length) held [token] = .ok (out, held') := by
      rw [run_singleton, List.length_take_of_le hle, Nat.zero_add]
      exact step_eq_ok_iff.2 hstep
    rw [List.take_add_one, htoken]
    exact run_append_ok hrun hlast

/-- What is held at the end goes out last, unless a parenthesis is open. -/
theorem toRpn_of_reaches (h : Reaches tokens tokens.length held) :
    ∃ out, toRpn tokens = (drain held).map (out ++ ·) := by
  obtain ⟨-, out, hrun⟩ := h.exists_run
  rw [List.take_length] at hrun
  refine ⟨out, ?_⟩
  rw [toRpn, hrun]
  simp only [bind, Except.bind]
  cases drain held <;> rfl

/-- A token that cannot be taken in is where a run fails. -/
theorem run_eq_error_of_step (h : Reaches tokens n held) (htoken : tokens[n]? = some token)
    (hstep : step n held token = .error err) : run 0 [] tokens = .error err := by
  obtain ⟨hle, out, hrun⟩ := h.exists_run
  obtain ⟨hlt, rfl⟩ := List.getElem?_eq_some_iff.1 htoken
  rw [← List.take_append_drop n tokens, run_append, hrun, List.drop_eq_getElem_cons hlt]
  simp only [Except.bind, List.length_take_of_le hle, Nat.zero_add, run_cons, hstep, Except.map]

/-- So it is where the formula fails. -/
theorem toRpn_eq_error_of_step (h : Reaches tokens n held) (htoken : tokens[n]? = some token)
    (hstep : step n held token = .error err) : toRpn tokens = .error err := by
  rw [toRpn, run_eq_error_of_step h htoken hstep]
  rfl

/-- The tokens before a place can be taken in, or one of them cannot, after
those before it. -/
theorem exists_reaches_or_error (hn : n ≤ tokens.length) :
    (∃ held, Reaches tokens n held) ∨
      ∃ q held token err, q < n ∧ Reaches tokens q held ∧ tokens[q]? = some token ∧
        step q held token = .error err := by
  induction n with
  | zero => exact .inl ⟨[], .zero⟩
  | succ n ih =>
    obtain ⟨held, h⟩ | ⟨q, held, token, err, hq, h⟩ := ih (Nat.le_of_succ_le hn)
    · have htoken := List.getElem?_eq_getElem hn
      cases hstep : step n held tokens[n] with
      | error err => exact .inr ⟨n, held, _, err, Nat.lt_succ_self n, h, htoken, hstep⟩
      | ok next => exact .inl ⟨next.2, h.succ htoken (step_eq_ok_iff.1 hstep)⟩
    · exact .inr ⟨q, held, token, err, Nat.lt_succ_of_lt hq, h⟩

/-- What a run leaves is reached. -/
theorem reaches_of_run (h : run 0 [] tokens = .ok (out, held)) :
    Reaches tokens tokens.length held := by
  obtain ⟨held', h'⟩ | ⟨q, held', token, err, -, h', htoken, hstep⟩ :=
    exists_reaches_or_error (Nat.le_refl tokens.length)
  · obtain ⟨-, out', hrun⟩ := h'.exists_run
    rw [List.take_length, h] at hrun
    cases hrun
    exact h'
  · rw [run_eq_error_of_step h' htoken hstep] at h
    cases h

/-! ## What a step leaves in place -/

/-- A step takes held tokens from the top, and puts at most the token itself
there, which only an operator does in place of others. -/
theorem Takes.exists_lower (h : Takes position held token out held') :
    ∃ gone rest, held = gone ++ rest ∧
      (held' = rest ∨
        held' = ⟨token, position⟩ :: rest ∧ (token.isOperator = false → gone = [])) := by
  cases h with
  | operand _ => exact ⟨[], held, rfl, .inl rfl⟩
  | func f => exact ⟨[], held, rfl, .inr ⟨rfl, fun _ => rfl⟩⟩
  | leftParen => exact ⟨[], held, rfl, .inr ⟨rfl, fun _ => rfl⟩⟩
  | @operator _ pending rest _ hoperator _ _ _ =>
    refine ⟨pending, rest, rfl, .inr ⟨rfl, fun hno => ?_⟩⟩
    rw [hno] at hoperator
    cases hoperator
  | @call pending _ i f j _ =>
    exact ⟨pending ++ [⟨.leftParen, i⟩, ⟨.func f, j⟩], held', by simp, .inl rfl⟩
  | @group pending _ i _ _ => exact ⟨pending ++ [⟨.leftParen, i⟩], held', by simp, .inl rfl⟩
  | @comma pending _ _ _ _ _ => exact ⟨pending, _, rfl, .inl rfl⟩

namespace Reaches

/-- A parenthesis or a function lies on what was held when it came, as long as
it is held itself. -/
theorem reaches_below {pending below : List Held} {x : Held} (h : Reaches tokens n held)
    (hheld : held = pending ++ x :: below) (hx : x.token.isOperator = false) :
    Reaches tokens x.position below := by
  induction h generalizing pending with
  | zero => cases pending <;> cases hheld
  | @succ _ _ after _ _ h _ hstep ih =>
    obtain ⟨gone, rest, rfl, rfl | ⟨rfl, hgone⟩⟩ := hstep.exists_lower
    · have happend : gone ++ after = (gone ++ pending) ++ x :: below := by
        rw [hheld, List.append_assoc]
      exact ih happend
    · cases pending with
      | nil =>
        cases hheld
        rw [hgone hx] at h
        exact h
      | cons y pending =>
        obtain ⟨rfl, rfl⟩ := List.cons.inj hheld
        exact ih (List.append_assoc ..).symm

/-- Every held token is the one at its place, which has been passed. -/
theorem getElem?_position (h : Reaches tokens n held) :
    ∀ x ∈ held, x.position < n ∧ tokens[x.position]? = some x.token := by
  induction h with
  | zero => simp
  | succ _ htoken hstep ih =>
    intro x hx
    obtain hx | ⟨rfl, -⟩ := hstep.mem_held x hx
    · exact ⟨Nat.lt_succ_of_lt (ih x hx).1, (ih x hx).2⟩
    · exact ⟨Nat.lt_succ_self _, htoken⟩

/-- The newer of two held tokens has the later place. -/
theorem pairwise (h : Reaches tokens n held) :
    held.Pairwise fun x y => y.position < x.position := by
  induction h with
  | zero => exact .nil
  | succ h _ hstep ih =>
    obtain ⟨gone, rest, rfl, rfl | ⟨rfl, -⟩⟩ := hstep.exists_lower
    · exact (List.pairwise_append.1 ih).2.1
    · refine List.pairwise_cons.2 ⟨?_, (List.pairwise_append.1 ih).2.1⟩
      intro x hx
      exact (h.getElem?_position x (List.mem_append_right gone hx)).1

end Reaches

/-! ## How many parentheses are open -/

open Brackets

/-- A step opens as many parentheses as its token does. -/
theorem Takes.length_openParens (h : Takes position held token out held') :
    ((openParens held').length : Int) = (openParens held).length + depth [token] := by
  cases hparen : token.isParen with
  | false =>
    have hdepth : depth [token] = 0 := by
      cases token with
      | leftParen | rightParen => cases hparen
      | _ => rfl
    rw [h.openParens_eq hparen, hdepth, Int.add_zero]
  | true =>
    cases token with
    | leftParen =>
      rw [h.openParens_of_leftParen]
      rfl
    | rightParen =>
      obtain ⟨i, hi⟩ := h.openParens_of_rightParen
      have hdepth : depth [Token.rightParen] = -1 := rfl
      rw [hi, hdepth, List.length_cons]
      omega
    | _ => cases hparen

/-- As many parentheses are held as are open. -/
theorem Reaches.depth_take (h : Reaches tokens n held) :
    depth (tokens.take n) = (openParens held).length := by
  induction h with
  | zero => rfl
  | succ _ htoken hstep ih =>
    rw [List.take_add_one, htoken, Option.toList_some, depth_append, ih, hstep.length_openParens]

end Rpn

end Formula
