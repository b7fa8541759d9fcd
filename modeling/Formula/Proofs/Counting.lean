import Formula.Proofs.Contents
import Formula.Proofs.Trees

/-!
# Formula.Proofs.Counting

What a value says of the tokens of a formula, in whatever order they stand: one
operand more than binary operators, and no comma.

* `addsUp_postOrder` — this holds of the tokens of a tree;
* `addsUp_of_evaluate` — and of every formula whose order has a value.
-/

namespace Formula

variable {tokens : List Token}

/-- Whether the token is a binary operator. -/
def Token.isBinary : Token → Bool
  | binary _ => true
  | _ => false

/-- Whether tokens have one operand more than binary operators, and no
comma. -/
structure AddsUp (tokens : List Token) : Prop where
  countP_isOperand : tokens.countP Token.isOperand = tokens.countP Token.isBinary + 1
  comma_not_mem : .comma ∉ tokens

/-- Tokens of other kinds may be left out. -/
theorem addsUp_filter_iff {q : Token → Bool}
    (hq : ∀ token, q token = false →
      token.isOperand = false ∧ token.isBinary = false ∧ token ≠ .comma) :
    AddsUp (tokens.filter q) ↔ AddsUp tokens := by
  have hcount : ∀ p : Token → Bool, (∀ token, q token = false → p token = false) →
      (tokens.filter q).countP p = tokens.countP p := by
    intro p hp
    rw [List.countP_filter]
    refine List.countP_congr fun token _ => ?_
    cases hkept : q token with
    | true => rw [Bool.and_true]
    | false => rw [Bool.and_false, hp token hkept]
  have hoperand := hcount Token.isOperand fun token h => (hq token h).1
  have hbinary := hcount Token.isBinary fun token h => (hq token h).2.1
  have hkept : q .comma = true := by
    cases hcomma : q .comma with
    | true => rfl
    | false => exact absurd rfl (hq .comma hcomma).2.2
  have hmem : .comma ∈ tokens.filter q ↔ .comma ∈ tokens := by
    rw [List.mem_filter, hkept]
    simp
  constructor
  · rintro ⟨hsum, hnone⟩
    rw [hoperand, hbinary] at hsum
    exact ⟨hsum, fun h => hnone (hmem.2 h)⟩
  · rintro ⟨hsum, hnone⟩
    rw [← hoperand, ← hbinary] at hsum
    exact ⟨hsum, fun h => hnone (hmem.1 h)⟩

/-- The order of the tokens does not matter. -/
theorem AddsUp.perm {s t : List Token} (h : AddsUp s) (hperm : s.Perm t) : AddsUp t := by
  obtain ⟨hsum, hnone⟩ := h
  rw [hperm.countP_eq, hperm.countP_eq] at hsum
  exact ⟨hsum, fun h => hnone (hperm.mem_iff.2 h)⟩

/-- The tokens of a tree add up. -/
theorem Expr.addsUp_postOrder (t : Expr) : AddsUp t.postOrder := by
  induction t with
  | number value => exact ⟨rfl, by simp [postOrder]⟩
  | var index => exact ⟨rfl, by simp [postOrder]⟩
  | sign s operand ih =>
    refine ⟨?_, by simp [postOrder, ih.comma_not_mem]⟩
    rw [postOrder, List.countP_append, List.countP_append, ih.countP_isOperand]
    rfl
  | binary op lhs rhs ihl ihr =>
    refine ⟨?_, by simp [postOrder, ihl.comma_not_mem, ihr.comma_not_mem]⟩
    have hoperator : [Token.binary op].countP Token.isOperand = 0 := rfl
    have hbinary : [Token.binary op].countP Token.isBinary = 1 := rfl
    simp only [postOrder, List.countP_append, ihl.countP_isOperand, ihr.countP_isOperand,
      hoperator, hbinary]
    omega
  | apply f argument ih =>
    refine ⟨?_, by simp [postOrder, ih.comma_not_mem]⟩
    rw [postOrder, List.countP_append, List.countP_append, ih.countP_isOperand]
    rfl

/-- Plus signs may be left out. -/
theorem addsUp_withoutPlus_iff : AddsUp (withoutPlus tokens) ↔ AddsUp tokens := by
  refine addsUp_filter_iff fun token h => ?_
  obtain rfl : token = .sign .pos := by simpa using h
  exact ⟨rfl, rfl, by simp⟩

/-- Parentheses may be left out. -/
theorem addsUp_withoutParens_iff : AddsUp (withoutParens tokens) ↔ AddsUp tokens := by
  refine addsUp_filter_iff fun token h => ?_
  cases token with
  | leftParen | rightParen => exact ⟨rfl, rfl, by simp⟩
  | _ => cases h

/-- A formula whose order has a value adds up. -/
theorem addsUp_of_evaluate {e : Evaluator} {values : Array Float} {x : Float} {out : List Token}
    (hout : toRpn tokens = .ok out) (hx : e.evaluate out values = .ok x) : AddsUp tokens := by
  obtain ⟨t, -, horder, -⟩ := Expr.exists_of_evaluate hx
  have htree : AddsUp (withoutPlus out) := horder ▸ t.addsUp_postOrder
  have hwritten : AddsUp (withoutParens out) :=
    addsUp_withoutParens_iff.2 (addsUp_withoutPlus_iff.1 htree)
  exact addsUp_withoutParens_iff.1 (hwritten.perm (Rpn.perm_of_toRpn hout))

end Formula
