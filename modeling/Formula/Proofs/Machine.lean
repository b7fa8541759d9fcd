import Formula.Expr
import Formula.Proofs.Outcome

/-!
# Formula.Proofs.Machine

The stack machine as a function of its stack, and the values of trees.

What a failed evaluation leaves on the stack is of no further use, so the
machine is seen here through `after` and `afterAll`, which forget it:

* `evaluate_eq` — an evaluation is `afterAll` on an empty stack, and exactly
  one operand must be left;
* `applySign_eq`, `applyBinary_eq`, `applyFunc_eq` — the operations of the
  machine have the values of the operations of trees, and fail where those have
  none;
* `afterAll_postOrder` — the tokens of a tree put its value on the stack,
  whatever lies below;
* `afterAll_withoutPlus` — plus signs may be left out of the tokens;
* `isDomain_of_applyBinary`, `isDomain_of_applyFunc` — an operation fails only
  because it has no value;
* `not_isStructural_of_eval` — a tree fails only in an operation or in looking
  a variable up.
-/

namespace Formula

namespace Evaluator

/-! ## The stack after tokens -/

/-- The stack after a computation, or the reason why the computation failed. -/
def stackOf : EStateM.Result EvalError OperandStack Unit → Except EvalError (List Float)
  | .ok _ s => .ok s.values
  | .error err _ => .error err

/-- The stack after one token. -/
def after (e : Evaluator) (values : Array Float) (token : Token) (xs : List Float) :
    Except EvalError (List Float) :=
  stackOf (e.step values token ⟨xs⟩)

/-- The stack after tokens one after the other. -/
def afterAll (e : Evaluator) (values : Array Float) (tokens : List Token) (xs : List Float) :
    Except EvalError (List Float) :=
  stackOf (e.steps values tokens ⟨xs⟩)

/-- The outcome that a stack stands for at the end of an evaluation. -/
def single : List Float → Except EvalError Float
  | [x] => .ok x
  | _ => .error .malformedExpression

section

variable (e : Evaluator) (values : Array Float) (xs : List Float)

@[simp] theorem after_number (x : Float) :
    e.after values (.number x) xs = .ok (x :: xs) := rfl

theorem after_var_some {index : Nat} {x : Float} (h : values[index]? = some x) :
    e.after values (.var index) xs = .ok (x :: xs) := by
  simp only [after, step, h]
  rfl

theorem after_var_none {index : Nat} (h : values[index]? = none) :
    e.after values (.var index) xs = .error (.variableNotSet index) := by
  simp only [after, step, h]
  rfl

@[simp] theorem after_binary (op : BinOp) (x y : Float) :
    e.after values (.binary op) (y :: x :: xs) =
      (e.applyBinary op x y).map (· :: xs) := by
  have h : e.step values (.binary op) ⟨y :: x :: xs⟩ =
      Machine.pushResult (e.applyBinary op x y) ⟨xs⟩ := rfl
  rw [after, h]
  cases e.applyBinary op x y <;> rfl

@[simp] theorem after_binary_nil (op : BinOp) :
    e.after values (.binary op) [] = .error .malformedExpression := rfl

@[simp] theorem after_binary_one (op : BinOp) (x : Float) :
    e.after values (.binary op) [x] = .error .malformedExpression := rfl

@[simp] theorem after_neg (x : Float) :
    e.after values (.sign .neg) (x :: xs) = .ok (applySign .neg x :: xs) := rfl

@[simp] theorem after_neg_nil :
    e.after values (.sign .neg) [] = .error .malformedExpression := rfl

@[simp] theorem after_pos : e.after values (.sign .pos) xs = .ok xs := rfl

@[simp] theorem after_func (f : Func) (x : Float) :
    e.after values (.func f) (x :: xs) = (e.applyFunc f x).map (· :: xs) := by
  have h : e.step values (.func f) ⟨x :: xs⟩ =
      Machine.pushResult (e.applyFunc f x) ⟨xs⟩ := rfl
  rw [after, h]
  cases e.applyFunc f x <;> rfl

@[simp] theorem after_func_nil (f : Func) :
    e.after values (.func f) [] = .error .malformedExpression := rfl

@[simp] theorem after_comma :
    e.after values .comma xs = .error .unsupportedComma := rfl

@[simp] theorem after_leftParen :
    e.after values .leftParen xs = .error .malformedExpression := rfl

@[simp] theorem after_rightParen :
    e.after values .rightParen xs = .error .malformedExpression := rfl

@[simp] theorem afterAll_nil : e.afterAll values [] xs = .ok xs := rfl

theorem afterAll_cons (token : Token) (tokens : List Token) :
    e.afterAll values (token :: tokens) xs =
      (e.after values token xs).bind (e.afterAll values tokens) := by
  rw [afterAll, steps_cons, after]
  cases e.step values token ⟨xs⟩ <;> rfl

theorem afterAll_append (ts us : List Token) :
    e.afterAll values (ts ++ us) xs =
      (e.afterAll values ts xs).bind (e.afterAll values us) := by
  rw [afterAll, steps_append, afterAll]
  cases e.steps values ts ⟨xs⟩ <;> rfl

@[simp] theorem afterAll_singleton (token : Token) :
    e.afterAll values [token] xs = e.after values token xs := by
  rw [afterAll_cons]
  cases e.after values token xs <;> rfl

end

/-- An evaluation starts on an empty stack and must leave one operand. -/
theorem evaluate_eq (e : Evaluator) (tokens : List Token) (values : Array Float) :
    e.evaluate tokens values = (e.afterAll values tokens []).bind single := by
  have hclear : (do set (OperandStack.mk []); e.run tokens values : Machine Float) ⟨[]⟩ =
      e.run tokens values ⟨[]⟩ := rfl
  unfold evaluate evaluateOn
  rw [hclear, run, afterAll]
  simp only [bind, EStateM.bind]
  cases e.steps values tokens ⟨[]⟩ with
  | error err s => rfl
  | ok _ s =>
    obtain ⟨xs⟩ := s
    cases xs with
    | nil => rfl
    | cons x xs => cases xs <;> rfl

/-- Where the machine stops, the evaluation ends with the same error. -/
theorem evaluate_eq_error_of_after {e : Evaluator} {values : Array Float}
    {tokens rest : List Token} {token : Token} {xs : List Float} {err : EvalError}
    (htokens : e.afterAll values tokens [] = .ok xs)
    (htoken : e.after values token xs = .error err) :
    e.evaluate (tokens ++ token :: rest) values = .error err := by
  rw [evaluate_eq, afterAll_append, htokens, Except.bind, afterAll_cons, htoken]
  rfl

/-- An evaluation that succeeds leaves its value alone on the stack. -/
theorem evaluate_eq_ok_iff {e : Evaluator} {tokens : List Token} {values : Array Float}
    {x : Float} :
    e.evaluate tokens values = .ok x ↔ e.afterAll values tokens [] = .ok [x] := by
  rw [evaluate_eq]
  cases e.afterAll values tokens [] with
  | error err => simp [Except.bind]
  | ok xs =>
    simp only [Except.bind, Except.ok.injEq]
    cases xs with
    | nil => simp [single]
    | cons y xs => cases xs <;> simp [single]

/-! ## The operations -/

/-- The machine gives an operand the sign that it has in a tree. -/
theorem applySign_eq (s : Sign) (x : Float) : applySign s x = s.value x := by
  cases s <;> rfl

/-- The machine works a binary operator out as its value and its faults say. -/
theorem applyBinary_eq (e : Evaluator) (op : BinOp) (x y : Float) :
    e.applyBinary op x y = outcome (op.fault? e.epsilon x y) (op.value x y) := by
  cases op with
  | add | sub | mul => rfl
  | div =>
    by_cases h : y.abs < e.epsilon <;>
      simp [applyBinary, isZero, BinOp.fault?, BinOp.value, outcome, h]
  | pow =>
    by_cases hx : x.abs < e.epsilon <;> by_cases hy : y.abs < e.epsilon <;>
      simp [applyBinary, isZero, BinOp.fault?, BinOp.value, outcome, hx, hy]

/-- A reciprocal is guarded by the threshold on its denominator. -/
theorem reciprocal_eq (e : Evaluator) (f : Func) (x : Float) :
    e.reciprocal f x =
      outcome (if x.abs < e.epsilon then some (.reciprocalSingularity f) else none) (1 / x) := by
  by_cases h : x.abs < e.epsilon <;> simp [reciprocal, isZero, outcome, h]

/-- The machine works a function out as its value and its faults say. -/
theorem applyFunc_eq (e : Evaluator) (f : Func) (x : Float) :
    e.applyFunc f x = outcome (f.fault? e.epsilon x) (f.value x) := by
  cases f with
  | sec => exact e.reciprocal_eq .sec x.cos
  | csc => exact e.reciprocal_eq .csc x.sin
  | cot => exact e.reciprocal_eq .cot x.tan
  | ln => by_cases h : x < e.epsilon <;> simp [applyFunc, Func.fault?, Func.value, outcome, h]
  | _ => rfl

end Evaluator

namespace Expr

variable (e : Evaluator) (values : Array Float)

/-- A tree under a sign, by the operation of the machine. -/
theorem eval_sign (s : Sign) (t : Expr) :
    (sign s t).eval e values = (t.eval e values).map (Evaluator.applySign s) := by
  rw [eval]
  cases t.eval e values with
  | error err => rfl
  | ok x => exact congrArg Except.ok (Evaluator.applySign_eq s x).symm

/-- Two trees under a binary operator, by the operation of the machine. -/
theorem eval_binary (op : BinOp) (l r : Expr) :
    (binary op l r).eval e values =
      (l.eval e values).bind fun x => (r.eval e values).bind (e.applyBinary op x) := by
  simp only [eval, funext (e.applyBinary_eq op _)]
  rfl

/-- A tree under a function, by the operation of the machine. -/
theorem eval_apply (f : Func) (t : Expr) :
    (apply f t).eval e values = (t.eval e values).bind (e.applyFunc f) := by
  rw [eval, funext (e.applyFunc_eq f)]
  rfl

end Expr

namespace Evaluator

/-! ## The values of trees -/

/-- The tokens of a tree put its value on the stack, and fail as it fails. -/
theorem afterAll_postOrder (e : Evaluator) (values : Array Float) (t : Expr)
    (xs : List Float) :
    e.afterAll values t.postOrder xs = (t.eval e values).map (· :: xs) := by
  induction t generalizing xs with
  | number x => rfl
  | var index =>
    rw [Expr.postOrder, afterAll_singleton]
    cases h : values[index]? with
    | none => simp only [after_var_none e values xs h, Expr.eval, h, Except.map]
    | some x => simp only [after_var_some e values xs h, Expr.eval, h, Except.map]
  | sign s operand ih =>
    rw [Expr.postOrder, afterAll_append, ih, Expr.eval_sign]
    cases operand.eval e values with
    | error err => rfl
    | ok x => cases s <;> rfl
  | binary op lhs rhs ihl ihr =>
    rw [Expr.postOrder, afterAll_append, ihl, Expr.eval_binary]
    cases lhs.eval e values with
    | error err => rfl
    | ok x =>
      simp only [Except.map, Except.bind, afterAll_append, ihr]
      cases rhs.eval e values with
      | error err => rfl
      | ok y => simp only [afterAll_singleton, after_binary, Except.map]
  | apply f argument ih =>
    rw [Expr.postOrder, afterAll_append, ih, Expr.eval_apply]
    cases argument.eval e values with
    | error err => rfl
    | ok x => simp only [Except.map, Except.bind, afterAll_singleton, after_func]

/-- The tokens of a tree have the value of the tree. -/
theorem evaluate_postOrder (e : Evaluator) (values : Array Float) (t : Expr) :
    e.evaluate t.postOrder values = t.eval e values := by
  rw [evaluate_eq, afterAll_postOrder]
  cases t.eval e values <;> rfl

end Evaluator

/-! ## Plus signs -/

/-- The tokens that are no plus signs. -/
def withoutPlus (tokens : List Token) : List Token :=
  tokens.filter (· ≠ .sign .pos)

@[simp] theorem withoutPlus_nil : withoutPlus [] = [] := rfl

@[simp] theorem withoutPlus_cons_pos (tokens : List Token) :
    withoutPlus (.sign .pos :: tokens) = withoutPlus tokens := rfl

theorem withoutPlus_cons_of_ne {token : Token} (h : token ≠ .sign .pos) (tokens : List Token) :
    withoutPlus (token :: tokens) = token :: withoutPlus tokens :=
  List.filter_cons_of_pos (by simpa using h)

/-- Plus signs do nothing to the stack. -/
theorem Evaluator.afterAll_withoutPlus (e : Evaluator) (values : Array Float)
    (tokens : List Token) (xs : List Float) :
    e.afterAll values (withoutPlus tokens) xs = e.afterAll values tokens xs := by
  induction tokens generalizing xs with
  | nil => rfl
  | cons token tokens ih =>
    by_cases h : token = .sign .pos
    · rw [h, withoutPlus_cons_pos, ih, afterAll_cons, after_pos]
      rfl
    · rw [withoutPlus_cons_of_ne h, afterAll_cons, afterAll_cons]
      exact congrArg _ (funext ih)

/-- Plus signs have no effect on an evaluation. -/
theorem Evaluator.evaluate_withoutPlus (e : Evaluator) (values : Array Float)
    (tokens : List Token) :
    e.evaluate (withoutPlus tokens) values = e.evaluate tokens values := by
  rw [evaluate_eq, evaluate_eq, afterAll_withoutPlus]

/-! ## The errors of trees -/

/-- Whether an error is one of form: the tokens are the order of no tree, or
commas stand among them. -/
def EvalError.IsStructural : EvalError → Prop
  | malformedExpression | unsupportedComma => True
  | _ => False

/-- Whether an error is one of an operation that has no value. -/
def EvalError.IsDomain : EvalError → Prop
  | divisionByZero | reciprocalSingularity _ | zeroToZero | logOfNonPositive _ => True
  | _ => False

theorem EvalError.IsDomain.not_isStructural {err : EvalError} (h : err.IsDomain) :
    ¬ err.IsStructural := by
  cases err with
  | malformedExpression | unsupportedComma | variableNotSet _ => exact h.elim
  | _ => exact id

theorem Evaluator.isDomain_of_applyBinary {e : Evaluator} {op : BinOp} {x y : Float}
    {err : EvalError} (h : e.applyBinary op x y = .error err) : err.IsDomain := by
  cases op with
  | add | sub | mul => cases h
  | div | pow =>
    simp only [applyBinary] at h
    split at h
    · cases h
      trivial
    · cases h

theorem Evaluator.isDomain_of_reciprocal {e : Evaluator} {f : Func} {x : Float}
    {err : EvalError} (h : e.reciprocal f x = .error err) : err.IsDomain := by
  unfold reciprocal at h
  split at h
  · cases h
    trivial
  · cases h

theorem Evaluator.isDomain_of_applyFunc {e : Evaluator} {f : Func} {x : Float}
    {err : EvalError} (h : e.applyFunc f x = .error err) : err.IsDomain := by
  cases f with
  | sec | csc | cot => exact isDomain_of_reciprocal h
  | ln =>
    simp only [applyFunc] at h
    split at h
    · cases h
      trivial
    · cases h
  | _ => cases h

/-- The form of a tree is never at fault. -/
theorem Expr.not_isStructural_of_eval {e : Evaluator} {values : Array Float} {t : Expr}
    {err : EvalError} (h : t.eval e values = .error err) : ¬ err.IsStructural := by
  induction t generalizing err with
  | number x => cases h
  | var index =>
    rw [eval] at h
    split at h
    · cases h
    · cases h
      exact id
  | sign s operand ih =>
    rw [eval_sign] at h
    exact ih (map_eq_error.1 h)
  | binary op lhs rhs ihl ihr =>
    rw [eval_binary] at h
    obtain hl | ⟨x, -, h⟩ := bind_eq_error.1 h
    · exact ihl hl
    obtain hr | ⟨y, -, h⟩ := bind_eq_error.1 h
    · exact ihr hr
    · exact (Evaluator.isDomain_of_applyBinary h).not_isStructural
  | apply f argument ih =>
    rw [eval_apply] at h
    obtain ha | ⟨x, -, h⟩ := bind_eq_error.1 h
    · exact ih ha
    · exact (Evaluator.isDomain_of_applyFunc h).not_isStructural

end Formula
