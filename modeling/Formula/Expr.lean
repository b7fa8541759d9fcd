import Formula.Evaluator

/-!
# Formula.Expr

Expressions as trees, with the value of a tree and the order in which a stack
machine works it out.

* `BinOp.value`, `Sign.value`, `Func.value` — what the operations compute;
* `BinOp.fault?`, `Func.fault?` — where an operation has no value, and the
  error that says so;
* `Expr.eval` — operands before their operator, the left one first, and the
  first error met is the outcome;
* `Expr.postOrder` — the tokens of the tree, every operator after its
  operands.

The operations are written out here once more, apart from those of the
machine, so that a tree says by itself what it is worth.
-/

namespace Formula

/-! ## Operations -/

/-- The value of a binary operator. -/
def BinOp.value : BinOp → Float → Float → Float
  | add, x, y => x + y
  | sub, x, y => x - y
  | mul, x, y => x * y
  | div, x, y => x / y
  | pow, x, y => x.pow y

/-- What speaks against a binary operator at two operands, where magnitudes
below `epsilon` count as zero. -/
def BinOp.fault? (epsilon : Float) : BinOp → Float → Float → Option EvalError
  | add, _, _ | sub, _, _ | mul, _, _ => none
  | div, _, y => if y.abs < epsilon then some .divisionByZero else none
  | pow, x, y => if x.abs < epsilon ∧ y.abs < epsilon then some .zeroToZero else none

/-- The value of a sign. -/
def Sign.value : Sign → Float → Float
  | neg, x => -x
  | pos, x => x

/-- The value of a function. -/
def Func.value : Func → Float → Float
  | sin, x => x.sin
  | cos, x => x.cos
  | tan, x => x.tan
  | sec, x => 1 / x.cos
  | csc, x => 1 / x.sin
  | cot, x => 1 / x.tan
  | asin, x => x.asin
  | acos, x => x.acos
  | atan, x => x.atan
  | sinh, x => x.sinh
  | cosh, x => x.cosh
  | tanh, x => x.tanh
  | ln, x => x.log

/-- What speaks against a function at its argument, where magnitudes below
`epsilon` count as zero.  A logarithm needs an argument that is not below
`epsilon` at all. -/
def Func.fault? (epsilon : Float) : Func → Float → Option EvalError
  | sec, x => if x.cos.abs < epsilon then some (.reciprocalSingularity sec) else none
  | csc, x => if x.sin.abs < epsilon then some (.reciprocalSingularity csc) else none
  | cot, x => if x.tan.abs < epsilon then some (.reciprocalSingularity cot) else none
  | ln, x => if x < epsilon then some (.logOfNonPositive x) else none
  | sin, _ | cos, _ | tan, _ | asin, _ | acos, _ | atan, _ | sinh, _ | cosh, _ | tanh, _ => none

/-- The outcome of an operation: its value, unless something speaks against
it. -/
def outcome (fault : Option EvalError) (value : Float) : Except EvalError Float :=
  match fault with
  | some err => .error err
  | none => .ok value

/-! ## Trees -/

/-- An expression. -/
inductive Expr
  | number (value : Float)
  | var (index : Nat)
  | sign (s : Sign) (operand : Expr)
  | binary (op : BinOp) (lhs rhs : Expr)
  | apply (f : Func) (argument : Expr)
  deriving DecidableEq

namespace Expr

/-- The value of an expression, where `x[i]` is `values[i]`. -/
def eval (e : Evaluator) (values : Array Float) : Expr → Except EvalError Float
  | number x => .ok x
  | var index =>
    match values[index]? with
    | some x => .ok x
    | none => .error (.variableNotSet index)
  | sign s operand => return s.value (← operand.eval e values)
  | binary op lhs rhs => do
    let x ← lhs.eval e values
    let y ← rhs.eval e values
    outcome (op.fault? e.epsilon x y) (op.value x y)
  | apply f argument => do
    let x ← argument.eval e values
    outcome (f.fault? e.epsilon x) (f.value x)

/-- The tokens of an expression in reverse Polish order. -/
def postOrder : Expr → List Token
  | number x => [.number x]
  | var index => [.var index]
  | sign s operand => operand.postOrder ++ [.sign s]
  | binary op lhs rhs => lhs.postOrder ++ (rhs.postOrder ++ [.binary op])
  | apply f argument => argument.postOrder ++ [.func f]

/-- Whether a plus sign stands somewhere in the expression. -/
def hasPlus : Expr → Bool
  | number _ | var _ => false
  | sign .pos _ => true
  | sign .neg operand => operand.hasPlus
  | binary _ lhs rhs => lhs.hasPlus || rhs.hasPlus
  | apply _ argument => argument.hasPlus

/-- No expression is without tokens. -/
theorem postOrder_ne_nil (t : Expr) : t.postOrder ≠ [] := by
  cases t <;> simp [postOrder]

end Expr

end Formula
