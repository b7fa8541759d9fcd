import Formula.Setting
import Formula.Token

/-!
# Formula.Evaluator

Working out tokens in reverse Polish order on a stack of operands.

Operations without a value are reported and never computed: a divisor, a base
together with its exponent, or a denominator counts as zero when its magnitude
is below the threshold of the evaluator, and a logarithm needs an argument
that is not below it.

* `Evaluator.applyBinary`, `applySign`, `applyFunc` — the operations;
* `Evaluator.step`, `steps`, `run` — the machine, which may be left with
  operands on its stack when it fails;
* `Evaluator.evaluate`, `evaluateOn`, `evaluateBatch` — whole evaluations,
  each of which begins with an empty stack.
-/

namespace Formula

/-! ## Errors -/

/-- Why a formula has no value. -/
inductive EvalError
  | divisionByZero
  | reciprocalSingularity (f : Func)
  | zeroToZero
  | logOfNonPositive (value : Float)
  | malformedExpression
  | variableNotSet (index : Nat)
  | unsupportedComma
  deriving DecidableEq

/-- The error in words. -/
def EvalError.message : EvalError → String
  | divisionByZero => "division by zero"
  | reciprocalSingularity f => "division by zero while evaluating " ++ f.name
  | zeroToZero => "0^0 is undefined"
  | logOfNonPositive value => "ln of non-positive value " ++ plainText value
  | malformedExpression => "malformed expression"
  | variableNotSet index =>
    s!"variable x[{index}] is not set; was a shorter value array supplied?"
  | unsupportedComma => "commas are not supported: functions take a single argument"

/-! ## Evaluators -/

/-- An evaluator, which is the threshold below which a magnitude counts as
zero. -/
structure Evaluator where
  epsilon : Float
  isFinite : epsilon.isFinite = true
  nonneg : ¬ epsilon < 0

namespace Evaluator

/-- The threshold of an evaluator for which none is asked. -/
def defaultEpsilon : Float := 1e-10

/-- The evaluator with the default threshold. -/
def default : Evaluator := ⟨defaultEpsilon, by decide +kernel, by decide +kernel⟩

instance : Inhabited Evaluator := ⟨default⟩

/-- The evaluator of a given threshold, which has to be finite and not below
zero. -/
def ofEpsilon (epsilon : Float) : Except SettingError Evaluator :=
  if h : epsilon.isFinite = true ∧ ¬ epsilon < 0 then .ok ⟨epsilon, h.1, h.2⟩
  else .error (.invalidEpsilon epsilon)

/-! ## Operations -/

/-- Whether a value counts as zero. -/
def isZero (e : Evaluator) (x : Float) : Bool := x.abs < e.epsilon

/-- The value of a binary operator. -/
def applyBinary (e : Evaluator) (op : BinOp) (lhs rhs : Float) : Except EvalError Float :=
  match op with
  | .add => .ok (lhs + rhs)
  | .sub => .ok (lhs - rhs)
  | .mul => .ok (lhs * rhs)
  | .div => if e.isZero rhs then .error .divisionByZero else .ok (lhs / rhs)
  | .pow => if e.isZero lhs && e.isZero rhs then .error .zeroToZero else .ok (lhs.pow rhs)

/-- The value of a sign. -/
def applySign : Sign → Float → Float
  | .neg, x => -x
  | .pos, x => x

/-- The reciprocal of a denominator that the function `f` divides by. -/
def reciprocal (e : Evaluator) (f : Func) (denominator : Float) : Except EvalError Float :=
  if e.isZero denominator then .error (.reciprocalSingularity f) else .ok (1 / denominator)

/-- The value of a function. -/
def applyFunc (e : Evaluator) (f : Func) (x : Float) : Except EvalError Float :=
  match f with
  | .sin => .ok x.sin
  | .cos => .ok x.cos
  | .tan => .ok x.tan
  | .sec => e.reciprocal f x.cos
  | .csc => e.reciprocal f x.sin
  | .cot => e.reciprocal f x.tan
  | .asin => .ok x.asin
  | .acos => .ok x.acos
  | .atan => .ok x.atan
  | .sinh => .ok x.sinh
  | .cosh => .ok x.cosh
  | .tanh => .ok x.tanh
  | .ln => if x < e.epsilon then .error (.logOfNonPositive x) else .ok x.log

end Evaluator

/-! ## The machine -/

/-- The operands that wait for an operator, the newest first. -/
structure OperandStack where
  values : List Float := []
  deriving DecidableEq

/-- A computation on the operand stack.  What it did to the stack stays done
when it fails. -/
abbrev Machine := EStateM EvalError OperandStack

namespace Machine

/-- Put an operand on the stack. -/
def push (x : Float) : Machine Unit :=
  modify fun s => ⟨x :: s.values⟩

/-- Take the newest operand from the stack. -/
def pop : Machine Float := do
  match (← get).values with
  | [] => throw .malformedExpression
  | x :: rest =>
    set (OperandStack.mk rest)
    return x

/-- Put the outcome of an operation on the stack. -/
def pushResult : Except EvalError Float → Machine Unit
  | .ok x => push x
  | .error err => throw err

@[simp] theorem push_apply (x : Float) (s : OperandStack) :
    push x s = .ok () ⟨x :: s.values⟩ := rfl

@[simp] theorem pop_nil : pop ⟨[]⟩ = .error .malformedExpression ⟨[]⟩ := rfl

@[simp] theorem pop_cons (x : Float) (xs : List Float) : pop ⟨x :: xs⟩ = .ok x ⟨xs⟩ := rfl

end Machine

namespace Evaluator

open Machine

/-- Work out one token.  A plus sign changes nothing, so it asks for no
operand. -/
def step (e : Evaluator) (values : Array Float) : Token → Machine Unit
  | .number x => push x
  | .var index =>
    match values[index]? with
    | some x => push x
    | none => throw (.variableNotSet index)
  | .binary op => do
    let rhs ← pop
    let lhs ← pop
    pushResult (e.applyBinary op lhs rhs)
  | .sign .neg => do
    let x ← pop
    push (applySign .neg x)
  | .sign .pos => pure ()
  | .func f => do
    let x ← pop
    pushResult (e.applyFunc f x)
  | .comma => throw .unsupportedComma
  | .leftParen | .rightParen => throw .malformedExpression

/-- Work out tokens one after the other. -/
def steps (e : Evaluator) (values : Array Float) : List Token → Machine Unit
  | [] => pure ()
  | token :: tokens => do
    e.step values token
    e.steps values tokens

/-- Work out all tokens; they must leave exactly one operand. -/
def run (e : Evaluator) (tokens : List Token) (values : Array Float) : Machine Float := do
  e.steps values tokens
  let result ← pop
  unless (← get).values.isEmpty do
    throw .malformedExpression
  return result

/-! ## Whole evaluations -/

/-- Evaluate on a stack that has been used before, after clearing it: the
outcome, and what is then left on the stack. -/
def evaluateOn (e : Evaluator) (tokens : List Token) (values : Array Float)
    (stack : OperandStack) : Except EvalError Float × OperandStack :=
  match (do set (OperandStack.mk []); e.run tokens values : Machine Float) stack with
  | .ok x stack => (.ok x, stack)
  | .error err stack => (.error err, stack)

/-- The value of tokens in reverse Polish order, where `x[i]` is `values[i]`. -/
def evaluate (e : Evaluator) (tokens : List Token) (values : Array Float) :
    Except EvalError Float :=
  (e.evaluateOn tokens values ⟨[]⟩).1

/-- The values for several rows, one after the other on one stack. -/
def evaluateRows (e : Evaluator) (tokens : List Token) (stack : OperandStack) :
    List (Array Float) → List (Except EvalError Float)
  | [] => []
  | values :: rows =>
    let (outcome, stack) := e.evaluateOn tokens values stack
    outcome :: e.evaluateRows tokens stack rows

/-- The values for several rows. -/
def evaluateBatch (e : Evaluator) (tokens : List Token) (rows : List (Array Float)) :
    List (Except EvalError Float) :=
  e.evaluateRows tokens ⟨[]⟩ rows

/-! ## The machine step by step -/

@[simp] theorem steps_nil (e : Evaluator) (values : Array Float) (s : OperandStack) :
    e.steps values [] s = .ok () s := rfl

theorem steps_cons (e : Evaluator) (values : Array Float) (token : Token) (tokens : List Token)
    (s : OperandStack) :
    e.steps values (token :: tokens) s =
      match e.step values token s with
      | .ok _ s => e.steps values tokens s
      | .error err s => .error err s := by
  simp only [steps, bind, EStateM.bind]
  cases e.step values token s <;> rfl

/-- Tokens one after the other are worked out one after the other. -/
theorem steps_append (e : Evaluator) (values : Array Float) (ts us : List Token)
    (s : OperandStack) :
    e.steps values (ts ++ us) s =
      match e.steps values ts s with
      | .ok _ s => e.steps values us s
      | .error err s => .error err s := by
  induction ts generalizing s with
  | nil => rfl
  | cons token ts ih =>
    simp only [List.cons_append, steps_cons]
    cases e.step values token s with
    | ok _ s => exact ih s
    | error err s => rfl

/-- What an earlier evaluation left on the stack does not matter. -/
theorem evaluateOn_eq (e : Evaluator) (tokens : List Token) (values : Array Float)
    (stack : OperandStack) :
    e.evaluateOn tokens values stack = e.evaluateOn tokens values ⟨[]⟩ := rfl

end Evaluator

end Formula
