import Formula.Compiled
import Formula.Proofs.Machine
import Formula.Proofs.Ranking

/-!
# Formula.Proofs.Threshold

Which thresholds let an evaluator report every operation that has no value.

* `Undefined` — the operations without a value, and the error of each;
* `after_of_undefined` — with a threshold above zero the machine stops there
  with that error;
* `reports_iff` — so an evaluator reports them all exactly when its threshold
  is above zero, and the logarithms of negative numbers in any case;
* `exists_quotient_by_zero` — the threshold zero is admitted, and with it a
  number is divided by zero.
-/

namespace Formula

/-- `Undefined token xs err`: the operation of the token has no value for the
newest operands of the stack `xs`, which is what the error `err` says. -/
inductive Undefined : Token → List Float → EvalError → Prop
  | quotient {x y : Float} {xs : List Float} :
    y == 0 → Undefined (.binary .div) (y :: x :: xs) .divisionByZero
  | power {x y : Float} {xs : List Float} :
    x == 0 → y == 0 → Undefined (.binary .pow) (y :: x :: xs) .zeroToZero
  | logarithm {x : Float} {xs : List Float} :
    x == 0 ∨ x < 0 → Undefined (.func .ln) (x :: xs) (.logOfNonPositive x)
  | secant {x : Float} {xs : List Float} :
    x.cos == 0 → Undefined (.func .sec) (x :: xs) (.reciprocalSingularity .sec)
  | cosecant {x : Float} {xs : List Float} :
    x.sin == 0 → Undefined (.func .csc) (x :: xs) (.reciprocalSingularity .csc)
  | cotangent {x : Float} {xs : List Float} :
    x.tan == 0 → Undefined (.func .cot) (x :: xs) (.reciprocalSingularity .cot)

namespace Evaluator

variable {e : Evaluator} {values : Array Float} {token : Token} {tokens rest : List Token}
  {x : Float} {xs : List Float} {err : EvalError}

/-! ## One operation -/

/-- A zero counts as zero where anything does. -/
theorem isZero_of_beq_zero (he : 0 < e.epsilon) (hx : x == 0) : e.isZero x = true :=
  decide_eq_true (lt_of_beq_zero (abs_beq_zero hx) he)

/-- A negative number is below the threshold of every evaluator. -/
theorem lt_epsilon_of_lt_zero (e : Evaluator) (hx : x < 0) : x < e.epsilon :=
  lt_of_lt_zero hx e.nonneg e.isFinite

theorem reciprocal_eq_error (f : Func) (h : e.isZero x = true) :
    e.reciprocal f x = .error (.reciprocalSingularity f) := by
  rw [reciprocal, if_pos h]

theorem applyFunc_ln_eq_error (h : x < e.epsilon) :
    e.applyFunc .ln x = .error (.logOfNonPositive x) := by
  simp only [applyFunc, if_pos h]

/-- The machine stops at an operation without a value. -/
theorem after_of_undefined (he : 0 < e.epsilon) (h : Undefined token xs err) :
    e.after values token xs = .error err := by
  cases h with
  | quotient hy =>
    rw [after_binary, applyBinary, if_pos (isZero_of_beq_zero he hy)]
    rfl
  | power hx hy =>
    rw [after_binary, applyBinary, isZero_of_beq_zero he hx, isZero_of_beq_zero he hy]
    rfl
  | @logarithm x xs hx =>
    have hbelow : x < e.epsilon := by
      obtain hzero | hneg := hx
      · exact lt_of_beq_zero hzero he
      · exact e.lt_epsilon_of_lt_zero hneg
    rw [after_func, applyFunc_ln_eq_error hbelow]
    rfl
  | secant hx | cosecant hx | cotangent hx =>
    rw [after_func, applyFunc, reciprocal_eq_error _ (isZero_of_beq_zero he hx)]
    rfl

/-! ## Whole evaluations -/

/-- Whether the evaluator reports every operation without a value that it comes
to, whatever stands before and after it. -/
def Reports (e : Evaluator) : Prop :=
  ∀ (values : Array Float) (tokens rest : List Token) (token : Token) (xs : List Float)
    (err : EvalError), e.afterAll values tokens [] = .ok xs → Undefined token xs err →
      e.evaluate (tokens ++ token :: rest) values = .error err

/-- An evaluator for which zero itself does not count as zero divides by
it. -/
theorem evaluate_quotient_by_zero (he : ¬ 0 < e.epsilon) :
    e.evaluate [.number 1, .number 0, .binary .div] values = .ok (1 / 0) := by
  have habs : Float.abs 0 = 0 := by decide +kernel
  have hzero : e.isZero 0 = false := by
    rw [isZero, habs]
    exact decide_eq_false he
  rw [evaluate_eq_ok_iff, afterAll_cons, after_number, Except.bind, afterAll_cons, after_number,
    Except.bind, afterAll_singleton, after_binary, applyBinary, hzero]
  rfl

/-- **Operations without a value are reported exactly by the evaluators with a
threshold above zero.**  Logarithms of negative numbers are reported by every
evaluator. -/
theorem reports_iff (e : Evaluator) :
    (e.Reports ↔ 0 < e.epsilon) ∧
      ∀ (values : Array Float) (tokens rest : List Token) (x : Float) (xs : List Float),
        e.afterAll values tokens [] = .ok (x :: xs) → x < 0 →
          e.evaluate (tokens ++ .func .ln :: rest) values = .error (.logOfNonPositive x) := by
  refine ⟨⟨?_, ?_⟩, ?_⟩
  · intro hreports
    by_cases he : 0 < e.epsilon
    · exact he
    · have hzero : (0 : Float) == 0 := by decide +kernel
      have herror := hreports #[] [.number 1, .number 0] [] (.binary .div) [0, 1]
        .divisionByZero rfl (.quotient hzero)
      rw [List.cons_append, List.cons_append, List.nil_append,
        evaluate_quotient_by_zero he] at herror
      cases herror
  · intro he values tokens rest token xs err htokens hundefined
    exact evaluate_eq_error_of_after htokens (after_of_undefined he hundefined)
  · intro values tokens rest x xs htokens hx
    refine evaluate_eq_error_of_after htokens ?_
    rw [after_func, applyFunc_ln_eq_error (e.lt_epsilon_of_lt_zero hx)]
    rfl

/-- The threshold zero is admitted, and with it `1/0` is infinite, though its
divisor is a zero. -/
theorem exists_quotient_by_zero :
    ∃ e c, ofEpsilon 0 = .ok e ∧ compile .constant "1/0" = .ok c ∧
      c.tokens = [.number 1, .number 0, .binary .div] ∧
      e.afterAll #[] [.number 1, .number 0] [] = .ok [0, 1] ∧
      Undefined (.binary .div) [0, 1] .divisionByZero ∧
      c.evaluateWith e #[] = .ok (1 / 0) := by
  have hadmitted : (0 : Float).isFinite = true ∧ ¬ (0 : Float) < 0 := by decide +kernel
  have htokens : tokenize .constant "1/0" = .ok [.number 1, .binary .div, .number 0] := by
    have hone : (Decimal.ofLiteral ['1']).toFloat = 1 := by decide +kernel
    have hnull : (Decimal.ofLiteral ['0']).toFloat = 0 := by decide +kernel
    have hnormal : Text.normalise "1/0".toList = ['1', '/', '0'] := by decide +kernel
    have hpieces : Lexeme.split ['1', '/', '0'] =
        [.numeral ['1'], .symbol .slash, .numeral ['0']] := by
      decide +kernel
    rw [tokenize, hnormal, tokenizeNormal, hpieces, ← hone, ← hnull]
    rfl
  refine ⟨⟨0, hadmitted.1, hadmitted.2⟩, ⟨[.number 1, .number 0, .binary .div], .constant⟩,
    dif_pos hadmitted, compile_eq_ok_iff.2 ⟨_, _, htokens, rfl, rfl⟩, rfl, rfl,
    .quotient (by decide +kernel), ?_⟩
  exact evaluate_quotient_by_zero hadmitted.2

end Evaluator

end Formula
