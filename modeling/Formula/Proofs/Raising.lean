import Formula.Proofs.Machine
import Formula.Proofs.Ranking

/-!
# Formula.Proofs.Raising

What becomes of an evaluation when the threshold of the evaluator is raised.

Two evaluators work out the same tokens side by side.  Their stacks stay equal
until the one with the higher threshold refuses an operation, and then it has
stopped.

* `SameOrRefused` — how an outcome may differ for the higher threshold;
* `SameOrRefused.bind` — such outcomes one after the other are such an outcome;
* `isZero_of_le`, `after_raise`, `afterAll_raise` — zeros, one token, tokens one
  after the other;
* `evaluate_raise` — a higher threshold only turns values into errors, and two
  evaluators never give different values.
-/

namespace Formula

/-- Whether an outcome is the same with a higher threshold, or an operation is
refused as having no value. -/
def SameOrRefused {α : Type} (lower higher : Except EvalError α) : Prop :=
  higher = lower ∨ ∃ err : EvalError, err.IsDomain ∧ higher = .error err

namespace SameOrRefused

variable {α β : Type} {lower higher : Except EvalError α}

theorem same : SameOrRefused lower lower := .inl rfl

theorem refused {err : EvalError} (h : err.IsDomain) : SameOrRefused lower (.error err) :=
  .inr ⟨err, h, rfl⟩

/-- Steps one after the other keep in step. -/
theorem bind {f g : α → Except EvalError β} (h : SameOrRefused lower higher)
    (hfg : ∀ a, SameOrRefused (f a) (g a)) :
    SameOrRefused (lower.bind f) (higher.bind g) := by
  obtain h | ⟨err, hdomain, h⟩ := h
  · subst h
    cases higher with
    | error err => exact same
    | ok a => exact hfg a
  · subst h
    exact refused hdomain

/-- So does a result that is only rearranged. -/
theorem map {f : α → β} (h : SameOrRefused lower higher) :
    SameOrRefused (lower.map f) (higher.map f) := by
  obtain h | ⟨err, hdomain, h⟩ := h
  · subst h
    exact same
  · subst h
    exact refused hdomain

/-- Where an operation is refused with the lower threshold it is refused with the
higher, and the lower may let it pass. -/
theorem guard {p q : Prop} [Decidable p] [Decidable q] (err : EvalError)
    (h : err.IsDomain) (r : Except EvalError α) (hpq : p → q) :
    SameOrRefused (if p then .error err else r) (if q then .error err else r) := by
  by_cases hq : q
  · rw [if_pos hq]
    exact refused h
  · rw [if_neg hq, if_neg fun hp => hq (hpq hp)]
    exact same

/-- A value for the higher threshold is the value for the lower. -/
theorem eq_ok {a : α} (h : SameOrRefused lower higher) (ha : higher = .ok a) :
    lower = .ok a := by
  obtain h | ⟨err, -, h⟩ := h
  · exact h.symm.trans ha
  · simp [h] at ha

/-- An error for the lower threshold leaves no value for the higher. -/
theorem exists_eq_error {err : EvalError} (h : SameOrRefused lower higher)
    (herr : lower = .error err) : ∃ err', higher = .error err' := by
  obtain h | ⟨err', -, h⟩ := h
  · exact ⟨err, h.trans herr⟩
  · exact ⟨err', h⟩

end SameOrRefused

namespace Evaluator

variable {e e' : Evaluator}

/-! ## Operations -/

/-- What counts as zero goes on to count as zero. -/
theorem isZero_of_le (he : e.epsilon ≤ e'.epsilon) {x : Float} (hx : e.isZero x = true) :
    e'.isZero x = true :=
  decide_eq_true (lt_of_lt_le (of_decide_eq_true hx) he)

theorem isZero_and_of_le (he : e.epsilon ≤ e'.epsilon) {x y : Float}
    (hxy : (e.isZero x && e.isZero y) = true) : (e'.isZero x && e'.isZero y) = true := by
  rw [Bool.and_eq_true] at hxy ⊢
  exact hxy.imp (isZero_of_le he) (isZero_of_le he)

theorem applyBinary_raise (he : e.epsilon ≤ e'.epsilon) (op : BinOp) (x y : Float) :
    SameOrRefused (e.applyBinary op x y) (e'.applyBinary op x y) := by
  cases op with
  | add | sub | mul => exact .same
  | div => exact .guard .divisionByZero trivial _ (isZero_of_le he)
  | pow => exact .guard .zeroToZero trivial _ (isZero_and_of_le he)

theorem reciprocal_raise (he : e.epsilon ≤ e'.epsilon) (f : Func) (x : Float) :
    SameOrRefused (e.reciprocal f x) (e'.reciprocal f x) :=
  .guard (.reciprocalSingularity f) trivial _ (isZero_of_le he)

theorem applyFunc_raise (he : e.epsilon ≤ e'.epsilon) (f : Func) (x : Float) :
    SameOrRefused (e.applyFunc f x) (e'.applyFunc f x) := by
  cases f with
  | sec | csc | cot => exact reciprocal_raise he _ _
  | ln => exact .guard (.logOfNonPositive x) trivial _ fun hx => lt_of_lt_le hx he
  | _ => exact .same

/-! ## The machine -/

variable {values : Array Float}

/-- One token leaves equal stacks equal, or is refused. -/
theorem after_raise (he : e.epsilon ≤ e'.epsilon) (token : Token) (xs : List Float) :
    SameOrRefused (e.after values token xs) (e'.after values token xs) := by
  cases token with
  | binary op =>
    match xs with
    | [] | [_] => simp [SameOrRefused.same]
    | y :: x :: xs =>
      rw [after_binary, after_binary]
      exact (applyBinary_raise he op x y).map
  | func f =>
    match xs with
    | [] => simp [SameOrRefused.same]
    | x :: xs =>
      rw [after_func, after_func]
      exact (applyFunc_raise he f x).map
  | sign s =>
    cases s with
    | pos => simp [SameOrRefused.same]
    | neg => cases xs <;> simp [SameOrRefused.same]
  | _ => exact .same

/-- So do tokens one after the other. -/
theorem afterAll_raise (he : e.epsilon ≤ e'.epsilon) (tokens : List Token) (xs : List Float) :
    SameOrRefused (e.afterAll values tokens xs) (e'.afterAll values tokens xs) := by
  induction tokens generalizing xs with
  | nil => exact .same
  | cons token tokens ih =>
    rw [afterAll_cons, afterAll_cons]
    exact (after_raise he token xs).bind ih

/-- The outcome is the same with a higher threshold, or an operation is refused. -/
theorem sameOrRefused_evaluate (he : e.epsilon ≤ e'.epsilon) (tokens : List Token)
    (values : Array Float) :
    SameOrRefused (e.evaluate tokens values) (e'.evaluate tokens values) := by
  rw [evaluate_eq, evaluate_eq]
  exact (afterAll_raise he tokens []).bind fun _ => .same

/-- Of two evaluators one has a threshold at least as high as the other. -/
theorem epsilon_le_or_le (e e' : Evaluator) : e.epsilon ≤ e'.epsilon ∨ e'.epsilon ≤ e.epsilon :=
  le_or_le_of_isFinite e.isFinite e'.isFinite

/-- **A higher threshold only turns values into errors.**  Of two evaluators, the one
with the higher threshold has the outcome of the other or refuses an operation; so
its values are values of the other, and where the other fails it fails.  Two
evaluators that both find a value find the same, whichever has the higher
threshold. -/
theorem evaluate_raise (tokens : List Token) (values : Array Float) :
    (∀ e e' : Evaluator, e.epsilon ≤ e'.epsilon →
      SameOrRefused (e.evaluate tokens values) (e'.evaluate tokens values) ∧
        (∀ x, e'.evaluate tokens values = .ok x → e.evaluate tokens values = .ok x) ∧
        ∀ err, e.evaluate tokens values = .error err →
          ∃ err', e'.evaluate tokens values = .error err') ∧
      ∀ (e e' : Evaluator) (x x' : Float), e.evaluate tokens values = .ok x →
        e'.evaluate tokens values = .ok x' → x = x' := by
  refine ⟨fun e e' he => ?_, fun e e' x x' hx hx' => ?_⟩
  · have hsame := sameOrRefused_evaluate he tokens values
    exact ⟨hsame, fun x => hsame.eq_ok, fun err => hsame.exists_eq_error⟩
  · obtain he | he := epsilon_le_or_le e e'
    · have hlower := (sameOrRefused_evaluate he tokens values).eq_ok hx'
      exact Except.ok.inj (hx.symm.trans hlower)
    · have hlower := (sameOrRefused_evaluate he tokens values).eq_ok hx
      exact Except.ok.inj (hlower.symm.trans hx')

/-- An evaluator for which whatever is below one counts as zero. -/
def coarse : Evaluator := ⟨1, by decide +kernel, by decide +kernel⟩

/-- The quotient of one and two passes the threshold one, so it has the same value
with the default threshold.  The logarithm of zero is refused with the default
threshold, and so with the threshold one. -/
theorem evaluate_raise_coarse :
    Evaluator.default.epsilon ≤ coarse.epsilon ∧
      coarse.evaluate [.number 1, .number 2, .binary .div] #[] = .ok (1 / 2) ∧
      Evaluator.default.evaluate [.number 1, .number 2, .binary .div] #[] = .ok (1 / 2) ∧
      Evaluator.default.evaluate [.number 0, .func .ln] #[] = .error (.logOfNonPositive 0) ∧
      ∃ err, coarse.evaluate [.number 0, .func .ln] #[] = .error err := by
  have hle : Evaluator.default.epsilon ≤ coarse.epsilon := by decide +kernel
  have htwo : coarse.isZero 2 = false := by decide +kernel
  have hvalue : coarse.evaluate [.number 1, .number 2, .binary .div] #[] = .ok (1 / 2) := by
    rw [evaluate_eq_ok_iff]
    simp [afterAll_cons, Except.bind, Except.map, applyBinary, htwo]
  have hzero : (0 : Float) < Evaluator.default.epsilon := by decide +kernel
  have herror : Evaluator.default.evaluate [.number 0, .func .ln] #[] =
      .error (.logOfNonPositive 0) := by
    rw [evaluate_eq]
    simp [afterAll_cons, Except.bind, Except.map, applyFunc, hzero]
  exact ⟨hle, hvalue, ((evaluate_raise _ #[]).1 _ _ hle).2.1 _ hvalue, herror,
    ((evaluate_raise _ #[]).1 _ _ hle).2.2 _ herror⟩

end Evaluator

end Formula
