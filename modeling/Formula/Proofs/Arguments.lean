import Formula.Compiled
import Formula.Proofs.Counting
import Formula.Proofs.Ordering
import Formula.Proofs.Symbols

/-!
# Formula.Proofs.Arguments

A call of several arguments is never evaluated.

The comma stays between the arguments when they are brought into order, and it is
reached before anything could be missing on the stack or be left on it.

* `CheckFails` — a variable is looked up that has no value, or an operation has
  none;
* `Stops` — working tokens out ends at a comma, or at a check that fails before
  any comma;
* `Runs` — it ends so, or leaves a stack of the right shape; `Runs.append` puts
  such tokens together;
* `Phrase.runs` — a formula leaves one operand more, and a list of arguments
  always stops;
* `evaluateWith_of_comma` — nothing that has a comma has a value, whatever its
  form;
* `commas_are_reported` — both results.
-/

namespace Formula

/-- A check made on the way fails: no value is set for a variable, or an operation
has no value for the newest operands of the stack. -/
inductive CheckFails (e : Evaluator) (values : Array Float) :
    Token → List Float → EvalError → Prop
  | lookup {index : Nat} {xs : List Float} (h : values[index]? = none) :
    CheckFails e values (.var index) xs (.variableNotSet index)
  | binary {op : BinOp} {x y : Float} {xs : List Float} {err : EvalError}
      (h : e.applyBinary op x y = .error err) : CheckFails e values (.binary op) (y :: x :: xs) err
  | func {f : Func} {x : Float} {xs : List Float} {err : EvalError}
      (h : e.applyFunc f x = .error err) : CheckFails e values (.func f) (x :: xs) err

namespace Evaluator

variable {e : Evaluator} {values : Array Float} {token : Token} {tokens s t before : List Token}
  {xs ys : List Float} {err : EvalError} {P Q : List Float → Prop}

/-! ## Checks -/

/-- The machine stops at a check that fails. -/
theorem after_of_checkFails (h : CheckFails e values token xs err) :
    e.after values token xs = .error err := by
  cases h with
  | lookup h => exact after_var_none e values xs h
  | binary h =>
    rw [after_binary, h]
    rfl
  | func h =>
    rw [after_func, h]
    rfl

/-- A check is none of form. -/
theorem not_isStructural_of_checkFails (h : CheckFails e values token xs err) :
    ¬ err.IsStructural := by
  cases h with
  | lookup h => exact id
  | binary h => exact (isDomain_of_applyBinary h).not_isStructural
  | func h => exact (isDomain_of_applyFunc h).not_isStructural

/-! ## Where working out ends -/

/-- Working tokens out ends at a comma, or at a check that fails before any
comma. -/
inductive Stops (e : Evaluator) (values : Array Float) (xs : List Float) : List Token → Prop
  | comma {before after : List Token} {ys : List Float} (hcomma : .comma ∉ before)
      (hbefore : e.afterAll values before xs = .ok ys) : Stops e values xs (before ++ .comma :: after)
  | check {before after : List Token} {token : Token} {ys : List Float} {err : EvalError}
      (hcomma : .comma ∉ before) (hbefore : e.afterAll values before xs = .ok ys)
      (hcheck : CheckFails e values token ys err) : Stops e values xs (before ++ token :: after)

/-- Working tokens out stops in this way, or there is no comma among them and they
leave a stack with the property. -/
def Runs (e : Evaluator) (values : Array Float) (xs : List Float) (tokens : List Token)
    (P : List Float → Prop) : Prop :=
  Stops e values xs tokens ∨ .comma ∉ tokens ∧ ∃ ys, e.afterAll values tokens xs = .ok ys ∧ P ys

/-- What follows does not matter where working out stops. -/
theorem Stops.append_right (h : Stops e values xs s) (t : List Token) :
    Stops e values xs (s ++ t) := by
  cases h with
  | comma hcomma hbefore =>
    rw [List.append_assoc]
    exact .comma hcomma hbefore
  | check hcomma hbefore hcheck =>
    rw [List.append_assoc]
    exact .check hcomma hbefore hcheck

/-- After tokens that do not stop, what follows stops where it does by itself. -/
theorem Stops.append_left (hcomma : .comma ∉ s) (hs : e.afterAll values s xs = .ok ys)
    (h : Stops e values ys t) : Stops e values xs (s ++ t) := by
  have hboth : ∀ {before : List Token} {zs : List Float}, .comma ∉ before →
      e.afterAll values before ys = .ok zs →
      .comma ∉ s ++ before ∧ e.afterAll values (s ++ before) xs = .ok zs := by
    intro before zs hbefore hzs
    refine ⟨fun hmem => (List.mem_append.1 hmem).elim hcomma hbefore, ?_⟩
    rw [afterAll_append, hs, Except.bind, hzs]
  cases h with
  | comma hbefore hzs =>
    rw [← List.append_assoc]
    exact .comma (hboth hbefore hzs).1 (hboth hbefore hzs).2
  | check hbefore hzs hcheck =>
    rw [← List.append_assoc]
    exact .check (hboth hbefore hzs).1 (hboth hbefore hzs).2 hcheck

/-- Tokens one after the other. -/
theorem Runs.append (hs : Runs e values xs s P) (ht : ∀ ys, P ys → Runs e values ys t Q) :
    Runs e values xs (s ++ t) Q := by
  obtain hstops | ⟨hcomma, ys, hys, hP⟩ := hs
  · exact .inl (hstops.append_right t)
  obtain hstops | ⟨hcomma', zs, hzs, hQ⟩ := ht ys hP
  · exact .inl (hstops.append_left hcomma hys)
  · refine .inr ⟨fun hmem => (List.mem_append.1 hmem).elim hcomma hcomma', zs, ?_, hQ⟩
    rw [afterAll_append, hys, Except.bind, hzs]

/-- Working out stops at a comma. -/
theorem runs_comma (t : List Token) : Runs e values xs (.comma :: t) P := by
  have hstops : Stops e values xs ([] ++ .comma :: t) := .comma (by simp) rfl
  exact .inl hstops

/-- One token, which fails a check or leaves a stack with the property. -/
theorem runs_singleton (hne : token ≠ .comma)
    (h : (∃ err, CheckFails e values token xs err) ∨ ∃ ys, e.after values token xs = .ok ys ∧ P ys) :
    Runs e values xs [token] P := by
  obtain ⟨err, hcheck⟩ | ⟨ys, hys, hP⟩ := h
  · have hstops : Stops e values xs ([] ++ [token]) := .check (by simp) rfl hcheck
    exact .inl hstops
  · exact .inr ⟨by simpa using hne.symm, ys, by rw [afterAll_singleton, hys], hP⟩

/-- A list with one operand more than another. -/
def OneMore (xs ys : List Float) : Prop := ∃ x, ys = x :: xs

theorem runs_operand (a : Operand) : Runs e values xs [a.token] (OneMore xs) := by
  cases a with
  | number x => exact runs_singleton (by simp [Operand.token]) (.inr ⟨_, rfl, x, rfl⟩)
  | var index =>
    refine runs_singleton (by simp [Operand.token]) ?_
    cases hvalue : values[index]? with
    | none => exact .inl ⟨_, .lookup hvalue⟩
    | some x => exact .inr ⟨_, after_var_some e values xs hvalue, x, rfl⟩

theorem runs_sign (s : Sign) (h : OneMore xs ys) : Runs e values ys [.sign s] (OneMore xs) := by
  obtain ⟨x, rfl⟩ := h
  cases s <;> exact runs_singleton (by simp) (.inr ⟨_, rfl, _, rfl⟩)

theorem runs_func (f : Func) (h : OneMore xs ys) : Runs e values ys [.func f] (OneMore xs) := by
  obtain ⟨x, rfl⟩ := h
  refine runs_singleton (by simp) ?_
  cases hvalue : e.applyFunc f x with
  | error err => exact .inl ⟨err, .func hvalue⟩
  | ok y => exact .inr ⟨_, by rw [after_func, hvalue]; rfl, y, rfl⟩

theorem runs_binary (op : BinOp) (h : OneMore xs ys) {zs : List Float} (h' : OneMore ys zs) :
    Runs e values zs [.binary op] (OneMore xs) := by
  obtain ⟨x, rfl⟩ := h
  obtain ⟨y, rfl⟩ := h'
  refine runs_singleton (by simp) ?_
  cases hvalue : e.applyBinary op x y with
  | error err => exact .inl ⟨err, .binary hvalue⟩
  | ok z => exact .inr ⟨_, by rw [after_binary, hvalue]; rfl, z, rfl⟩

/-- Two operands and the operator between them. -/
theorem Runs.binary (op : BinOp) (hs : Runs e values xs s (OneMore xs))
    (ht : ∀ ys, Runs e values ys t (OneMore ys)) :
    Runs e values xs (s ++ (t ++ [.binary op])) (OneMore xs) :=
  hs.append fun ys hys => (ht ys).append fun _ hzs => runs_binary op hys hzs

end Evaluator

open Evaluator

/-! ## Formulas -/

variable {e : Evaluator} {values : Array Float}

/-- What a formula of a level leaves: one operand more.  A list of arguments leaves
nothing, because it never comes to its end. -/
def Level.Leaves : Level → List Float → List Float → Prop
  | arguments, _, _ => False
  | _, xs, ys => OneMore xs ys

/-- A formula fails a check, comes to a comma, or leaves one operand more. -/
theorem Phrase.runs (p : Phrase Operand l) (xs : List Float) :
    Runs e values xs p.postOrder (l.Leaves xs) := by
  induction p generalizing xs with
  | operand a => exact runs_operand a
  | group body ih => exact ih xs
  | apply f argument ih => exact (ih xs).append fun _ hys => runs_func f hys
  | call f arguments ih => exact (ih xs).append fun _ hnone => hnone.elim
  | pair first last ihf _ => exact (ihf xs).append fun _ _ => runs_comma _
  | cons first rest ihf _ => exact (ihf xs).append fun _ _ => runs_comma _
  | ofPrimary p ih | ofFactor p ih | ofTerm p ih => exact ih xs
  | power base exponent ihl ihr => exact (ihl xs).binary .pow ihr
  | sign s body ih => exact (ih xs).append fun _ hys => runs_sign s hys
  | product lhs op rhs ihl ihr => exact (ihl xs).binary op.op ihr
  | sum lhs op rhs ihl ihr => exact (ihl xs).binary op.op ihr

/-- A formula with a comma has one in its order too, which is that of the
derivation. -/
theorem Phrase.toRpn_of_comma (p : Phrase Operand .sum) (hcomma : .comma ∈ p.tokens) :
    toRpn p.tokens = .ok p.postOrder ∧ .comma ∈ p.postOrder := by
  have horder := Rpn.toRpn_eq_ok_iff.2 (Rpn.exists_run_tokens p)
  refine ⟨horder, ?_⟩
  have hmem : .comma ∈ withoutParens p.tokens := List.mem_filter.2 ⟨hcomma, rfl⟩
  exact (List.mem_filter.1 ((Rpn.perm_of_toRpn horder).mem_iff.2 hmem)).1

/-- What stands before the first comma. -/
theorem takeWhile_of_comma {before after : List Token} (hcomma : .comma ∉ before) :
    (before ++ .comma :: after).takeWhile (· ≠ .comma) = before := by
  refine takeWhile_append_of_stop (fun t ht => ?_) (by simp)
  rw [decide_eq_true_eq]
  rintro rfl
  exact hcomma ht

/-- Where working out stops, the evaluation ends at the first comma, or at a check
before it. -/
theorem Evaluator.Stops.outcome {before after : List Token} (hcomma : .comma ∉ before)
    (h : Stops e values [] (before ++ .comma :: after)) :
    (∃ xs, e.afterAll values before [] = .ok xs) ∧
        e.evaluate (before ++ .comma :: after) values = .error .unsupportedComma ∨
      ∃ done token rest xs err, before = done ++ token :: rest ∧
        e.afterAll values done [] = .ok xs ∧ CheckFails e values token xs err ∧
        e.evaluate (before ++ .comma :: after) values = .error err := by
  generalize hout : before ++ .comma :: after = out at h ⊢
  cases h with
  | @comma before' after' ys hcomma' hys =>
    have hsame := congrArg (List.takeWhile (· ≠ .comma)) hout
    rw [takeWhile_of_comma hcomma, takeWhile_of_comma hcomma'] at hsame
    subst hsame
    exact .inl ⟨⟨ys, hys⟩, evaluate_eq_error_of_after hys (after_comma ..)⟩
  | @check done rest token ys err hcomma' hys hcheck =>
    have hne : token ≠ .comma := by
      rintro rfl
      cases hcheck
    refine .inr ⟨done, token, ?_⟩
    obtain ⟨w, rfl, hw⟩ | ⟨w, rfl, hw⟩ := List.append_eq_append_iff.1 hout
    · cases w with
      | nil =>
        cases hw
        exact absurd rfl hne
      | cons t w =>
        cases hw
        exact absurd (List.mem_append_right _ (.head _)) hcomma'
    · cases w with
      | nil =>
        cases hw
        exact absurd rfl hne
      | cons t w =>
        cases hw
        exact ⟨w, ys, err, rfl, hys, hcheck,
          evaluate_eq_error_of_after hys (after_of_checkFails hcheck)⟩

/-! ## Whole texts -/

/-- The outcome of a text with a comma is an error, whatever its form. -/
theorem evaluateWith_of_comma {mode : VarMode} {text : String} {c : Compiled}
    (hcomma : ',' ∈ text.toList) (hcompile : compile mode text = .ok c) (e : Evaluator)
    (values : Array Float) : ∃ err, c.evaluateWith e values = .error err := by
  obtain ⟨tokens, out, htokens, hout, rfl⟩ := compile_eq_ok_iff.1 hcompile
  obtain ⟨i, hi⟩ := List.getElem?_of_mem hcomma
  obtain ⟨previous, htoken⟩ := exists_token_of_symbol (s := .comma) htokens hi
  cases hvalue : e.evaluate out values with
  | error err => exact ⟨err, hvalue⟩
  | ok x =>
    exact absurd (List.mem_of_getElem? htoken) (addsUp_of_evaluate hout hvalue).comma_not_mem

/-- **Calls of several arguments are reported.**  A text with a comma, if it compiles
at all, has no value for any evaluator and any values of the variables.  The order
of a formula of the grammar with a comma has one too, and its evaluation ends there
with the error for commas, unless a variable before the first comma has no value or
an operation before it has none, which is then the error; its form is never at
fault. -/
theorem commas_are_reported :
    (∀ (mode : VarMode) (text : String) (c : Compiled), ',' ∈ text.toList →
      compile mode text = .ok c → ∀ (e : Evaluator) (values : Array Float),
        ∃ err, c.evaluateWith e values = .error err) ∧
    ∀ p : Phrase Operand .sum, .comma ∈ p.tokens →
      ∃ before after, toRpn p.tokens = .ok (before ++ .comma :: after) ∧ .comma ∉ before ∧
        ∀ (e : Evaluator) (values : Array Float),
          e.evaluate (before ++ .comma :: after) values ≠ .error .malformedExpression ∧
          ((∃ xs, e.afterAll values before [] = .ok xs) ∧
              e.evaluate (before ++ .comma :: after) values = .error .unsupportedComma ∨
            ∃ done token rest xs err, before = done ++ token :: rest ∧
              e.afterAll values done [] = .ok xs ∧ CheckFails e values token xs err ∧
              e.evaluate (before ++ .comma :: after) values = .error err) := by
  refine ⟨fun mode text c hcomma hcompile => evaluateWith_of_comma hcomma hcompile, ?_⟩
  intro p hcomma
  obtain ⟨horder, hmem⟩ := p.toRpn_of_comma hcomma
  obtain ⟨before, after, heq, hbefore⟩ := List.eq_append_cons_of_mem hmem
  rw [heq] at horder
  refine ⟨before, after, horder, hbefore, fun e values => ?_⟩
  have hstops : Stops e values [] (before ++ .comma :: after) := by
    have hruns : Runs e values [] p.postOrder (Level.Leaves _ []) := p.runs []
    obtain hstops | ⟨hnone, -⟩ := hruns
    · rwa [heq] at hstops
    · exact absurd hmem hnone
  have houtcome := hstops.outcome hbefore
  refine ⟨fun hform => ?_, houtcome⟩
  obtain ⟨-, hvalue⟩ | ⟨_, _, _, _, err, -, -, hcheck, hvalue⟩ := houtcome
  · rw [hform] at hvalue
    cases hvalue
  · rw [hform] at hvalue
    cases hvalue
    exact not_isStructural_of_checkFails hcheck trivial

/-- The formula `x[0]+sin(x[1]/x[2],x[3])`. -/
def sineOfTwo : Phrase Operand .sum :=
  .sum (.ofTerm (.ofFactor (.ofPrimary (.operand (.var 0))))) .add
    (.ofFactor (.ofPrimary (.call .sin (.pair
      (.ofTerm (.product (.ofFactor (.ofPrimary (.operand (.var 1)))) .div
        (.ofPrimary (.operand (.var 2)))))
      (.ofTerm (.ofFactor (.ofPrimary (.operand (.var 3)))))))))

/-- Its order up to the comma. -/
def sineOfTwoBefore : List Token := [.var 0, .var 1, .var 2, .binary .div]

/-- A text with a comma has no value; a sine of two arguments ends at the comma, or at
a variable or the quotient before it. -/
theorem commas_are_reported_sine :
    ',' ∈ "x + SIN(x/x, X)".toList ∧ .comma ∈ sineOfTwo.tokens ∧
    (∃ c, compile .scalar "x + SIN(x/x, X)" = .ok c ∧
      ∀ (e : Evaluator) (values : Array Float), ∃ err, c.evaluateWith e values = .error err) ∧
    ∃ out, toRpn sineOfTwo.tokens = .ok out ∧
      ∀ (e : Evaluator) (values : Array Float),
        e.evaluate out values = .error .unsupportedComma ∨
          ∃ done token rest xs err, sineOfTwoBefore = done ++ token :: rest ∧
            CheckFails e values token xs err ∧ e.evaluate out values = .error err := by
  have hcompile : compile .scalar "x + SIN(x/x, X)" =
      .ok ⟨[.var 0, .var 0, .var 0, .binary .div, .comma, .var 0, .func .sin, .binary .add],
        .scalar⟩ := toOption_eq_some.1 (by decide +kernel)
  have hcomma : ',' ∈ "x + SIN(x/x, X)".toList := by decide
  have hmem : .comma ∈ sineOfTwo.tokens := by decide
  refine ⟨hcomma, hmem, ⟨_, hcompile, commas_are_reported.1 _ _ _ hcomma hcompile⟩, ?_⟩
  obtain ⟨before, after, horder, hbefore, houtcome⟩ := commas_are_reported.2 sineOfTwo hmem
  refine ⟨_, horder, fun e values => ?_⟩
  have hout : toRpn sineOfTwo.tokens =
      .ok (sineOfTwoBefore ++ .comma :: [.var 3, .func .sin, .binary .add]) := rfl
  have hsame := congrArg (List.takeWhile (· ≠ .comma)) (Except.ok.inj (horder.symm.trans hout))
  rw [takeWhile_of_comma hbefore, takeWhile_of_comma (by decide)] at hsame
  subst hsame
  obtain ⟨-, hvalue⟩ | ⟨done, token, rest, xs, err, hsplit, -, hcheck, hvalue⟩ :=
    (houtcome e values).2
  · exact .inl hvalue
  · exact .inr ⟨done, token, rest, xs, err, hsplit, hcheck, hvalue⟩

end Formula
