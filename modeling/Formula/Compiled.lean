import Formula.Lexeme.Read
import Formula.Rpn
import Formula.Evaluator

/-!
# Formula.Compiled

A formula ready to be evaluated as often as wanted: its tokens in reverse
Polish order, and the mode in which its text was read.

* `compile` — from the text of a formula;
* `Compiled.vars`, `requiredLength` — which values it asks for.
-/

namespace Formula

/-- Why a text is no formula. -/
inductive CompileError
  | lex (e : LexError)
  | rpn (e : RpnError)
  deriving DecidableEq

/-- The error in words. -/
def CompileError.message : CompileError → String
  | lex e => e.message
  | rpn e => e.message

/-- A formula in reverse Polish order. -/
structure Compiled where
  tokens : List Token
  mode : VarMode
  deriving DecidableEq

/-- Read a text in a mode and bring its tokens into reverse Polish order. -/
def compile (mode : VarMode) (text : String) : Except CompileError Compiled := do
  let formula ← (tokenize mode text).mapError .lex
  let tokens ← (toRpn formula).mapError .rpn
  return ⟨tokens, mode⟩

/-- A step whose error takes another name fails under that name, or goes on. -/
theorem mapError_bind (x : Except ε α) (f : ε → ε') (k : α → Except ε' β) :
    (x.mapError f >>= k) =
      match x with
      | .error e => .error (f e)
      | .ok a => k a := by
  cases x <;> rfl

/-- A text compiles when it can be read and its tokens can be brought into
order, and the first of the two that fails says why not. -/
theorem compile_eq (mode : VarMode) (text : String) :
    compile mode text =
      match tokenize mode text with
      | .error e => .error (.lex e)
      | .ok formula =>
        match toRpn formula with
        | .error e => .error (.rpn e)
        | .ok tokens => .ok ⟨tokens, mode⟩ := by
  simp only [compile, mapError_bind]
  cases tokenize mode text with
  | error e => rfl
  | ok formula =>
    simp only
    cases toRpn formula <;> rfl

/-- A text compiles to the order of its tokens. -/
theorem compile_eq_ok_iff {mode : VarMode} {text : String} {c : Compiled} :
    compile mode text = .ok c ↔
      ∃ formula tokens, tokenize mode text = .ok formula ∧ toRpn formula = .ok tokens ∧
        c = ⟨tokens, mode⟩ := by
  rw [compile_eq]
  cases tokenize mode text with
  | error e => simp
  | ok formula =>
    cases hrpn : toRpn formula with
    | error e => simp [hrpn]
    | ok tokens => simp [hrpn, eq_comm]

/-! ## Sets of indices -/

/-- Add an index to an ascending list of different indices. -/
def insertIndex (index : Nat) : List Nat → List Nat
  | [] => [index]
  | i :: is =>
    if index < i then index :: i :: is
    else if index = i then i :: is
    else i :: insertIndex index is

/-- The list has the added index and those it had before. -/
@[simp] theorem mem_insertIndex {index j : Nat} {is : List Nat} :
    j ∈ insertIndex index is ↔ j = index ∨ j ∈ is := by
  induction is with
  | nil => simp [insertIndex]
  | cons i is ih => grind [insertIndex]

/-- The list stays ascending. -/
theorem pairwise_insertIndex {index : Nat} {is : List Nat} (h : is.Pairwise (· < ·)) :
    (insertIndex index is).Pairwise (· < ·) := by
  induction is with
  | nil => simp [insertIndex]
  | cons i is ih => grind [insertIndex, mem_insertIndex, List.pairwise_cons]

namespace Compiled

/-! ## Variables -/

/-- The indices of variables among tokens. -/
def indices (tokens : List Token) : List Nat :=
  tokens.filterMap fun
    | .var index => some index
    | _ => none

/-- The indices of the variables that the formula uses, ascending and each
once. -/
def vars (c : Compiled) : List Nat :=
  (indices c.tokens).foldr insertIndex []

/-- The least number of values that sets every variable of the formula. -/
def requiredLength (c : Compiled) : Nat :=
  match c.vars.getLast? with
  | some index => index + 1
  | none => 0

@[simp] theorem indices_nil : indices [] = [] := rfl

@[simp] theorem indices_cons_var (index : Nat) (tokens : List Token) :
    indices (.var index :: tokens) = index :: indices tokens := rfl

@[simp] theorem indices_append (s t : List Token) :
    indices (s ++ t) = indices s ++ indices t :=
  List.filterMap_append

/-- An index is that of a token. -/
theorem mem_indices {tokens : List Token} {index : Nat} :
    index ∈ indices tokens ↔ Token.var index ∈ tokens := by
  rw [indices, List.mem_filterMap]
  constructor
  · rintro ⟨token, hmem, htoken⟩
    cases token <;> simp_all
  · exact fun h => ⟨_, h, rfl⟩

/-- An index is that of a token, or none of the formula. -/
theorem mem_vars {c : Compiled} {index : Nat} :
    index ∈ c.vars ↔ Token.var index ∈ c.tokens := by
  have h : ∀ is : List Nat, index ∈ is.foldr insertIndex [] ↔ index ∈ is := by
    intro is
    induction is with
    | nil => simp
    | cons i is ih => simp [ih]
  rw [vars, h, mem_indices]

/-- The indices ascend. -/
theorem pairwise_vars (c : Compiled) : c.vars.Pairwise (· < ·) := by
  unfold vars
  induction indices c.tokens with
  | nil => exact List.Pairwise.nil
  | cons i is ih => exact pairwise_insertIndex ih

/-! ## Evaluation -/

/-- The value of the formula, where `x[i]` is `values[i]`. -/
def evaluateWith (c : Compiled) (e : Evaluator) (values : Array Float) :
    Except EvalError Float :=
  e.evaluate c.tokens values

/-- The values of the formula for several rows. -/
def evaluateBatch (c : Compiled) (e : Evaluator) (rows : List (Array Float)) :
    List (Except EvalError Float) :=
  e.evaluateBatch c.tokens rows

/-! ## Comparison and display -/

/-- Whether two lists of tokens agree token by token. -/
def agreeAll (s t : List Token) : Bool :=
  s.length = t.length && (s.zip t).all fun (a, b) => a.agrees b

/-- Whether two formulas were read in one mode and agree token by token. -/
def agrees (c d : Compiled) : Bool :=
  c.mode = d.mode && agreeAll c.tokens d.tokens

/-- The symbolic names of the tokens of the formula. -/
def text (c : Compiled) : String := debugText c.tokens

end Compiled

end Formula
