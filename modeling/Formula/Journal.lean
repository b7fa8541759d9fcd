import Formula.Compiled
import Formula.Text.Quoted

/-!
# Formula.Journal

What compiling and evaluating leave in a journal, record by record.
-/

namespace Formula

/-- How closely one has to look to see a record. -/
inductive Detail
  | trace | debug
  deriving DecidableEq, Repr

/-- The name of a level of detail. -/
def Detail.name : Detail → String
  | trace => "TRACE"
  | debug => "DEBUG"

/-- One event. -/
inductive Event
  | tokenized (normalForm : String) (tokens : List Token)
  | converted (formula tokens : List Token)
  | compiled (text : String) (result : Compiled)
  | evaluationFailed (e : EvalError)
  deriving DecidableEq

namespace Event

/-- The level of detail at which an event is recorded. -/
def detail : Event → Detail
  | tokenized .. | converted .. => .trace
  | compiled .. | evaluationFailed .. => .debug

/-- The event in words. -/
def message : Event → String
  | tokenized normalForm tokens =>
    s!"tokenized {Text.quoted normalForm} into {tokens.length} tokens"
  | converted formula tokens =>
    s!"converted {formula.length} infix tokens into {tokens.length} postfix tokens"
  | compiled text result => s!"compiled {Text.quoted text} to [{result.text}]"
  | evaluationFailed e => s!"evaluation failed: {e.message}"

/-- The line of the journal. -/
def line (event : Event) : String := event.detail.name ++ " " ++ event.message

end Event

/-- The events of compiling a text: one after each step that succeeds. -/
def compileEvents (mode : VarMode) (text : String) : List Event :=
  match tokenize mode text with
  | .error _ => []
  | .ok formula =>
    .tokenized (String.ofList (Text.normalise text.toList)) formula ::
      match toRpn formula with
      | .error _ => []
      | .ok tokens => [.converted formula tokens, .compiled text ⟨tokens, mode⟩]

/-- The events of evaluations with given outcomes: one for each that fails. -/
def evaluationEvents (outcomes : List (Except EvalError Float)) : List Event :=
  outcomes.filterMap fun
    | .ok _ => none
    | .error e => some (.evaluationFailed e)

/-- The journal says that a text was compiled exactly when it was. -/
theorem compiled_mem_compileEvents {mode : VarMode} {text : String} {c : Compiled} :
    Event.compiled text c ∈ compileEvents mode text ↔ compile mode text = .ok c := by
  rw [compile_eq, compileEvents]
  cases tokenize mode text with
  | error e => simp
  | ok formula =>
    cases h : toRpn formula with
    | error e => simp [h]
    | ok tokens => simp [h, eq_comm]

end Formula
