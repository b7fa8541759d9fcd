import Formula.Error
import Formula.Journal

/-!
# Formula.Job

A formula to be read and evaluated under given settings, from the text to the
outcome for each row of values.

* `Job.run` — the answer, or the first thing that prevents one;
* `Job.events` — what the run leaves in a journal.
-/

namespace Formula

/-- A formula as it is handed in: its text, and the settings under which to
read and evaluate it. -/
structure Job where
  text : String
  mode : VarMode.Request
  epsilon : Float

namespace Job

/-- The formula of the job and the evaluator to use.  The mode is looked at
first, then the text, then the threshold. -/
def prepare (job : Job) : Except Error (Compiled × Evaluator) := do
  let mode ← job.mode.grant.mapError .setting
  let compiled ← (compile mode job.text).mapError .ofCompile
  let evaluator ← (Evaluator.ofEpsilon job.epsilon).mapError .setting
  return (compiled, evaluator)

/-- The formula of the job, and its outcome for each row of values. -/
def run (job : Job) (rows : List (Array Float)) :
    Except Error (Compiled × List (Except EvalError Float)) := do
  let (compiled, evaluator) ← job.prepare
  return (compiled, compiled.evaluateBatch evaluator rows)

/-- The events of the run.  They stop where the run does. -/
def events (job : Job) (rows : List (Array Float)) : List Event :=
  match job.mode.grant with
  | .error _ => []
  | .ok mode =>
    compileEvents mode job.text ++
      match job.run rows with
      | .error _ => []
      | .ok (_, outcomes) => evaluationEvents outcomes

end Job

end Formula
