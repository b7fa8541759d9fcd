/-!
# Formula.Proofs.Outcome

Steps that may fail, one after the other: when the whole succeeds, and when it
fails.
-/

namespace Formula

variable {ε α β : Type}

/-- Two steps succeed when both do. -/
theorem bind_eq_ok {x : Except ε α} {f : α → Except ε β} {b : β} :
    x.bind f = .ok b ↔ ∃ a, x = .ok a ∧ f a = .ok b := by
  cases x with
  | error err => simp [Except.bind]
  | ok a => simp [Except.bind]

/-- Two steps fail when the first does, or the second after it. -/
theorem bind_eq_error {x : Except ε α} {f : α → Except ε β} {err : ε} :
    x.bind f = .error err ↔ x = .error err ∨ ∃ a, x = .ok a ∧ f a = .error err := by
  cases x with
  | error err => simp [Except.bind]
  | ok a => simp [Except.bind]

/-- Whether a step succeeds with a given result can be decided when results can
be compared. -/
theorem toOption_eq_some {x : Except ε α} {a : α} : x.toOption = some a ↔ x = .ok a := by
  cases x with
  | error err => simp [Except.toOption]
  | ok b => simp [Except.toOption]

/-- The error with which a step fails. -/
def error? : Except ε α → Option ε
  | .error err => some err
  | .ok _ => none

/-- Whether a step fails with a given error can be decided when errors can be
compared. -/
theorem error?_eq_some {x : Except ε α} {err : ε} : error? x = some err ↔ x = .error err := by
  cases x with
  | error err' => simp [error?]
  | ok a => simp [error?]

/-- A result that is only rearranged is there when it was there before. -/
theorem map_eq_ok {x : Except ε α} {f : α → β} {b : β} :
    x.map f = .ok b ↔ ∃ a, x = .ok a ∧ f a = b := by
  cases x with
  | error err => simp [Except.map]
  | ok a => simp [Except.map]

/-- Rearranging a result does not make a step fail. -/
theorem map_eq_error {x : Except ε α} {f : α → β} {err : ε} :
    x.map f = .error err ↔ x = .error err := by
  cases x with
  | error err' => simp [Except.map]
  | ok a => simp [Except.map]

end Formula
