import Formula.Error

/-!
# Formula.Session

A session at which formulas are read and evaluated one command after the
other.  It holds the current settings, a buffer of tokens, formulas under
names, and the operand stack that every evaluation uses again.

* `Session.step` — one command; a command that fails leaves the session as it
  was, apart from what is left on the operand stack;
* `Session.runAll` — several commands, each answered in turn.
-/

namespace Formula

/-- What is kept from one command to the next. -/
structure Session where
  mode : VarMode
  evaluator : Evaluator
  stack : OperandStack := ⟨[]⟩
  buffer : List Token := []
  slots : List (String × Compiled) := []

/-- A command of a session. -/
inductive Command
  | setMode (mode : VarMode.Request)
  | settings
  | setEpsilon (epsilon : Float)
  | tokenize (text : String)
  | push (token : Token)
  | clear
  | toRpn
  | evaluateBuffer (values : Array Float)
  | compile (slot : String) (text : String)
  | info (slot : String)
  | evaluate (slot : String) (values : Array Float)
  | batch (slot : String) (rows : List (Array Float))
  | equal (a : String) (b : String)

/-- The answer to a command. -/
inductive Reply
  | dimension (n : Nat)
  | settings (mode : VarMode) (epsilon : Float)
  | epsilon (epsilon : Float)
  | buffer (tokens : List Token)
  | value (x : Float)
  | values (outcomes : List (Except EvalError Float))
  | info (c : Compiled)
  | equal (same : Bool)

namespace Session

/-- A session with no formulas yet, provided that both settings are
admitted. -/
def start (mode : VarMode.Request) (epsilon : Float) : Except Error Session := do
  let mode ← mode.grant.mapError .setting
  let evaluator ← (Evaluator.ofEpsilon epsilon).mapError .setting
  return { mode, evaluator }

/-- The formula under a name. -/
def slot (s : Session) (name : String) : Except Error Compiled :=
  match s.slots.lookup name with
  | some c => .ok c
  | none => .error (.noSlot name)

/-- Keep a formula under a name, in place of any that was there. -/
def keep (s : Session) (name : String) (c : Compiled) : Session :=
  { s with slots := (name, c) :: s.slots.filter (·.1 ≠ name) }

/-- A formula that is kept is found under its name. -/
@[simp] theorem slot_keep_self (s : Session) (name : String) (c : Compiled) :
    (s.keep name c).slot name = .ok c := by
  simp [slot, keep]

/-- What is under other names stays. -/
theorem slot_keep_of_ne (s : Session) {name other : String} (c : Compiled) (h : other ≠ name) :
    (s.keep name c).slot other = s.slot other := by
  have hfilter : ∀ slots : List (String × Compiled),
      (slots.filter (·.1 ≠ name)).lookup other = slots.lookup other := by
    intro slots
    induction slots with
    | nil => rfl
    | cons entry slots ih =>
      obtain ⟨key, d⟩ := entry
      by_cases hkey : key = name
      · have hne : (other == key) = false := by simpa [hkey] using h
        simp only [List.lookup_cons, hne]
        rw [← ih, List.filter_cons_of_neg (by simpa using hkey)]
      · rw [List.filter_cons_of_pos (by simpa using hkey)]
        simp only [List.lookup_cons, ih]
  have hne : (other == name) = false := by simpa using h
  simp only [slot, keep, List.lookup_cons, hne, hfilter]

/-- Evaluate on the stack of the session. -/
def evaluateTokens (s : Session) (tokens : List Token) (values : Array Float) :
    Except EvalError Float × Session :=
  let (outcome, stack) := s.evaluator.evaluateOn tokens values s.stack
  (outcome, { s with stack })

/-- An evaluation as the answer to a command.  Only the stack shows afterwards
that it took place. -/
def reply : Except EvalError Float × Session → Except Error Reply × Session
  | (.ok x, s) => (.ok (.value x), s)
  | (.error e, s) => (.error (.eval e), s)

/-- A change of the session that may fail, in which case nothing changes. -/
def change (s : Session) : Except Error (Reply × Session) → Except Error Reply × Session
  | .ok (answer, s') => (.ok answer, s')
  | .error e => (.error e, s)

/-- Carry out a command. -/
def step (s : Session) : Command → Except Error Reply × Session
  | .setMode request => s.change do
    let mode ← request.grant.mapError .setting
    return (.dimension mode.dimension, { s with mode })
  | .settings => (.ok (.settings s.mode s.evaluator.epsilon), s)
  | .setEpsilon epsilon => s.change do
    let evaluator ← (Evaluator.ofEpsilon epsilon).mapError .setting
    return (.epsilon evaluator.epsilon, { s with evaluator })
  | .tokenize text => s.change do
    let buffer ← (Formula.tokenize s.mode text).mapError .lex
    return (.buffer buffer, { s with buffer })
  | .push token =>
    let buffer := s.buffer ++ [token]
    (.ok (.buffer buffer), { s with buffer })
  | .clear => (.ok (.buffer []), { s with buffer := [] })
  | .toRpn => s.change do
    let buffer ← (Formula.toRpn s.buffer).mapError .rpn
    return (.buffer buffer, { s with buffer })
  | .evaluateBuffer values => reply (s.evaluateTokens s.buffer values)
  | .compile name text => s.change do
    let c ← (Formula.compile s.mode text).mapError .ofCompile
    return (.info c, s.keep name c)
  | .info name => s.change do
    let c ← s.slot name
    return (.info c, s)
  | .evaluate name values =>
    match s.slot name with
    | .error e => (.error e, s)
    | .ok c => reply (s.evaluateTokens c.tokens values)
  | .batch name rows => s.change do
    let c ← s.slot name
    return (.values (c.evaluateBatch s.evaluator rows), s)
  | .equal a b => s.change do
    let c ← s.slot a
    let d ← s.slot b
    return (.equal (c.agrees d), s)

/-- Carry out commands one after the other, whether they fail or not. -/
def runAll (s : Session) : List Command → List (Except Error Reply)
  | [] => []
  | command :: commands =>
    let (answer, s) := s.step command
    answer :: s.runAll commands

end Session

end Formula
