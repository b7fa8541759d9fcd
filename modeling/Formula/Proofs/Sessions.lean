import Formula.Session

/-!
# Formula.Proofs.Sessions

A session as its commands say it is.  What is held at some point is told from
the commands before that point, which are listed here with the latest first, and
the operand stack does not occur in it.

* `Session.modeAfter`, `evaluatorAfter`, `bufferAfter`, `slotAfter` — the mode
  and evaluator last set, the tokens in the buffer, and the formula last compiled
  under a name;
* `Command.answer`, `Session.freshAnswer` — the answer worked out from these,
  every evaluation on a stack of its own;
* `carriedOut_step` — what one command answers and what it leaves;
* `Evaluator.evaluateBatch_eq_map` — rows are evaluated each for itself;
* `runAll_fresh` — every command of a session is answered as if by objects made
  for it alone.
-/

namespace Formula

/-! ## What a command brings about -/

namespace Command

/-- The mode that a command sets. -/
def mode? : Command → Option VarMode
  | setMode request => request.grant.toOption
  | _ => none

/-- The evaluator that a command sets. -/
def evaluator? : Command → Option Evaluator
  | setEpsilon epsilon => (Evaluator.ofEpsilon epsilon).toOption
  | _ => none

/-- The formula that a command compiles under a name. -/
def compiled? (mode : VarMode) (name : String) : Command → Option Compiled
  | compile key text => if key = name then (Formula.compile mode text).toOption else none
  | _ => none

/-- The tokens that a command leaves in the buffer. -/
def bufferFrom (mode : VarMode) (buffer : List Token) : Command → List Token
  | tokenize text => (Formula.tokenize mode text).toOption.getD buffer
  | push token => buffer ++ [token]
  | clear => []
  | toRpn => (Formula.toRpn buffer).toOption.getD buffer
  | _ => buffer

/-- The answer to a command, given the settings, the tokens in the buffer and the
formulas under their names. -/
def answer (mode : VarMode) (e : Evaluator) (buffer : List Token)
    (slot : String → Except Error Compiled) : Command → Except Error Reply
  | setMode request =>
    (request.grant.mapError .setting).map fun granted => .dimension granted.dimension
  | settings => .ok (.settings mode e.epsilon)
  | setEpsilon epsilon =>
    ((Evaluator.ofEpsilon epsilon).mapError .setting).map fun granted => .epsilon granted.epsilon
  | tokenize text => ((Formula.tokenize mode text).mapError .lex).map .buffer
  | push token => .ok (.buffer (buffer ++ [token]))
  | clear => .ok (.buffer [])
  | toRpn => ((Formula.toRpn buffer).mapError .rpn).map .buffer
  | evaluateBuffer values => ((e.evaluate buffer values).mapError .eval).map .value
  | compile _ text => ((Formula.compile mode text).mapError .ofCompile).map .info
  | info name => (slot name).map .info
  | evaluate name values =>
    (slot name).bind fun c => ((c.evaluateWith e values).mapError .eval).map .value
  | batch name rows => (slot name).map fun c => .values (rows.map (c.evaluateWith e))
  | equal a b => (slot a).bind fun c => (slot b).map fun d => .equal (c.agrees d)

end Command

namespace Session

/-! ## What commands leave -/

/-- The mode last set, where the latest of the commands is the first. -/
def modeAfter (s : Session) (earlier : List Command) : VarMode :=
  (earlier.findSome? Command.mode?).getD s.mode

/-- The evaluator last set. -/
def evaluatorAfter (s : Session) (earlier : List Command) : Evaluator :=
  (earlier.findSome? Command.evaluator?).getD s.evaluator

/-- The tokens in the buffer. -/
def bufferAfter (s : Session) : List Command → List Token
  | [] => s.buffer
  | command :: earlier => command.bufferFrom (s.modeAfter earlier) (s.bufferAfter earlier)

/-- The formula last compiled under a name, in the mode last set before it. -/
def slotAfter (s : Session) : List Command → String → Except Error Compiled
  | [], name => s.slot name
  | command :: earlier, name =>
    match command.compiled? (s.modeAfter earlier) name with
    | some c => .ok c
    | none => s.slotAfter earlier name

/-- The answer to a command after others. -/
def freshAnswer (s : Session) (earlier : List Command) (command : Command) :
    Except Error Reply :=
  command.answer (s.modeAfter earlier) (s.evaluatorAfter earlier) (s.bufferAfter earlier)
    (s.slotAfter earlier)

/-- The session after commands, the latest of which is the first. -/
def after (s : Session) (earlier : List Command) : Session :=
  earlier.foldr (fun command s => (s.step command).2) s

end Session

/-! ## Rows -/

namespace Evaluator

variable (e : Evaluator) (tokens : List Token)

/-- What is on the stack before a row has no effect on it. -/
theorem evaluateRows_eq_map (stack : OperandStack) (rows : List (Array Float)) :
    e.evaluateRows tokens stack rows = rows.map (e.evaluate tokens) := by
  induction rows generalizing stack with
  | nil => rfl
  | cons values rows ih =>
    have hcons : e.evaluateRows tokens stack (values :: rows) =
        e.evaluate tokens values ::
          e.evaluateRows tokens (e.evaluateOn tokens values stack).2 rows := rfl
    rw [hcons, ih, List.map_cons]

/-- Rows are evaluated each for itself. -/
theorem evaluateBatch_eq_map (rows : List (Array Float)) :
    e.evaluateBatch tokens rows = rows.map (e.evaluate tokens) :=
  e.evaluateRows_eq_map tokens _ rows

/-- Each outcome stands beside its row. -/
theorem zip_evaluateBatch (rows : List (Array Float)) :
    rows.zip (e.evaluateBatch tokens rows) =
      rows.map fun values => (values, e.evaluate tokens values) := by
  rw [evaluateBatch_eq_map, List.zip_eq_zipWith, List.zipWith_map_right, List.zipWith_self]

end Evaluator

namespace Session

/-! ## One command -/

/-- An evaluation is answered as on an empty stack, and changes only the stack. -/
theorem reply_evaluateTokens (s : Session) (tokens : List Token) (values : Array Float) :
    reply (s.evaluateTokens tokens values) =
      (((s.evaluator.evaluate tokens values).mapError .eval).map .value,
        { s with stack := (s.evaluator.evaluateOn tokens values s.stack).2 }) := by
  have houtcome : s.evaluateTokens tokens values =
      (s.evaluator.evaluate tokens values,
        { s with stack := (s.evaluator.evaluateOn tokens values s.stack).2 }) := rfl
  rw [houtcome]
  cases s.evaluator.evaluate tokens values <;> rfl

/-- Whether an answer and a session are what a command makes of the session
before it. -/
structure CarriedOut (s : Session) (command : Command) (answer : Except Error Reply)
    (s' : Session) : Prop where
  answer : answer = command.answer s.mode s.evaluator s.buffer s.slot
  mode : s'.mode = command.mode?.getD s.mode
  evaluator : s'.evaluator = command.evaluator?.getD s.evaluator
  buffer : s'.buffer = command.bufferFrom s.mode s.buffer
  slot : s'.slot = fun name => (command.compiled? s.mode name).elim (s.slot name) .ok

/-- What is under a name after a formula is kept. -/
theorem slot_keep (s : Session) (key name : String) (c : Compiled) :
    (s.keep key c).slot name = if key = name then .ok c else s.slot name := by
  by_cases h : key = name
  · rw [if_pos h, ← h, slot_keep_self]
  · rw [if_neg h, slot_keep_of_ne s c (Ne.symm h)]

/-- A step carries out its command. -/
theorem carriedOut_step (s : Session) (command : Command) :
    CarriedOut s command (s.step command).1 (s.step command).2 := by
  cases command with
  | settings | push token | clear => exact ⟨rfl, rfl, rfl, rfl, rfl⟩
  | setMode request =>
    constructor <;> simp only [step, Command.answer, Command.mode?] <;>
      cases request.grant <;> rfl
  | setEpsilon epsilon =>
    constructor <;> simp only [step, Command.answer, Command.evaluator?] <;>
      cases Evaluator.ofEpsilon epsilon <;> rfl
  | tokenize text =>
    constructor <;> simp only [step, Command.answer, Command.bufferFrom] <;>
      cases Formula.tokenize s.mode text <;> rfl
  | toRpn =>
    constructor <;> simp only [step, Command.answer, Command.bufferFrom] <;>
      cases Formula.toRpn s.buffer <;> rfl
  | compile key text =>
    constructor
    -- No other command changes what is under a name, and this one only under its own.
    case slot =>
      funext name
      simp only [step, Command.compiled?]
      cases Formula.compile s.mode text with
      | error err => split <;> rfl
      | ok c =>
        refine (s.slot_keep key name c).trans ?_
        split <;> rfl
    all_goals
      simp only [step, Command.answer]
      cases Formula.compile s.mode text <;> rfl
  | info name =>
    constructor <;> simp only [step, Command.answer] <;> cases s.slot name <;> rfl
  | evaluateBuffer values =>
    simp only [step, reply_evaluateTokens]
    exact ⟨rfl, rfl, rfl, rfl, rfl⟩
  | evaluate name values =>
    constructor <;> simp only [step, Command.answer, reply_evaluateTokens] <;>
      cases s.slot name <;> rfl
  | batch name rows =>
    constructor <;> simp only [step, Command.answer, Compiled.evaluateBatch,
      Evaluator.evaluateBatch_eq_map] <;> cases s.slot name <;> rfl
  | equal a b =>
    constructor <;> simp only [step, Command.answer] <;> cases s.slot a <;>
      cases s.slot b <;> rfl

/-! ## Several commands -/

/-- Where each command sets a part of the session or leaves it, it is as it was
last set. -/
theorem setting_after {α : Type} {part : Session → α} {set? : Command → Option α}
    (hstep : ∀ s command, part (s.step command).2 = (set? command).getD (part s))
    (s : Session) (earlier : List Command) :
    part (s.after earlier) = (earlier.findSome? set?).getD (part s) := by
  induction earlier with
  | nil => rfl
  | cons command earlier ih =>
    refine (hstep (s.after earlier) command).trans ?_
    rw [ih, List.findSome?_cons]
    cases set? command <;> rfl

theorem mode_after (s : Session) (earlier : List Command) :
    (s.after earlier).mode = s.modeAfter earlier :=
  setting_after (fun s command => (carriedOut_step s command).mode) s earlier

theorem evaluator_after (s : Session) (earlier : List Command) :
    (s.after earlier).evaluator = s.evaluatorAfter earlier :=
  setting_after (fun s command => (carriedOut_step s command).evaluator) s earlier

/-- The buffer holds what the commands leave in it. -/
theorem buffer_after (s : Session) (earlier : List Command) :
    (s.after earlier).buffer = s.bufferAfter earlier := by
  induction earlier with
  | nil => rfl
  | cons command earlier ih =>
    refine (carriedOut_step (s.after earlier) command).buffer.trans ?_
    rw [ih, mode_after, bufferAfter]

/-- Under each name is what the commands compile. -/
theorem slot_after (s : Session) (earlier : List Command) :
    (s.after earlier).slot = s.slotAfter earlier := by
  induction earlier with
  | nil => rfl
  | cons command earlier ih =>
    refine (carriedOut_step (s.after earlier) command).slot.trans (funext fun name => ?_)
    rw [ih, mode_after, slotAfter]
    cases command.compiled? (s.modeAfter earlier) name <;> rfl

/-- The answer to a command after others is worked out from what they say. -/
theorem step_after (s : Session) (earlier : List Command) (command : Command) :
    ((s.after earlier).step command).1 = s.freshAnswer earlier command := by
  rw [(carriedOut_step (s.after earlier) command).answer, mode_after, evaluator_after,
    buffer_after, slot_after, freshAnswer]

/-- Each command is carried out after those before it. -/
theorem runAll_getElem? (s : Session) (commands : List Command) (i : Nat) :
    (s.runAll commands)[i]? = commands[i]?.map fun command =>
      ((s.after (commands.take i).reverse).step command).1 := by
  induction commands generalizing s i with
  | nil => rfl
  | cons command commands ih =>
    cases i with
    | zero => rfl
    | succ i =>
      -- The first command stands at the end of the reversed list, so it is carried out first.
      have hafter : s.after ((command :: commands).take (i + 1)).reverse =
          (s.step command).2.after (commands.take i).reverse := by
        rw [List.take_succ_cons, List.reverse_cons, after, List.foldr_append]
        rfl
      rw [List.getElem?_cons_succ, hafter, ← ih]
      rfl

/-- A formula stays while nothing else is compiled under its name. -/
theorem slotAfter_of_not_mem {s : Session} {earlier : List Command} {name : String}
    (h : ∀ text, Command.compile name text ∉ earlier) :
    s.slotAfter earlier name = s.slot name := by
  induction earlier with
  | nil => rfl
  | cons command earlier ih =>
    have hnone : command.compiled? (s.modeAfter earlier) name = none := by
      cases command with
      | compile key text =>
        refine if_neg fun hkey => h text ?_
        rw [hkey]
        exact List.mem_cons_self
      | _ => rfl
    rw [slotAfter, hnone]
    exact ih fun text hmem => h text (List.mem_cons_of_mem _ hmem)

/-- **Nothing passes from one command to the next but what they say.**  Whatever is
done in a session, and whatever fails in it, every command is answered as by objects
made for it alone: a text is read in the mode last set, and tokens are evaluated on
an empty stack.  A formula stays as it was compiled until another takes its name.
Whatever is left on a stack, an evaluation on it has the outcome that it has without
it; and rows are evaluated each for itself, so that their outcomes change places as
the rows do. -/
theorem runAll_fresh :
    (∀ (s : Session) (commands : List Command) (i : Nat),
      (s.runAll commands)[i]? =
        commands[i]?.map (s.freshAnswer (commands.take i).reverse)) ∧
    (∀ (s : Session) (earlier : List Command) (name : String),
      (∀ text, Command.compile name text ∉ earlier) →
        (s.after earlier).slot name = s.slot name) ∧
    (∀ (e : Evaluator) (tokens : List Token) (values : Array Float) (stack : OperandStack),
      (e.evaluateOn tokens values stack).1 = e.evaluate tokens values) ∧
    ∀ (e : Evaluator) (tokens : List Token) (rows : List (Array Float)),
      e.evaluateBatch tokens rows = rows.map (e.evaluate tokens) ∧
        ∀ rows', rows.Perm rows' →
          (rows.zip (e.evaluateBatch tokens rows)).Perm
            (rows'.zip (e.evaluateBatch tokens rows')) := by
  refine ⟨fun s commands i => ?_, fun s earlier name h => ?_, fun e tokens values stack => ?_,
    fun e tokens rows => ⟨e.evaluateBatch_eq_map tokens rows, fun rows' h => ?_⟩⟩
  · simp only [runAll_getElem?, step_after]
  · rw [slot_after]
    exact slotAfter_of_not_mem h
  · rw [Evaluator.evaluateOn_eq]
    rfl
  · rw [Evaluator.zip_evaluateBatch, Evaluator.zip_evaluateBatch]
    exact h.map _

/-- A session in which `x` is kept under a name. -/
def keepsX : Session := ⟨.scalar, .default, ⟨[]⟩, [], [("f", ⟨[.var 0], .scalar⟩)]⟩

/-- Two operands without an operator, and then a single one. -/
def leftovers : List Command :=
  [.push (.number 1), .push (.number 2), .evaluateBuffer #[], .clear, .push (.number 4),
    .evaluateBuffer #[]]

/-- The operand that is left over has no effect on the evaluation after it, and none
on the formula that is kept. -/
theorem runAll_fresh_leftovers :
    (keepsX.after (leftovers.take 3).reverse).stack = ⟨[1]⟩ ∧
      (keepsX.runAll leftovers)[2]? = some (.error (.eval .malformedExpression)) ∧
      (keepsX.runAll leftovers)[5]? = some (.ok (.value 4)) ∧
      (keepsX.after leftovers.reverse).slot "f" = .ok ⟨[.var 0], .scalar⟩ ∧
      ([#[(1 : Float)], #[2]].zip (Evaluator.default.evaluateBatch [.var 0] [#[1], #[2]])).Perm
        ([#[(2 : Float)], #[1]].zip
          (Evaluator.default.evaluateBatch [.var 0] [#[2], #[1]])) := by
  obtain ⟨hanswer, hslot, -, hbatch⟩ := runAll_fresh
  refine ⟨rfl, (hanswer keepsX leftovers 2).trans rfl, (hanswer keepsX leftovers 5).trans rfl,
    ?_, (hbatch .default [.var 0] [#[1], #[2]]).2 [#[2], #[1]] (.swap _ _ _)⟩
  refine (hslot keepsX _ "f" fun text hmem => ?_).trans rfl
  simp [leftovers] at hmem

end Session

end Formula
