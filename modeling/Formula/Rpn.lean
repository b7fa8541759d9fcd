import Formula.Token

/-!
# Formula.Rpn

Reverse Polish order: every operator after its operands.

Tokens are taken in one at a time.  Operands go out at once; an operator, a
function or an opening parenthesis is *held* until what belongs to it has gone
out.  The held tokens are a list with the newest first.

* `step` — what one token sends out, and what is held after it;
* `run` — the same for a list of tokens, so that `run_append` describes a
  formula piece by piece;
* `toRpn` — a whole formula, after which nothing may be left open.
-/

namespace Formula

/-- What is wrong with the parentheses and commas of a formula, and at which
of its tokens. -/
inductive RpnError
  | mismatchedParenthesis (position : Nat)
  | strayComma (position : Nat)
  deriving DecidableEq, Repr

/-- The error in words. -/
def RpnError.message : RpnError → String
  | mismatchedParenthesis position => s!"mismatched parenthesis at token {position}"
  | strayComma position =>
    s!"stray comma at token {position}: commas may only separate function arguments"

/-- A held token and its place in the formula. -/
structure Held where
  token : Token
  position : Nat
  deriving DecidableEq

namespace Rpn

/-! ## The held tokens -/

/-- Whether a held token goes out before an operator of binding `next` is
held. -/
def goesBefore (next : Binding) (h : Held) : Bool :=
  h.token.binding?.any (·.goesBefore next)

/-- The tokens held since the innermost open parenthesis, newest first. -/
def sinceParen (held : List Held) : List Token :=
  (held.takeWhile (·.token ≠ .leftParen)).map (·.token)

/-- What is held from the innermost open parenthesis down. -/
def fromParen (held : List Held) : List Held :=
  held.dropWhile (·.token ≠ .leftParen)

/-- Hold an operator of binding `b`, after those that are worked out before
it. -/
def hold (b : Binding) (h : Held) (held : List Held) : List Token × List Held :=
  ((held.takeWhile (goesBefore b)).map (·.token), h :: held.dropWhile (goesBefore b))

/-! ## Taking tokens in -/

/-- Take in one token: what goes out, and what is held after it.  A closing
parenthesis completes a call when the innermost group is the argument of a
function; a comma may stand in no other group. -/
def step (position : Nat) (held : List Held) (token : Token) :
    Except RpnError (List Token × List Held) :=
  match token with
  | .number _ | .var _ => .ok ([token], held)
  | .func _ | .leftParen => .ok ([], ⟨token, position⟩ :: held)
  | .binary op => .ok (hold op.binding ⟨token, position⟩ held)
  | .sign _ => .ok (hold Sign.binding ⟨token, position⟩ held)
  | .rightParen =>
    match fromParen held with
    | [] => .error (.mismatchedParenthesis position)
    | _ :: ⟨.func f, _⟩ :: below => .ok (sinceParen held ++ [.func f], below)
    | _ :: below => .ok (sinceParen held, below)
  | .comma =>
    match fromParen held with
    | _ :: ⟨.func _, _⟩ :: _ => .ok (sinceParen held ++ [.comma], fromParen held)
    | _ => .error (.strayComma position)

/-- Take in tokens of which the first has the given place. -/
def run (position : Nat) (held : List Held) :
    List Token → Except RpnError (List Token × List Held)
  | [] => .ok ([], held)
  | token :: tokens => do
    let (out, held) ← step position held token
    let (out', held') ← run (position + 1) held tokens
    return (out ++ out', held')

/-- Send out all that is held, unless a parenthesis is still open. -/
def drain (held : List Held) : Except RpnError (List Token) :=
  match held.find? (·.token = .leftParen) with
  | some h => .error (.mismatchedParenthesis h.position)
  | none => .ok (held.map (·.token))

end Rpn

/-- The tokens of a formula in reverse Polish order.  Parentheses have no place
in it; commas between the arguments of a call stay. -/
def toRpn (tokens : List Token) : Except RpnError (List Token) := do
  let (out, held) ← Rpn.run 0 [] tokens
  let rest ← Rpn.drain held
  return out ++ rest

/-! ## Taking tokens in piece by piece -/

namespace Rpn

@[simp] theorem run_nil (position : Nat) (held : List Held) :
    run position held [] = .ok ([], held) := rfl

theorem run_cons (position : Nat) (held : List Held) (token : Token) (tokens : List Token) :
    run position held (token :: tokens) =
      (step position held token).bind fun first =>
        (run (position + 1) first.2 tokens).map fun next => (first.1 ++ next.1, next.2) := rfl

/-- What is held goes out, newest first, when no parenthesis is open. -/
theorem drain_eq_ok {held : List Held} (h : ∀ x ∈ held, x.token ≠ .leftParen) :
    drain held = .ok (held.map (·.token)) := by
  have : held.find? (·.token = .leftParen) = none := by simpa using h
  rw [drain, this]

/-- An open parenthesis is reported, the innermost first. -/
theorem drain_eq_error {above below : List Held} {h : Held} (hh : h.token = .leftParen)
    (ha : ∀ x ∈ above, x.token ≠ .leftParen) :
    drain (above ++ h :: below) = .error (.mismatchedParenthesis h.position) := by
  have : above.find? (·.token = .leftParen) = none := by simpa using ha
  simp [drain, List.find?_append, this, hh]

/-- Tokens one after the other are taken in one after the other. -/
theorem run_append (position : Nat) (held : List Held) (s t : List Token) :
    run position held (s ++ t) =
      (run position held s).bind fun first =>
        (run (position + s.length) first.2 t).map fun next => (first.1 ++ next.1, next.2) := by
  induction s generalizing position held with
  | nil =>
    simp only [List.nil_append, run_nil, Except.bind, List.length_nil, Nat.add_zero, List.nil_append]
    cases run position held t <;> rfl
  | cons token s ih =>
    simp only [List.cons_append, run_cons, List.length_cons]
    cases step position held token with
    | error e => rfl
    | ok first =>
      simp only [Except.bind, ih]
      have : position + 1 + s.length = position + (s.length + 1) := by omega
      rw [this]
      cases run (position + 1) first.2 s with
      | error e => rfl
      | ok second =>
        simp only [Except.map]
        cases run (position + (s.length + 1)) second.2 t with
        | error e => rfl
        | ok third => simp only [List.append_assoc]

end Rpn

end Formula
