import Formula.Proofs.Step

/-!
# Formula.Proofs.Origins

Where the tokens of an order come from.

Two plus signs look alike, so that the order of a formula does not tell which of
them came first.  Here tokens go out together with their places.

* `send`, `sendAll`, `origins` — `step`, `run` and `toRpn` with places;
* `toRpn_eq_origins` — the tokens go out as they do there;
* `perm_of_sendAll`, `perm_of_origins` — but for parentheses, each token goes out
  once or is held;
* `send_moved`, `sendAll_moved` — which places they have is of no account, not
  even whether tokens stand side by side.
-/

namespace Formula

/-- The held token at another place. -/
def Held.moved (g : Nat → Nat) (h : Held) : Held := ⟨h.token, g h.position⟩

/-- The error at another place. -/
def RpnError.moved (g : Nat → Nat) : RpnError → RpnError
  | mismatchedParenthesis position => .mismatchedParenthesis (g position)
  | strayComma position => .strayComma (g position)

namespace Rpn

open scoped List

/-! ## Tokens and their places -/

/-- The tokens with their places, of which the first is given. -/
def placesFrom (position : Nat) : List Token → List Held
  | [] => []
  | token :: tokens => ⟨token, position⟩ :: placesFrom (position + 1) tokens

/-- What goes out, each token with its place, and what is held. -/
abbrev Sent := Except RpnError (List Held × List Held)

/-- Hold an operator of binding `b`, after those that are worked out before
it. -/
def sendBefore (b : Binding) (h : Held) (held : List Held) : List Held × List Held :=
  (held.takeWhile (goesBefore b), h :: held.dropWhile (goesBefore b))

/-- The tokens held since the innermost open parenthesis, newest first. -/
def sinceOpen (held : List Held) : List Held := held.takeWhile (·.token ≠ .leftParen)

/-- Take in one token: what goes out, and what is held after it. -/
def send (held : List Held) (h : Held) : Sent :=
  match h.token with
  | .number _ | .var _ => .ok ([h], held)
  | .func _ | .leftParen => .ok ([], h :: held)
  | .binary op => .ok (sendBefore op.binding h held)
  | .sign _ => .ok (sendBefore Sign.binding h held)
  | .rightParen =>
    match fromParen held with
    | [] => .error (.mismatchedParenthesis h.position)
    | _ :: ⟨.func f, i⟩ :: below => .ok (sinceOpen held ++ [⟨.func f, i⟩], below)
    | _ :: below => .ok (sinceOpen held, below)
  | .comma =>
    match fromParen held with
    | _ :: ⟨.func _, _⟩ :: _ => .ok (sinceOpen held ++ [h], fromParen held)
    | _ => .error (.strayComma h.position)

/-- Take in tokens, each with its place. -/
def sendAll (held : List Held) : List Held → Sent
  | [] => .ok ([], held)
  | h :: hs => do
    let (out, held) ← send held h
    let (out', held') ← sendAll held hs
    return (out ++ out', held')

/-- Send out all that is held, unless a parenthesis is still open. -/
def sendRest (held : List Held) : Except RpnError (List Held) :=
  match held.find? (·.token = .leftParen) with
  | some h => .error (.mismatchedParenthesis h.position)
  | none => .ok held

/-- The tokens of a formula in reverse Polish order, each with its place. -/
def origins (hs : List Held) : Except RpnError (List Held) := do
  let (out, held) ← sendAll [] hs
  let rest ← sendRest held
  return out ++ rest

variable {position : Nat} {held : List Held} {h : Held} {hs : List Held}

theorem sendAll_cons (held : List Held) (h : Held) (hs : List Held) :
    sendAll held (h :: hs) =
      (send held h).bind fun first =>
        (sendAll first.2 hs).map fun next => (first.1 ++ next.1, next.2) := rfl

theorem origins_eq (hs : List Held) :
    origins hs = (sendAll [] hs).bind fun last => (sendRest last.2).map (last.1 ++ ·) := rfl

@[simp] theorem map_token_placesFrom (position : Nat) (tokens : List Token) :
    (placesFrom position tokens).map (·.token) = tokens := by
  induction tokens generalizing position with
  | nil => rfl
  | cons token tokens ih => rw [placesFrom, List.map_cons, ih]

/-! ## The same tokens without their places -/

/-- What goes out, without places. -/
def forget : Sent → Except RpnError (List Token × List Held)
  | .ok (out, held) => .ok (out.map (·.token), held)
  | .error err => .error err

/-- A token sends out what it sends out with places. -/
theorem step_eq_forget (held : List Held) (h : Held) :
    step h.position held h.token = forget (send held h) := by
  obtain ⟨token, position⟩ := h
  cases token with
  | number _ | var _ | func _ | leftParen | binary _ | sign _ => rfl
  | rightParen =>
    simp only [step, send]
    obtain _ | ⟨paren, _ | ⟨⟨below, i⟩, held'⟩⟩ := fromParen held
    · rfl
    · rfl
    · cases below with
      | func f => simp only [forget, sinceParen, sinceOpen, List.map_append, List.map_cons,
          List.map_nil]
      | _ => rfl
  | comma =>
    simp only [step, send]
    obtain _ | ⟨paren, _ | ⟨⟨below, i⟩, held'⟩⟩ := fromParen held
    · rfl
    · rfl
    · cases below with
      | func f => simp only [forget, sinceParen, sinceOpen, List.map_append, List.map_cons,
          List.map_nil]
      | _ => rfl

/-- Tokens send out what they send out with places. -/
theorem run_eq_forget (position : Nat) (held : List Held) (tokens : List Token) :
    run position held tokens = forget (sendAll held (placesFrom position tokens)) := by
  induction tokens generalizing position held with
  | nil => rfl
  | cons token tokens ih =>
    have hfirst := step_eq_forget held ⟨token, position⟩
    rw [placesFrom, run_cons, sendAll_cons, hfirst]
    cases send held ⟨token, position⟩ with
    | error err => rfl
    | ok first =>
      simp only [forget, Except.bind, ih]
      cases sendAll first.2 (placesFrom (position + 1) tokens) with
      | error err => rfl
      | ok next => simp only [Except.map, List.map_append]

/-- A formula goes out as it does with places. -/
theorem toRpn_eq_origins (tokens : List Token) :
    toRpn tokens = (origins (placesFrom 0 tokens)).map (·.map (·.token)) := by
  rw [toRpn, run_eq_forget, origins_eq]
  cases sendAll [] (placesFrom 0 tokens) with
  | error err => rfl
  | ok last =>
    simp only [forget, bind, Except.bind, drain, sendRest]
    cases last.2.find? (·.token = .leftParen) with
    | some h => rfl
    | none => simp only [pure, Except.pure, Except.map, List.map_append]

/-! ## What becomes of the tokens -/

/-- Whether all of the tokens are parentheses. -/
def AllParens (hs : List Held) : Prop := ∀ x ∈ hs, x.token.isParen = true

theorem allParens_nil : AllParens [] := by simp [AllParens]

/-- What is held since a parenthesis, and from it down, is all that is held. -/
theorem sinceOpen_append_fromParen (held : List Held) :
    sinceOpen held ++ fromParen held = held :=
  List.takeWhile_append_dropWhile

/-- A parenthesis is what is held from a parenthesis down. -/
theorem token_of_fromParen {paren : Held} {below : List Held}
    (h : fromParen held = paren :: below) : paren.token = .leftParen := by
  have hstop : decide (paren.token ≠ .leftParen) = false :=
    eq_false_of_mem_head?_dropWhile (s := held) (by rw [← fromParen, h]; rfl)
  simpa using hstop

/-- A token in the middle may be moved to the end. -/
theorem perm_concat {α : Type} (s t : List α) (a : α) : (s ++ a :: t).Perm (s ++ t ++ [a]) :=
  List.perm_middle.trans (List.perm_append_singleton a _).symm

/-- A closed group loses its two parentheses. -/
theorem perm_of_fromParen {paren : Held} {below : List Held}
    (hfrom : fromParen held = paren :: below) (position : Nat) :
    AllParens [paren, ⟨.rightParen, position⟩] ∧
      (sinceOpen held ++ below ++ [paren, ⟨.rightParen, position⟩]).Perm
        (held ++ [⟨.rightParen, position⟩]) := by
  refine ⟨?_, ?_⟩
  · simp [AllParens, token_of_fromParen hfrom, Token.isParen]
  · have hheld : held = sinceOpen held ++ paren :: below := by
      rw [← hfrom, sinceOpen_append_fromParen]
    have hmoved := (perm_concat (sinceOpen held) below paren).symm
    rw [← hheld] at hmoved
    rw [← List.singleton_append, ← List.append_assoc]
    exact hmoved.append_right _

/-- One token loses nothing but parentheses, and adds nothing but itself. -/
theorem perm_of_send {out held' : List Held} (hsend : send held h = .ok (out, held')) :
    ∃ parens, AllParens parens ∧ (out ++ held' ++ parens).Perm (held ++ [h]) := by
  obtain ⟨token, position⟩ := h
  have hbefore : ∀ b, ((sendBefore b ⟨token, position⟩ held).1 ++
      (sendBefore b ⟨token, position⟩ held).2).Perm (held ++ [⟨token, position⟩]) := by
    intro b
    have hconcat := perm_concat (held.takeWhile (goesBefore b)) (held.dropWhile (goesBefore b))
      ⟨token, position⟩
    rwa [List.takeWhile_append_dropWhile] at hconcat
  cases token with
  | number _ | var _ | func _ | leftParen =>
    cases hsend
    exact ⟨[], allParens_nil, by rw [List.append_nil]; exact perm_concat [] _ _⟩
  | binary _ | sign _ =>
    cases hsend
    exact ⟨[], allParens_nil, by rw [List.append_nil]; exact hbefore _⟩
  | rightParen =>
    simp only [send] at hsend
    split at hsend
    · cases hsend
    · rename_i hfrom
      cases hsend
      obtain ⟨hparens, hperm⟩ := perm_of_fromParen hfrom position
      refine ⟨_, hparens, ?_⟩
      rwa [List.append_assoc (sinceOpen held)]
    · rename_i hfrom
      cases hsend
      exact ⟨_, perm_of_fromParen hfrom position⟩
  | comma =>
    simp only [send] at hsend
    split at hsend
    · cases hsend
      have hconcat := perm_concat (sinceOpen held) (fromParen held) ⟨.comma, position⟩
      rw [sinceOpen_append_fromParen] at hconcat
      refine ⟨[], allParens_nil, ?_⟩
      rwa [List.append_nil, List.append_assoc]
    · cases hsend

/-- Several tokens lose nothing but parentheses, and add nothing but themselves. -/
theorem perm_of_sendAll {out held' : List Held} (hsend : sendAll held hs = .ok (out, held')) :
    ∃ parens, AllParens parens ∧ (out ++ held' ++ parens).Perm (held ++ hs) := by
  induction hs generalizing held out with
  | nil =>
    cases hsend
    exact ⟨[], allParens_nil, by simp⟩
  | cons h hs ih =>
    rw [sendAll_cons] at hsend
    obtain ⟨⟨first, held₁⟩, hfirst, hsend⟩ := bind_eq_ok.1 hsend
    obtain ⟨⟨rest, held₂⟩, hrest, hsend⟩ := map_eq_ok.1 hsend
    cases hsend
    obtain ⟨parens, hparens, hstep⟩ := perm_of_send hfirst
    obtain ⟨parens', hparens', hrun⟩ := ih hrest
    refine ⟨parens' ++ parens, List.forall_mem_append.2 ⟨hparens', hparens⟩, ?_⟩
    calc first ++ rest ++ held₂ ++ (parens' ++ parens)
        = first ++ (rest ++ held₂ ++ parens') ++ parens := by simp only [List.append_assoc]
      _ ~ first ++ (held₁ ++ hs) ++ parens := (hrun.append_left _).append_right _
      _ ~ first ++ held₁ ++ parens ++ hs := by
        simp only [List.append_assoc]
        exact (List.perm_append_comm.append_left _).append_left _
      _ ~ held ++ [h] ++ hs := hstep.append_right _
      _ = held ++ h :: hs := by simp only [List.append_assoc, List.singleton_append]

/-- A formula goes out with the tokens it has, each from its own place; only
parentheses are missing. -/
theorem perm_of_origins {order : List Held} (h : origins hs = .ok order) :
    ∃ parens, AllParens parens ∧ (order ++ parens).Perm hs := by
  rw [origins_eq] at h
  obtain ⟨⟨out, held⟩, hall, h⟩ := bind_eq_ok.1 h
  obtain ⟨rest, hrest, h⟩ := map_eq_ok.1 h
  cases h
  rw [sendRest] at hrest
  split at hrest
  · cases hrest
  · cases hrest
    exact perm_of_sendAll hall

/-- The tokens that go out are those of the formula but parentheses. -/
theorem mem_origins_iff {order : List Held} (h : origins hs = .ok order) {x : Held}
    (hx : x.token.isParen = false) : x ∈ order ↔ x ∈ hs := by
  obtain ⟨parens, hparens, hperm⟩ := perm_of_origins h
  rw [← hperm.mem_iff, List.mem_append]
  refine ⟨.inl, fun hmem => hmem.resolve_right fun hparen => ?_⟩
  rw [hparens x hparen] at hx
  cases hx

/-! ## Other places -/

@[simp] theorem map_token_moved (g : Nat → Nat) (held : List Held) :
    (held.map (·.moved g)).map (·.token) = held.map (·.token) := by
  simp [Held.moved]

/-- An outcome at other places. -/
def moved {α β : Type} (g : Nat → Nat) (f : α → β) : Except RpnError α → Except RpnError β
  | .ok a => .ok (f a)
  | .error err => .error (err.moved g)

/-- What goes out and is held, with all of it at other places. -/
def movedSent (g : Nat → Nat) : Sent → Sent :=
  moved g fun (out, held) => (out.map (·.moved g), held.map (·.moved g))

theorem sinceOpen_moved (g : Nat → Nat) (held : List Held) :
    sinceOpen (held.map (·.moved g)) = (sinceOpen held).map (·.moved g) := by
  rw [sinceOpen, List.takeWhile_map]
  rfl

theorem fromParen_moved (g : Nat → Nat) (held : List Held) :
    fromParen (held.map (·.moved g)) = (fromParen held).map (·.moved g) := by
  rw [fromParen, List.dropWhile_map]
  rfl

theorem sendBefore_moved (g : Nat → Nat) (b : Binding) (h : Held) (held : List Held) :
    sendBefore b (h.moved g) (held.map (·.moved g)) =
      ((sendBefore b h held).1.map (·.moved g), (sendBefore b h held).2.map (·.moved g)) := by
  simp only [sendBefore, List.takeWhile_map, List.dropWhile_map, List.map_cons]
  rfl

/-- A token does the same at any place, above tokens from any places. -/
theorem send_moved (g : Nat → Nat) (held : List Held) (h : Held) :
    send (held.map (·.moved g)) (h.moved g) = movedSent g (send held h) := by
  obtain ⟨token, position⟩ := h
  change send _ ⟨token, g position⟩ = _
  cases token with
  | number _ | var _ | func _ | leftParen => rfl
  | binary op =>
    exact congrArg Except.ok (sendBefore_moved g op.binding ⟨.binary op, position⟩ held)
  | sign s => exact congrArg Except.ok (sendBefore_moved g Sign.binding ⟨.sign s, position⟩ held)
  | rightParen =>
    simp only [send, fromParen_moved, sinceOpen_moved]
    obtain _ | ⟨paren, _ | ⟨⟨below, i⟩, held'⟩⟩ := fromParen held
    · rfl
    · rfl
    · cases below with
      | func f =>
        simp only [movedSent, moved, List.map_append]
        rfl
      | _ => rfl
  | comma =>
    simp only [send, fromParen_moved, sinceOpen_moved]
    obtain _ | ⟨paren, _ | ⟨⟨below, i⟩, held'⟩⟩ := fromParen held
    · rfl
    · rfl
    · cases below with
      | func f =>
        simp only [movedSent, moved, List.map_append]
        rfl
      | _ => rfl

/-- Tokens do the same at any places. -/
theorem sendAll_moved (g : Nat → Nat) (held hs : List Held) :
    sendAll (held.map (·.moved g)) (hs.map (·.moved g)) = movedSent g (sendAll held hs) := by
  induction hs generalizing held with
  | nil => rfl
  | cons h hs ih =>
    rw [List.map_cons, sendAll_cons, sendAll_cons, send_moved]
    cases send held h with
    | error err => rfl
    | ok first =>
      simp only [movedSent, moved, Except.bind, ih]
      cases sendAll first.2 hs with
      | error err => rfl
      | ok next => simp only [Except.map, List.map_append]

/-- What is held goes out, or is reported, at other places as at its own. -/
theorem sendRest_moved (g : Nat → Nat) (held : List Held) :
    sendRest (held.map (·.moved g)) = moved g (·.map (·.moved g)) (sendRest held) := by
  have hfind : (held.map (·.moved g)).find? (·.token = .leftParen) =
      (held.find? (·.token = .leftParen)).map (·.moved g) := List.find?_map
  rw [sendRest, sendRest, hfind]
  cases held.find? (·.token = .leftParen) <;> rfl

/-- A formula goes out, or fails, at other places as at its own. -/
theorem origins_moved (g : Nat → Nat) (hs : List Held) :
    origins (hs.map (·.moved g)) = moved g (·.map (·.moved g)) (origins hs) := by
  have hall := sendAll_moved g [] hs
  rw [List.map_nil] at hall
  rw [origins_eq, origins_eq, hall]
  cases sendAll [] hs with
  | error err => rfl
  | ok last =>
    simp only [movedSent, moved, Except.bind, sendRest_moved]
    cases sendRest last.2 with
    | error err => rfl
    | ok rest => simp only [Except.map, List.map_append]

/-- Tokens side by side stay so where places are moved by one and the same. -/
theorem placesFrom_moved {g : Nat → Nat} {position : Nat}
    (hg : ∀ i, position ≤ i → g (i + 1) = g i + 1) (tokens : List Token) :
    placesFrom (g position) tokens = (placesFrom position tokens).map (·.moved g) := by
  induction tokens generalizing position with
  | nil => rfl
  | cons token tokens ih =>
    have hrest := ih fun i hi => hg i (Nat.le_of_succ_le hi)
    rw [hg position (Nat.le_refl _)] at hrest
    rw [placesFrom, placesFrom, List.map_cons, hrest]
    rfl

theorem getElem?_placesFrom (position : Nat) (tokens : List Token) (i : Nat) :
    (placesFrom position tokens)[i]? = tokens[i]?.map (⟨·, position + i⟩) := by
  induction tokens generalizing position i with
  | nil => rfl
  | cons token tokens ih =>
    cases i with
    | zero => rfl
    | succ i =>
      rw [placesFrom, List.getElem?_cons_succ, List.getElem?_cons_succ, ih,
        Nat.add_right_comm, Nat.add_assoc]

/-- Any places are those of tokens side by side, moved. -/
theorem exists_eq_moved (hs : List Held) :
    ∃ g : Nat → Nat, hs = (placesFrom 0 (hs.map (·.token))).map (·.moved g) := by
  refine ⟨fun i => hs[i]?.elim 0 (·.position), List.ext_getElem? fun i => ?_⟩
  rw [List.getElem?_map, getElem?_placesFrom, List.getElem?_map]
  cases hi : hs[i]? with
  | none => rfl
  | some h => simp [Held.moved, hi]

/-- Whatever places tokens have, they go out as they do side by side. -/
theorem toRpn_of_origins {order : List Held} (h : origins hs = .ok order) :
    toRpn (hs.map (·.token)) = .ok (order.map (·.token)) := by
  obtain ⟨g, hg⟩ := exists_eq_moved hs
  rw [hg, origins_moved] at h
  rw [toRpn_eq_origins]
  cases horigins : origins (placesFrom 0 (hs.map (·.token))) with
  | error err =>
    rw [horigins] at h
    cases h
  | ok order' =>
    rw [horigins] at h
    cases h
    simp only [Except.map, map_token_moved]

end Rpn

end Formula
