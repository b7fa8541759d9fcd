import Formula.Proofs.Groups
import Formula.Proofs.Commas

/-!
# Formula.Proofs.Substitution

A group stands for one operand, whatever is around it.

A formula in which an operand is put in the place of a group goes the same way:
the group leaves what was held as it was, just as the operand does, and what
follows meets the same held tokens at other places.

* `FuncsOpen` — every function stands before an opening parenthesis, so that no
  function waits at the end (`head?_ne_func_of_run`);
* `toRpn_around` — what is between two parts and leaves the held tokens as they
  were adds what it sends out, and nothing else;
* `toRpn_group_in_context` — a formula with a group goes out as with an operand,
  which is then replaced by what the group sends out alone; and it fails where
  it fails with the operand, at a place moved by the length of the group.
-/

namespace Formula

/-! ## Replacing a token -/

/-- The tokens with every occurrence of one of them replaced. -/
def replaced (token : Token) (order tokens : List Token) : List Token :=
  tokens.flatMap fun t => if t = token then order else [t]

@[simp] theorem replaced_append (token : Token) (order s t : List Token) :
    replaced token order (s ++ t) = replaced token order s ++ replaced token order t :=
  List.flatMap_append

@[simp] theorem replaced_singleton (token : Token) (order : List Token) :
    replaced token order [token] = order := by
  simp [replaced]

/-- Where a token does not occur, nothing is replaced. -/
theorem replaced_of_not_mem {token : Token} {order tokens : List Token} (h : token ∉ tokens) :
    replaced token order tokens = tokens := by
  induction tokens with
  | nil => rfl
  | cons t tokens ih =>
    obtain ⟨hne, hmem⟩ := not_or.1 (mt List.mem_cons.2 h)
    rw [← List.singleton_append, replaced_append, ih hmem]
    simp [replaced, Ne.symm hne]

/-! ## Functions before parentheses -/

/-- Every function stands before an opening parenthesis. -/
def FuncsOpen (tokens : List Token) : Prop :=
  ∀ i f, tokens[i]? = some (.func f) → tokens[i + 1]? = some .leftParen

/-- Where every function stands before a parenthesis, it waits only right after
it has come. -/
theorem Waits.eq_succ {tokens : List Token} {j n : Nat} (hfuncs : FuncsOpen tokens)
    (h : Waits tokens j n) : n = j + 1 ∧ ∃ f, tokens[j]? = some (.func f) := by
  induction h with
  | func htoken => exact ⟨rfl, _, htoken⟩
  | operand _ htoken hoperand ih =>
    obtain ⟨rfl, f, hf⟩ := ih
    rw [hfuncs _ f hf] at htoken
    cases htoken
    cases hoperand
  | call _ _ _ ih ihinner =>
    obtain ⟨rfl, f, hf⟩ := ih
    obtain ⟨-, g, hg⟩ := ihinner
    rw [hfuncs _ f hf] at hg
    cases hg

/-- The places past `n`, moved by `k`. -/
def shiftPast (n k i : Nat) : Nat := if i ≤ n then i else i + k

theorem shiftPast_of_le {n k i : Nat} (h : i ≤ n) : shiftPast n k i = i := if_pos h

theorem shiftPast_succ {n k i : Nat} (h : n < i) : shiftPast n k (i + 1) = shiftPast n k i + 1 := by
  rw [shiftPast, shiftPast, if_neg (by omega), if_neg (by omega)]
  omega

namespace Rpn

variable {position : Nat} {held held' : List Held} {token : Token}
  {tokens pre mid post out first : List Token} {err : RpnError}

/-- No function waits after tokens of which every function stands before a
parenthesis. -/
theorem head?_ne_func_of_run (hfuncs : FuncsOpen tokens)
    (h : run 0 [] tokens = .ok (out, held)) :
    ∀ x ∈ held.head?, ∀ f, x.token ≠ .func f := by
  rintro ⟨token, j⟩ hx f rfl
  obtain ⟨below, rfl⟩ := List.head?_eq_some_iff.1 hx
  obtain ⟨hlast, g, hg⟩ := (reaches_of_run h).waits_of_func.eq_succ hfuncs
  -- The function would be the last token, with nothing after it.
  have hnext := hfuncs j g hg
  rw [← hlast, List.getElem?_eq_none (Nat.le_refl _)] at hnext
  cases hnext

/-! ## What is held and what goes out -/

/-- What goes out or is held was held before or has been taken in. -/
theorem mem_of_run (hparen : token.isParen = false)
    (h : run position held tokens = .ok (out, held'))
    (hmem : token ∈ out ++ held'.map (·.token)) :
    token ∈ held.map (·.token) ∨ token ∈ tokens := by
  have hkept : token ∈ withoutParens (out ++ held'.map (·.token)) :=
    List.mem_filter.2 ⟨hmem, by rw [hparen]; rfl⟩
  exact List.mem_append.1 (List.mem_filter.1 ((perm_of_run h).mem_iff.1 hkept)).1

/-- A run fails at one of its tokens. -/
theorem moved_eq_self_of_run {g : Nat → Nat} (hg : ∀ i < tokens.length, g i = i)
    (h : run 0 [] tokens = .error err) : err.moved g = err := by
  obtain ⟨held, hreaches⟩ | ⟨q, held, token, err', hq, hreaches, htoken, hstep⟩ :=
    exists_reaches_or_error (Nat.le_refl tokens.length)
  · obtain ⟨-, out, hrun⟩ := hreaches.exists_run
    rw [List.take_length, h] at hrun
    cases hrun
  · rw [run_eq_error_of_step hreaches htoken hstep] at h
    cases h
    obtain ⟨-, -, rfl⟩ | ⟨-, rfl⟩ := step_eq_error hstep
    · exact congrArg RpnError.mismatchedParenthesis (hg q hq)
    · exact congrArg RpnError.strayComma (hg q hq)

/-- Held tokens whose places stay are the same. -/
theorem map_moved_eq_self {g : Nat → Nat} (h : ∀ x ∈ held, g x.position = x.position) :
    held.map (·.moved g) = held := by
  have hsame : ∀ x ∈ held, x.moved g = x := fun x hx => by rw [Held.moved, h x hx]
  rw [List.map_congr_left hsame, List.map_id']

/-- What is held goes out, or is reported, at other places as at its own. -/
theorem drain_moved (g : Nat → Nat) (held : List Held) :
    drain (held.map (·.moved g)) = moved g id (drain held) := by
  have hfind : (held.map (·.moved g)).find? (·.token = .leftParen) =
      (held.find? (·.token = .leftParen)).map (·.moved g) := List.find?_map
  rw [drain, drain, hfind]
  cases held.find? (·.token = .leftParen) with
  | some h => rfl
  | none => simp only [Option.map_none, map_token_moved, moved, id]

/-- What goes out last is what is held. -/
theorem eq_map_of_drain (h : drain held = .ok out) : out = held.map (·.token) := by
  obtain hopen | ⟨pending, i, below, rfl, hpending⟩ := exists_leftParen held
  · rw [drain_eq_ok hopen] at h
    cases h
    rfl
  · rw [drain_eq_error rfl hpending] at h
    cases h

/-! ## Parts of a formula -/

/-- What follows a longer part meets the same held tokens, only later. -/
theorem run_shiftPast {n : Nat} (k : Nat) (hheld : ∀ x ∈ held, x.position < n)
    (tokens : List Token) :
    run (n + 1 + k) held tokens =
      moved (shiftPast n k) (fun (out, held) => (out, held.map (·.moved (shiftPast n k))))
        (run (n + 1) held tokens) := by
  have hplace : shiftPast n k (n + 1) = n + 1 + k := if_neg (by omega)
  rw [← run_moved _ (fun i hi => shiftPast_succ hi), hplace,
    map_moved_eq_self fun x hx => shiftPast_of_le (Nat.le_of_lt (hheld x hx))]

/-- A formula fails where its first part does. -/
theorem toRpn_append_of_error (h : run 0 [] pre = .error err) (post : List Token) :
    toRpn (pre ++ post) = .error err := by
  rw [toRpn, run_append, h]
  rfl

/-- What leaves the held tokens as they were adds to the order what it sends out,
and nothing else. -/
theorem toRpn_around (hpre : run 0 [] pre = .ok (first, held))
    (hmid : run pre.length held mid = .ok (out, held)) (post : List Token) :
    toRpn (pre ++ mid ++ post) =
      (run (pre.length + mid.length) held post).bind fun next =>
        (drain next.2).map fun rest => first ++ out ++ (next.1 ++ rest) := by
  have hfront : run 0 [] (pre ++ mid) = .ok (first ++ out, held) :=
    run_append_ok hpre (by rwa [Nat.zero_add])
  rw [toRpn, run_append, hfront, Nat.zero_add, List.length_append]
  simp only [bind, Except.bind]
  cases run (pre.length + mid.length) held post with
  | error err => rfl
  | ok next =>
    simp only [Except.map]
    cases drain next.2 with
    | error err => rfl
    | ok rest => simp only [pure, Except.pure, List.append_assoc]

end Rpn

open Rpn

/-- **A group is one operand.**  Whatever stands before it, as long as every
function there stands before a parenthesis, and whatever follows, a group around
tokens that can be brought into order does what a variable in its place does.
Both formulas go out, the one with the order of the tokens where the other has
the variable; or both fail, in the same way and at the same token. -/
theorem toRpn_group_in_context {tokens order pre post : List Token} {v : Nat}
    (horder : toRpn tokens = .ok order) (hfuncs : FuncsOpen pre)
    (hpre : .var v ∉ pre) (hpost : .var v ∉ post) :
    toRpn (pre ++ .leftParen :: (tokens ++ [.rightParen]) ++ post) =
      match toRpn (pre ++ [.var v] ++ post) with
      | .ok out => .ok (replaced (.var v) order out)
      | .error err => .error (err.moved (shiftPast pre.length (tokens.length + 1))) := by
  cases hrun : run 0 [] pre with
  | error err =>
    rw [List.append_assoc, List.append_assoc, toRpn_append_of_error hrun,
      toRpn_append_of_error hrun]
    exact congrArg Except.error
      (moved_eq_self_of_run (fun i hi => shiftPast_of_le (Nat.le_of_lt hi)) hrun).symm
  | ok before =>
    obtain ⟨first, held⟩ := before
    have hgroup := run_group horder pre.length held (head?_ne_func_of_run hfuncs hrun)
    have hvar : run pre.length held [.var v] = .ok ([.var v], held) := run_singleton ..
    rw [toRpn_around hrun hgroup, toRpn_around hrun hvar]
    have hlength : pre.length + (Token.leftParen :: (tokens ++ [.rightParen])).length =
        pre.length + 1 + (tokens.length + 1) := by
      rw [List.length_cons, List.length_append, List.length_singleton]
      omega
    have hplaces := (reaches_of_run hrun).getElem?_position
    rw [hlength, run_shiftPast _ fun x hx => (hplaces x hx).1]
    have hheld : .var v ∉ first ++ held.map (·.token) := by
      intro hmem
      obtain hmem | hmem := mem_of_run rfl hrun hmem
      · cases hmem
      · exact hpre hmem
    cases hrest : run (pre.length + 1) held post with
    | error err => rfl
    | ok next =>
      obtain ⟨out, held'⟩ := next
      have hnext : .var v ∉ out ++ held'.map (·.token) := by
        intro hmem
        obtain hmem | hmem := mem_of_run rfl hrest hmem
        · exact hheld (List.mem_append_right _ hmem)
        · exact hpost hmem
      simp only [moved, Except.bind, drain_moved]
      cases hdrain : drain held' with
      | error err => rfl
      | ok rest =>
        obtain rfl := eq_map_of_drain hdrain
        have hfirst : .var v ∉ first := fun hmem => hheld (List.mem_append_left _ hmem)
        simp only [id, Except.map, replaced_append, replaced_singleton, replaced_of_not_mem hfirst]
        rw [← replaced_append, replaced_of_not_mem hnext]

/-- The beginning `sin(-` of a formula. -/
def openSine : List Token := [.func .sin, .leftParen, .sign .neg]

/-- Within `sin(-` and what follows, the product `x[0]*x[1]` in parentheses stands
for `x[9]`.  With a parenthesis too many after it the formula fails at the same
parenthesis, four tokens later. -/
theorem toRpn_group_in_context_sine :
    toRpn (openSine ++ .leftParen :: ([.var 0, .binary .mul, .var 1] ++ [.rightParen]) ++
        [.binary .pow, .var 2, .rightParen]) =
      .ok (replaced (.var 9) [.var 0, .var 1, .binary .mul]
        [.var 9, .var 2, .binary .pow, .sign .neg, .func .sin]) ∧
    toRpn (openSine ++ .leftParen :: ([.var 0, .binary .mul, .var 1] ++ [.rightParen]) ++
        [.rightParen, .rightParen, .comma]) = .error (.mismatchedParenthesis 9) := by
  have hfuncs : FuncsOpen openSine := by
    intro i f h
    match i with
    | 0 => rfl
    | 1 | 2 => cases h
    | i + 3 => cases h
  exact ⟨toRpn_group_in_context rfl hfuncs (by decide) (by decide),
    toRpn_group_in_context (v := 9) rfl hfuncs (by decide) (by decide)⟩

end Formula
