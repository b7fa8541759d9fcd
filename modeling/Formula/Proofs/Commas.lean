import Formula.Proofs.Pairing
import Formula.Proofs.Sentences

/-!
# Formula.Proofs.Commas

Where a comma may stand.

A comma is taken in when the group around it is the argument of a call.  Which
groups these are is decided by what is held below their parenthesis, and that may
be a function that does not stand right before it: in `sin 3(1,2)` the number
has gone out at once, and the function still waits.

* `Waits` — a function still waits for its argument at a place, said of the tokens
  alone;
* `Reaches.waits_iff` — it waits exactly when it is the newest held token;
* `Stray`, `FirstStray` — a comma in no call, and the first of a formula;
* `Reaches.stray_iff` — a comma is stray exactly when it cannot be taken in;
* `strayComma_iff` — the comma that is reported is the first that stands in no
  group for which a function waits; where no group follows the end of an operand,
  these are the groups that follow a function.
-/

namespace Formula

open Brackets

/-! ## Calls -/

/-- The function at the first place still waits for its argument at the second:
since it have come only operands, and calls of other functions to their closing
parentheses. -/
inductive Waits (tokens : List Token) : Nat → Nat → Prop
  | func {j : Nat} {f : Func} (htoken : tokens[j]? = some (.func f)) : Waits tokens j (j + 1)
  | operand {j n : Nat} {token : Token} (h : Waits tokens j n) (htoken : tokens[n]? = some token)
      (hoperand : token.isOperand = true) : Waits tokens j (n + 1)
  | call {j i k n : Nat} (h : Waits tokens j i) (hinner : Waits tokens i k)
      (hpartners : Partners tokens k n) : Waits tokens j (n + 1)

/-- Some function waits for its argument at a place. -/
def Awaited (tokens : List Token) (i : Nat) : Prop := ∃ j, Waits tokens j i

/-- A function stands right before a place. -/
def FollowsFunc (tokens : List Token) (i : Nat) : Prop :=
  ∃ j f, i = j + 1 ∧ tokens[j]? = some (.func f)

/-- No parenthesis opens right after the end of an operand. -/
def GroupsApart (tokens : List Token) : Prop :=
  ∀ i token, tokens[i]? = some token → tokens[i + 1]? = some .leftParen →
    token.endsOperand = false

/-- The token at `p` is a comma, and no parenthesis is open around it, or the
innermost opens no call.  Which parentheses open one is left to `opensCall`. -/
def Stray (opensCall : List Token → Nat → Prop) (tokens : List Token) (p : Nat) : Prop :=
  tokens[p]? = some .comma ∧
    ((∀ i, ¬ Unclosed tokens i p) ∨ ∃ i, Innermost tokens i p ∧ ¬ opensCall tokens i)

/-- The token at `p` is the first stray comma, and every closing parenthesis
before it has a partner. -/
def FirstStray (opensCall : List Token → Nat → Prop) (tokens : List Token) (p : Nat) : Prop :=
  Stray opensCall tokens p ∧ (∀ q < p, ¬ Stray opensCall tokens q) ∧
    ∀ q < p, ¬ Unmatched tokens q

/-- In parentheses a comma is stray when the innermost of them open no call. -/
theorem stray_iff_of_innermost {opensCall : List Token → Nat → Prop} {tokens : List Token}
    {p i : Nat} (htoken : tokens[p]? = some .comma) (hinnermost : Innermost tokens i p) :
    Stray opensCall tokens p ↔ ¬ opensCall tokens i := by
  constructor
  · rintro ⟨-, hnone | ⟨k, hk, hcall⟩⟩
    · exact absurd hinnermost.1 (hnone i)
    · obtain rfl : k = i := Nat.le_antisymm (hinnermost.2 k hk.1) (hk.2 i hinnermost.1)
      exact hcall
  · exact fun hcall => ⟨htoken, .inr ⟨i, hinnermost, hcall⟩⟩

namespace Rpn

variable {tokens : List Token} {n position : Nat} {held held' : List Held} {token : Token}
  {out : List Token} {err : RpnError}

/-! ## Functions that wait are held -/

/-- An operand leaves what is held as it was. -/
theorem Takes.eq_of_isOperand (h : Takes position held token out held')
    (hoperand : token.isOperand = true) : held' = held := by
  have hstep : step position held token = .ok ([token], held) := step_operand hoperand
  rw [step_eq_ok_iff.2 h] at hstep
  cases hstep
  rfl

/-- A function is held above all else. -/
theorem Takes.eq_of_func {f : Func} (h : Takes position held (.func f) out held') :
    held' = ⟨.func f, position⟩ :: held := by
  cases step_eq_ok_iff.2 h
  rfl

/-- The innermost parenthesis lies above those held when it came. -/
theorem Reaches.exists_of_innermost {i : Nat} (h : Reaches tokens n held)
    (hinnermost : Innermost tokens i n) :
    ∃ pending below, held = pending ++ ⟨.leftParen, i⟩ :: below ∧
      (∀ x ∈ pending, x.token ≠ .leftParen) ∧ Reaches tokens i below := by
  obtain ⟨is, hopen⟩ := List.head?_eq_some_iff.1 (h.innermost_iff.1 hinnermost)
  obtain ⟨pending, below, rfl, hpending, -⟩ := exists_of_openParens_eq_cons hopen
  exact ⟨pending, below, rfl, hpending, h.reaches_below rfl rfl⟩

/-- A parenthesis above which no other is held is the innermost. -/
theorem Reaches.innermost_of_held {pending below : List Held} {i : Nat}
    (h : Reaches tokens n (pending ++ ⟨.leftParen, i⟩ :: below))
    (hpending : ∀ x ∈ pending, x.token ≠ .leftParen) : Innermost tokens i n := by
  rw [h.innermost_iff, openParens_append, openParens_eq_nil_iff.2 hpending, List.nil_append,
    openParens_cons_leftParen, List.head?_cons]

/-- A function that waits is the newest held token. -/
theorem Reaches.exists_of_waits {j : Nat} (h : Reaches tokens n held)
    (hwaits : Waits tokens j n) : ∃ f below, held = ⟨.func f, j⟩ :: below := by
  induction hwaits generalizing held with
  | @func j f htoken =>
    obtain ⟨before, out, -, hstep⟩ := h.exists_takes htoken
    exact ⟨f, before, hstep.eq_of_func⟩
  | operand _ htoken hoperand ih =>
    obtain ⟨before, out, h, hstep⟩ := h.exists_takes htoken
    rw [hstep.eq_of_isOperand hoperand]
    exact ih h
  | call _ _ hpartners ih ihinner =>
    obtain ⟨hright, hinnermost⟩ := hpartners
    obtain ⟨before, out, h, hstep⟩ := h.exists_takes hright
    obtain ⟨pending, below, rfl, hpending, hgroup⟩ := h.exists_of_innermost hinnermost
    -- Below the parenthesis lies the function whose group it opens, and below that what was held
    -- when that function came.
    obtain ⟨g, rest, rfl⟩ := ihinner hgroup
    have hcall := step_eq_ok_iff.2 hstep
    rw [step_rightParen_call hpending] at hcall
    cases hcall
    exact ih (hgroup.reaches_below (List.nil_append _).symm rfl)

/-- A function that is the newest held token waits. -/
theorem Reaches.waits_of_func {f : Func} {j : Nat} {below : List Held}
    (h : Reaches tokens n (⟨.func f, j⟩ :: below)) : Waits tokens j n := by
  induction n using Nat.strongRecOn generalizing f j below with
  | _ n ih =>
    generalize hheld : (⟨.func f, j⟩ :: below : List Held) = held at h
    obtain _ | @⟨m, before, _, token, out, h, htoken, hstep⟩ := h
    · cases hheld
    · cases hstep with
      | operand hoperand =>
        subst hheld
        exact .operand (ih m (Nat.lt_succ_self m) h) htoken hoperand
      | func g =>
        cases hheld
        exact .func htoken
      | leftParen => cases hheld
      | operator hoperator =>
        cases hheld
        cases hoperator
      | @call pending _ i g k hpending =>
        subst hheld
        have hgroup : Reaches tokens i (⟨.func g, k⟩ :: ⟨.func f, j⟩ :: below) :=
          h.reaches_below rfl rfl
        have hi : i < m := (h.getElem?_position ⟨.leftParen, i⟩ (by simp)).1
        have hk : k < i := (hgroup.getElem?_position ⟨.func g, k⟩ (by simp)).1
        have houter : Reaches tokens k (⟨.func f, j⟩ :: below) :=
          hgroup.reaches_below (List.nil_append _).symm rfl
        exact .call (ih k (by omega) houter) (ih i (by omega) hgroup)
          ⟨htoken, h.innermost_of_held hpending⟩
      | group hpending hbelow =>
        subst hheld
        exact absurd rfl (hbelow _ rfl f)
      | comma _ => cases hheld

/-- A function waits exactly when it is the newest held token. -/
theorem Reaches.waits_iff {j : Nat} (h : Reaches tokens n held) :
    Waits tokens j n ↔ ∃ f below, held = ⟨.func f, j⟩ :: below := by
  constructor
  · exact h.exists_of_waits
  · rintro ⟨f, below, rfl⟩
    exact h.waits_of_func

/-! ## Commas that cannot be taken in -/

/-- A comma cannot be taken in exactly when it is stray. -/
theorem Reaches.stray_iff (h : Reaches tokens n held) (htoken : tokens[n]? = some .comma) :
    Stray Awaited tokens n ↔ step n held .comma = .error (.strayComma n) := by
  obtain hnone | ⟨pending, i, below, rfl, hpending⟩ := exists_leftParen held
  · have hstep : step n held .comma = .error (.strayComma n) := by
      simp only [step, fromParen_of_forall_ne hnone]
    have hunclosed : ∀ i, ¬ Unclosed tokens i n := by
      intro i hi
      rw [← h.mem_openParens_iff, openParens_eq_nil_iff.2 hnone] at hi
      cases hi
    exact ⟨fun _ => hstep, fun _ => ⟨htoken, .inl hunclosed⟩⟩
  · have hinnermost := h.innermost_of_held hpending
    have hbelow : Reaches tokens i below := h.reaches_below rfl rfl
    rw [stray_iff_of_innermost htoken hinnermost]
    constructor
    · intro hcall
      simp only [step, fromParen_append hpending]
      split
      · rename_i hfunc
        cases hfunc
        exact absurd ⟨_, hbelow.waits_iff.2 ⟨_, _, rfl⟩⟩ hcall
      · rfl
    · rintro hstep ⟨j, hwaits⟩
      obtain ⟨f, rest, rfl⟩ := hbelow.waits_iff.1 hwaits
      rw [step_comma hpending] at hstep
      cases hstep

/-- No comma that is taken in is stray. -/
theorem Reaches.not_stray (h : Reaches tokens n held) {q : Nat} (hq : q < n) :
    ¬ Stray Awaited tokens q := by
  intro hstray
  obtain ⟨after, hafter⟩ := h.exists_reaches_le hq
  obtain ⟨before, out, hbefore, hstep⟩ := hafter.exists_takes hstray.1
  have hfails := (hbefore.stray_iff hstray.1).1 hstray
  rw [step_eq_ok_iff.2 hstep] at hfails
  cases hfails

/-- The tokens before a place are taken in when they have no stray comma and no
closing parenthesis without a partner. -/
theorem exists_reaches (hn : n ≤ tokens.length) (hstray : ∀ q < n, ¬ Stray Awaited tokens q)
    (hunmatched : ∀ q < n, ¬ Unmatched tokens q) : ∃ held, Reaches tokens n held := by
  obtain hreaches | ⟨q, held, token, err, hq, h, htoken, hstep⟩ := exists_reaches_or_error hn
  · exact hreaches
  · obtain ⟨rfl, hopen, -⟩ | ⟨rfl, rfl⟩ := step_eq_error hstep
    · exact absurd ((h.unmatched_iff htoken).2 hopen) (hunmatched q hq)
    · exact absurd ((h.stray_iff htoken).2 hstep) (hstray q hq)

/-- The comma that is reported is the first that cannot be taken in. -/
theorem toRpn_eq_strayComma_iff {p : Nat} :
    toRpn tokens = .error (.strayComma p) ↔ FirstStray Awaited tokens p := by
  constructor
  · intro h
    have hends := ends_toRpn tokens
    rw [h] at hends
    cases hends with
    | stray hreaches htoken hstep =>
      exact ⟨(hreaches.stray_iff htoken).2 hstep, fun q hq => hreaches.not_stray hq,
        fun q hq => hreaches.not_unmatched hq⟩
  · rintro ⟨hstray, hfirst, hunmatched⟩
    have hlt : p < tokens.length := (List.getElem?_eq_some_iff.1 hstray.1).1
    obtain ⟨held, h⟩ := exists_reaches (Nat.le_of_lt hlt) hfirst hunmatched
    exact toRpn_eq_error_of_step h hstray.1 ((h.stray_iff hstray.1).1 hstray)

end Rpn

/-! ## Groups apart from operands -/

variable {tokens : List Token}

/-- A function that waits at a group apart from operands stands right before
it. -/
theorem followsFunc_of_waits {j i : Nat} (hapart : GroupsApart tokens)
    (hleft : tokens[i]? = some .leftParen) (h : Waits tokens j i) : FollowsFunc tokens i := by
  cases h with
  | func htoken => exact ⟨j, _, rfl, htoken⟩
  | @operand _ n token _ htoken hoperand =>
    have hends := hapart n token htoken hleft
    cases token with
    | number _ | var _ => cases hends
    | _ => cases hoperand
  | @call _ _ _ n _ _ hpartners => cases hapart n _ hpartners.1 hleft

/-- For a group apart from operands a function waits when it stands right
before it. -/
theorem awaited_iff_followsFunc {i : Nat} (hapart : GroupsApart tokens)
    (hleft : tokens[i]? = some .leftParen) : Awaited tokens i ↔ FollowsFunc tokens i := by
  constructor
  · exact fun ⟨_, hwaits⟩ => followsFunc_of_waits hapart hleft hwaits
  · rintro ⟨j, f, rfl, htoken⟩
    exact ⟨j, .func htoken⟩

/-- Where groups stand apart from operands, a comma is stray when its group does
not follow a function. -/
theorem stray_awaited_iff {p : Nat} (hapart : GroupsApart tokens) :
    Stray Awaited tokens p ↔ Stray FollowsFunc tokens p := by
  refine and_congr_right fun _ => or_congr_right (exists_congr fun i => ?_)
  refine and_congr_right fun hinnermost => not_congr ?_
  exact awaited_iff_followsFunc hapart hinnermost.1.2.1

/-- **Stray commas are reported exactly.**  The comma that is reported is the first
that stands in no parentheses for which a function waits, and before which every
closing parenthesis has a partner.  Where no parenthesis opens right after the end
of an operand, a function waits for the parentheses that follow it and for no
others. -/
theorem strayComma_iff (tokens : List Token) (p : Nat) :
    (toRpn tokens = .error (.strayComma p) ↔ FirstStray Awaited tokens p) ∧
    (GroupsApart tokens →
      (toRpn tokens = .error (.strayComma p) ↔ FirstStray FollowsFunc tokens p)) := by
  refine ⟨Rpn.toRpn_eq_strayComma_iff, fun hapart => ?_⟩
  rw [Rpn.toRpn_eq_strayComma_iff, FirstStray, FirstStray]
  simp only [stray_awaited_iff hapart]

/-- After the call `sin(x[0],x[1])` a comma is stray, and not in it. -/
theorem strayComma_iff_afterCall :
    GroupsApart [.func .sin, .leftParen, .var 0, .comma, .var 1, .rightParen, .comma] ∧
    FirstStray FollowsFunc
      [.func .sin, .leftParen, .var 0, .comma, .var 1, .rightParen, .comma] 6 := by
  have hapart : GroupsApart
      [.func .sin, .leftParen, .var 0, .comma, .var 1, .rightParen, .comma] := by
    intro i token htoken hleft
    match i with
    | 0 =>
      cases htoken
      rfl
    | 1 | 2 | 3 | 4 | 5 => cases hleft
    | n + 6 => cases hleft
  exact ⟨hapart, ((strayComma_iff _ 6).2 hapart).1 rfl⟩

/-- In `sin 3(1,2)` the comma stands in parentheses that do not follow a function,
and it is taken in. -/
theorem exists_comma_outside_call :
    ∃ tokens p, FirstStray FollowsFunc tokens p ∧
      toRpn tokens = .ok [.number 3, .number 1, .comma, .number 2, .func .sin] := by
  refine ⟨[.func .sin, .number 3, .leftParen, .number 1, .comma, .number 2, .rightParen], 4,
    ⟨⟨rfl, .inr ⟨2, ⟨⟨by decide, rfl, ?_⟩, ?_⟩, ?_⟩⟩, ?_, ?_⟩, rfl⟩
  · intro k hk hle
    obtain rfl | rfl : k = 3 ∨ k = 4 := by omega
    · decide
    · decide
  · rintro i ⟨hlt, hleft, -⟩
    obtain hle | rfl : i ≤ 2 ∨ i = 3 := by omega
    · exact hle
    · cases hleft
  · rintro ⟨j, f, hj, htoken⟩
    cases hj
    cases htoken
  · rintro q hq ⟨hcomma, -⟩
    obtain rfl | rfl | rfl | rfl : q = 0 ∨ q = 1 ∨ q = 2 ∨ q = 3 := by omega
    all_goals cases hcomma
  · rintro q hq ⟨hright, -⟩
    obtain rfl | rfl | rfl | rfl : q = 0 ∨ q = 1 ∨ q = 2 ∨ q = 3 := by omega
    all_goals cases hright

end Formula
