import Formula.Proofs.Origins
import Formula.Proofs.Placing

/-!
# Formula.Proofs.Dropping

Plus signs may be dropped before the tokens are brought into order as well as
after it.

* `Clear` — no plus sign that is dropped lies right above a function, which is
  so because no function is held where an operand is awaited;
* `send_filter`, `sendAll_filter` — tokens that are kept do the same among those
  that are kept;
* `origins_filter` — so does a whole formula.
-/

namespace Formula

namespace Rpn

/-- Whether only plus signs are dropped. -/
def DropsPlus (keep : Held → Bool) : Prop := ∀ h, keep h = false → h.token = .sign .pos

/-- Whether no held token that is dropped lies right above a function. -/
def Clear (keep : Held → Bool) : List Held → Prop
  | [] => True
  | h :: held => (keep h = false → Stays Sign.binding held) ∧ Clear keep held

variable {keep : Held → Bool} {held held' pending below hs out : List Held} {h : Held}
  {previous : Option Token}

/-! ## What is held -/

theorem Clear.of_append (h : Clear keep (pending ++ held)) : Clear keep held := by
  induction pending with
  | nil => exact h
  | cons x pending ih => exact ih h.2

/-- Where a sign would send nothing out, it sends nothing out among the tokens that
are kept. -/
theorem Stays.filter (hclear : Clear keep held) (h : Stays Sign.binding held) :
    Stays Sign.binding (held.filter keep) := by
  induction held with
  | nil => exact h
  | cons x held ih =>
    cases hx : keep x with
    | true =>
      rw [List.filter_cons_of_pos hx]
      exact h
    | false =>
      rw [List.filter_cons_of_neg (by simp [hx])]
      exact ih hclear.2 (hclear.1 hx)

/-- Of the tokens that are kept, those that have a property at the beginning are
those that have it at the beginning of all, if what is dropped has it. -/
theorem span_filter {p : Held → Bool} (hp : ∀ x, keep x = false → p x = true)
    (held : List Held) :
    (held.filter keep).takeWhile p = (held.takeWhile p).filter keep ∧
      (held.filter keep).dropWhile p = (held.dropWhile p).filter keep := by
  have hsame : (fun x => !keep x || p x) = p := by
    funext x
    cases hx : keep x with
    | true => rfl
    | false => rw [hp x hx]; rfl
  rw [List.takeWhile_filter, List.dropWhile_filter, hsame]
  exact ⟨rfl, rfl⟩

/-- What goes before a sign or a power is kept, and no more comes before it when
plus signs are dropped. -/
theorem spanSign_filter (hkeep : DropsPlus keep) (hclear : Clear keep held) :
    (held.filter keep).takeWhile (goesBefore Sign.binding) =
        (held.takeWhile (goesBefore Sign.binding)).filter keep ∧
      (held.filter keep).dropWhile (goesBefore Sign.binding) =
        (held.dropWhile (goesBefore Sign.binding)).filter keep := by
  obtain ⟨pending, rest, rfl, hpending, hrest⟩ :=
    exists_append_of_stop (goesBefore Sign.binding) held
  have hkept : pending.filter keep = pending := by
    refine List.filter_eq_self.2 fun x hx => ?_
    cases hdrop : keep x with
    | true => rfl
    | false =>
      obtain ⟨f, hf⟩ := exists_func_of_goesBefore (hpending x hx)
      rw [hkeep x hdrop] at hf
      cases hf
  have hstays : Stays Sign.binding (rest.filter keep) := Stays.filter hclear.of_append hrest
  rw [List.filter_append, hkept, takeWhile_append_of_stop hpending hstays,
    dropWhile_append_of_stop hpending hstays, takeWhile_append_of_stop hpending hrest,
    dropWhile_append_of_stop hpending hrest, hkept]
  exact ⟨rfl, rfl⟩

/-- A plus sign goes before every operator but signs and powers. -/
theorem spanBinary_filter (hkeep : DropsPlus keep) (hclear : Clear keep held) (op : BinOp) :
    (held.filter keep).takeWhile (goesBefore op.binding) =
        (held.takeWhile (goesBefore op.binding)).filter keep ∧
      (held.filter keep).dropWhile (goesBefore op.binding) =
        (held.dropWhile (goesBefore op.binding)).filter keep := by
  cases op with
  | pow => exact spanSign_filter hkeep hclear
  | add | sub | mul | div =>
    refine span_filter (fun x hx => ?_) held
    rw [goesBefore, hkeep x hx]
    rfl

/-! ## One token -/

/-- What goes out and is held, of the tokens that are kept. -/
def keptSent (keep : Held → Bool) : Sent → Sent :=
  Except.map fun (out, held) => (out.filter keep, held.filter keep)

/-- No parenthesis is dropped. -/
theorem DropsPlus.ne_leftParen (hkeep : DropsPlus keep) :
    ∀ x, keep x = false → decide (x.token ≠ .leftParen) = true := by
  intro x hx
  rw [hkeep x hx]
  rfl

/-- A kept token that is no plus sign. -/
theorem DropsPlus.keep_of_ne (hkeep : DropsPlus keep) {x : Held} (hx : x.token ≠ .sign .pos) :
    keep x = true := by
  cases hdrop : keep x with
  | true => rfl
  | false => exact absurd (hkeep x hdrop) hx

/-- A function lies on top, or a sign would send nothing out. -/
theorem exists_func_or_stays (held : List Held) :
    (∃ f i below, held = ⟨.func f, i⟩ :: below) ∨ Stays Sign.binding held := by
  cases held with
  | nil => exact .inr (by simp [Stays])
  | cons x below =>
    cases hx : goesBefore Sign.binding x with
    | true =>
      obtain ⟨f, hf⟩ := exists_func_of_goesBefore hx
      exact .inl ⟨f, x.position, below, by rw [← hf]⟩
    | false =>
      refine .inr ?_
      rintro y hy
      cases hy
      exact hx

section

variable {paren : Held} {position : Nat} (hfrom : fromParen held = paren :: below)
include hfrom

/-- A closing parenthesis completes no call where no function lies below the
opening one. -/
theorem send_rightParen (hbelow : Stays Sign.binding below) :
    send held ⟨.rightParen, position⟩ = .ok (sinceOpen held, below) := by
  simp only [send, hfrom]
  split
  · rename_i hnil
    cases hnil
  · rename_i hcall
    cases hcall
    exact absurd rfl (hbelow.ne_func _ rfl _)
  · rename_i hgroup
    cases hgroup
    rfl

/-- Nor may a comma stand there. -/
theorem send_comma (hbelow : Stays Sign.binding below) :
    send held ⟨.comma, position⟩ = .error (.strayComma position) := by
  simp only [send, hfrom]
  split
  · rename_i hcall
    cases hcall
    exact absurd rfl (hbelow.ne_func _ rfl _)
  · rfl

end

/-- The innermost open parenthesis is that of a call among the tokens that are kept
exactly when it is among all. -/
theorem fromParen_filter (hkeep : DropsPlus keep) (hclear : Clear keep held) :
    fromParen held = [] ∨
    (∃ paren f i below, fromParen held = paren :: ⟨.func f, i⟩ :: below ∧
      (fromParen held).filter keep = paren :: ⟨.func f, i⟩ :: below.filter keep) ∨
    ∃ paren below, fromParen held = paren :: below ∧ Stays Sign.binding below ∧
      (fromParen held).filter keep = paren :: below.filter keep ∧
      Stays Sign.binding (below.filter keep) := by
  obtain hnone | ⟨pending, i, below, rfl, hpending⟩ := exists_leftParen held
  · exact .inl (fromParen_of_forall_ne hnone)
  refine .inr ?_
  rw [fromParen_append hpending, List.filter_cons_of_pos (hkeep.keep_of_ne (by simp))]
  obtain ⟨f, j, below, rfl⟩ | hstays := exists_func_or_stays below
  · rw [List.filter_cons_of_pos (hkeep.keep_of_ne (by simp))]
    exact .inl ⟨_, f, j, below, rfl, rfl⟩
  · exact .inr ⟨_, below, rfl, hstays, rfl, hstays.filter hclear.of_append.2⟩

/-- A token that is kept does the same among those that are kept. -/
theorem send_filter (hkeep : DropsPlus keep) (hclear : Clear keep held) (hh : keep h = true) :
    send (held.filter keep) h = keptSent keep (send held h) := by
  have hself : [h].filter keep = [h] := List.filter_cons_of_pos hh
  obtain ⟨hsince, hfrom⟩ := span_filter hkeep.ne_leftParen held
  change sinceOpen (held.filter keep) = (sinceOpen held).filter keep at hsince
  change fromParen (held.filter keep) = (fromParen held).filter keep at hfrom
  obtain ⟨token, position⟩ := h
  cases token with
  | number _ | var _ => simp only [send, keptSent, Except.map, hself]
  | func _ | leftParen =>
    simp only [send, keptSent, Except.map, List.filter_cons_of_pos hh, List.filter_nil]
  | binary op =>
    obtain ⟨hbefore, hafter⟩ := spanBinary_filter hkeep hclear op
    simp only [send, sendBefore, keptSent, Except.map, List.filter_cons_of_pos hh, hbefore, hafter]
  | sign s =>
    obtain ⟨hbefore, hafter⟩ := spanSign_filter hkeep hclear
    simp only [send, sendBefore, keptSent, Except.map, List.filter_cons_of_pos hh, hbefore, hafter]
  | rightParen =>
    obtain hnone | ⟨paren, f, i, below, hcall, hcall'⟩ | ⟨paren, below, hgroup, hstays, hgroup',
      hstays'⟩ := fromParen_filter hkeep hclear
    · rw [hnone] at hfrom
      simp only [send, hnone, hfrom, List.filter_nil]
      rfl
    · rw [hcall'] at hfrom
      have hfunc : [(⟨.func f, i⟩ : Held)].filter keep = [⟨.func f, i⟩] :=
        List.filter_cons_of_pos (hkeep.keep_of_ne (by simp))
      simp only [send, hcall, hfrom, keptSent, Except.map, hsince, List.filter_append, hfunc]
    · rw [hgroup'] at hfrom
      rw [send_rightParen hgroup hstays, send_rightParen hfrom hstays', hsince]
      rfl
  | comma =>
    obtain hnone | ⟨paren, f, i, below, hcall, hcall'⟩ | ⟨paren, below, hgroup, hstays, hgroup',
      hstays'⟩ := fromParen_filter hkeep hclear
    · rw [hnone] at hfrom
      simp only [send, hnone, hfrom, List.filter_nil]
      rfl
    · rw [hcall'] at hfrom
      rw [hcall] at hcall'
      simp only [send, hcall, hfrom, keptSent, Except.map, hsince, List.filter_append, hself,
        hcall']
    · rw [hgroup'] at hfrom
      rw [send_comma hgroup hstays, send_comma hfrom hstays']
      rfl

/-! ## Several tokens -/

/-- What is held is clear after a token that is where it belongs, and no function
lies on top where an operand is awaited. -/
theorem clear_of_send (hkeep : DropsPlus keep) (hclear : Clear keep held)
    (hsend : send held h = .ok (out, held')) :
    Clear keep held' ∧ (awaitsOperand (some h.token) = true → Stays Sign.binding held') := by
  have htakes : Takes h.position held h.token (out.map (·.token)) held' := by
    rw [← step_eq_ok_iff, step_eq_forget, hsend]
    rfl
  obtain ⟨token, position⟩ := h
  generalize out.map (·.token) = sent at htakes
  cases htakes with
  | operand hoperand =>
    refine ⟨hclear, fun hawaits => ?_⟩
    cases token with
    | number _ | var _ => cases hawaits
    | _ => cases hoperand
  | func f =>
    refine ⟨⟨fun hdrop => ?_, hclear⟩, fun hawaits => ?_⟩
    · cases hkeep _ hdrop
    · cases hawaits
  | leftParen =>
    refine ⟨⟨fun hdrop => ?_, hclear⟩, fun _ => ?_⟩
    · cases hkeep _ hdrop
    · rintro x hx
      cases hx
      rfl
  | operator hoperator hbinding _ hheld =>
    refine ⟨⟨fun hdrop => ?_, hclear.of_append⟩, fun _ => ?_⟩
    · -- Only a sign is dropped, and so what was held stays before a sign.
      have hpos : token = .sign .pos := hkeep _ hdrop
      rw [hpos] at hbinding
      cases hbinding
      exact hheld
    · rintro x hx
      cases hx
      cases token with
      | binary op => cases op <;> rfl
      | sign s => rfl
      | _ => cases hoperator
  | call _ => exact ⟨hclear.of_append.2.2, fun hawaits => by cases hawaits⟩
  | group _ _ => exact ⟨hclear.of_append.2, fun hawaits => by cases hawaits⟩
  | comma _ =>
    refine ⟨hclear.of_append, fun _ => ?_⟩
    rintro x hx
    cases hx
    rfl

/-- A plus sign where an operand is awaited is held, and sends nothing out. -/
theorem send_pos (hpos : h.token = .sign .pos) (hstays : Stays Sign.binding held) :
    send held h = .ok ([], h :: held) := by
  have hspan := takeWhile_append_of_stop (s := []) (by simp) hstays
  have hrest := dropWhile_append_of_stop (s := []) (by simp) hstays
  rw [List.nil_append] at hspan hrest
  simp only [send, hpos, sendBefore, hspan, hrest]

/-- Tokens that are kept do the same among those that are kept. -/
theorem sendAll_filter (hkeep : DropsPlus keep) (hclear : Clear keep held)
    (hstays : awaitsOperand previous = true → Stays Sign.binding held)
    (hplaced : PlacedAll previous (hs.map (·.token))) :
    sendAll (held.filter keep) (hs.filter keep) = keptSent keep (sendAll held hs) := by
  induction hs generalizing held previous with
  | nil => rfl
  | cons h hs ih =>
    rw [List.map_cons] at hplaced
    obtain ⟨hplace, hplaced⟩ := hplaced
    cases hh : keep h with
    | true =>
      rw [List.filter_cons_of_pos hh, sendAll_cons, sendAll_cons, send_filter hkeep hclear hh]
      cases hsend : send held h with
      | error err => rfl
      | ok first =>
        obtain ⟨hclear', hstays'⟩ := clear_of_send hkeep hclear hsend
        simp only [keptSent, Except.map, Except.bind, ih hclear' hstays' hplaced]
        cases sendAll first.2 hs with
        | error err => rfl
        | ok next => simp only [List.filter_append]
    | false =>
      have hpos := hkeep h hh
      rw [hpos] at hplace
      have hsend := send_pos hpos (hstays hplace)
      obtain ⟨hclear', hstays'⟩ := clear_of_send hkeep hclear hsend
      have hrest := ih hclear' hstays' hplaced
      rw [List.filter_cons_of_neg (by simp [hh])] at hrest ⊢
      rw [hrest, sendAll_cons, hsend]
      simp only [Except.bind, List.nil_append]
      cases sendAll (h :: held) hs <;> rfl

/-- What is held goes out, or is reported, as among the tokens that are kept. -/
theorem sendRest_filter (hkeep : DropsPlus keep) (held : List Held) :
    sendRest (held.filter keep) = (sendRest held).map (·.filter keep) := by
  have hfind : (held.filter keep).find? (·.token = .leftParen) =
      held.find? (·.token = .leftParen) := by
    rw [List.find?_filter]
    congr 1
    funext x
    cases hx : keep x with
    | true => simp
    | false => simp [hkeep x hx]
  rw [sendRest, sendRest, hfind]
  cases held.find? (·.token = .leftParen) <;> rfl

/-- **Plus signs may be dropped before or after.**  Where the signs of a formula
stand where an operand is awaited, its tokens without some of its plus signs go
out as before, without them. -/
theorem origins_filter (hkeep : DropsPlus keep) (hplaced : PlacedAll none (hs.map (·.token))) :
    origins (hs.filter keep) = (origins hs).map (·.filter keep) := by
  have hnone : Clear keep ([] : List Held) := trivial
  have hall := sendAll_filter hkeep hnone (fun _ => by simp [Stays]) hplaced
  rw [List.filter_nil] at hall
  rw [origins_eq, origins_eq, hall]
  cases sendAll [] hs with
  | error err => rfl
  | ok last =>
    simp only [keptSent, Except.map, Except.bind, sendRest_filter hkeep]
    cases sendRest last.2 with
    | error err => rfl
    | ok rest => simp only [List.filter_append]

end Rpn

end Formula
