import Formula.Proofs.Places

/-!
# Formula.Proofs.Pairing

The parentheses that are held are those that are unclosed.

* `Reaches.mem_openParens_iff`, `Reaches.innermost_iff`,
  `Reaches.unmatched_iff` — what is held says which parentheses of the formula
  are unclosed, which of them is the innermost, and whether a closing one has a
  partner;
* `Reaches.balanced_iff` — parentheses match when none is held at the end;
* `Ends` — the ways in which a formula can end, of which `ends_toRpn` says that
  there are no others;
* `toRpn_of_parentheses` — where no comma is at fault, a formula goes out
  exactly when its parentheses match, and else the first closing parenthesis
  without a partner is reported, or the last opening one.
-/

namespace Formula

open Brackets

namespace Rpn

variable {tokens : List Token} {n i : Nat} {held held' : List Held} {token : Token}
  {out : List Token} {err : RpnError}

/-! ## Held parentheses -/

theorem mem_openParens : i ∈ openParens held ↔ ⟨.leftParen, i⟩ ∈ held := by
  rw [openParens, List.mem_map]
  constructor
  · rintro ⟨⟨token, position⟩, hmem, rfl⟩
    obtain ⟨hmem, htoken⟩ := List.mem_filter.1 hmem
    obtain rfl : token = .leftParen := by simpa using htoken
    exact hmem
  · exact fun hmem => ⟨_, List.mem_filter.2 ⟨hmem, by simp⟩, rfl⟩

/-- The innermost open parenthesis has no other above it. -/
theorem exists_of_openParens_eq_cons {is : List Nat} (hopen : openParens held = i :: is) :
    ∃ pending below, held = pending ++ ⟨.leftParen, i⟩ :: below ∧
      (∀ x ∈ pending, x.token ≠ .leftParen) ∧ openParens below = is := by
  obtain hnone | ⟨pending, j, below, rfl, hpending⟩ := exists_leftParen held
  · rw [openParens_eq_nil_iff.2 hnone] at hopen
    cases hopen
  · rw [openParens_append, openParens_eq_nil_iff.2 hpending, List.nil_append,
      openParens_cons_leftParen] at hopen
    obtain ⟨rfl, rfl⟩ := List.cons.inj hopen
    exact ⟨pending, below, rfl, hpending, rfl⟩

namespace Reaches

/-- Every place before one that is reached was reached. -/
theorem exists_reaches_le (h : Reaches tokens n held) {m : Nat} (hm : m ≤ n) :
    ∃ held', Reaches tokens m held' := by
  induction h with
  | zero =>
    obtain rfl := Nat.le_zero.1 hm
    exact ⟨[], .zero⟩
  | succ h htoken hstep ih =>
    obtain hlt | rfl := Nat.lt_or_eq_of_le hm
    · exact ih (Nat.lt_succ_iff.1 hlt)
    · exact ⟨_, h.succ htoken hstep⟩

/-- A place is reached by taking in the token before it. -/
theorem exists_takes (h : Reaches tokens (n + 1) held') (htoken : tokens[n]? = some token) :
    ∃ held out, Reaches tokens n held ∧ Takes n held token out held' := by
  obtain _ | ⟨h, htoken', hstep⟩ := h
  rw [htoken] at htoken'
  cases htoken'
  exact ⟨_, _, h, hstep⟩

/-- A parenthesis that is held was held ever since it came. -/
theorem exists_mem_openParens (h : Reaches tokens n held) (hi : i ∈ openParens held) {k : Nat}
    (hik : i < k) (hkn : k ≤ n) : ∃ held', Reaches tokens k held' ∧ i ∈ openParens held' := by
  induction h with
  | zero => cases hi
  | @succ n before after token out h htoken hstep ih =>
    obtain hlt | rfl := Nat.lt_or_eq_of_le hkn
    · have hle : k ≤ n := Nat.lt_succ_iff.1 hlt
      obtain hmem | ⟨hnew, -⟩ := hstep.mem_held _ (mem_openParens.1 hi)
      · exact ih (mem_openParens.2 hmem) hle
      · cases hnew
        omega
    · exact ⟨after, h.succ htoken hstep, hi⟩

/-- From a parenthesis that is held on, more parentheses open than close. -/
theorem depth_between_pos (h : Reaches tokens n held) (hi : i ∈ openParens held) :
    0 < depth (between tokens i n) := by
  obtain ⟨pending, below, rfl⟩ := List.append_of_mem (mem_openParens.1 hi)
  have hlt : i < n := (h.getElem?_position _ (mem_openParens.1 hi)).1
  have hbelow : depth (tokens.take i) = (openParens below).length :=
    (h.reaches_below rfl rfl).depth_take
  have hall := h.depth_take
  rw [openParens_append, openParens_cons_leftParen, List.length_append, List.length_cons] at hall
  have hsum := depth_take_add_between tokens (Nat.le_of_lt hlt)
  omega

/-- The parentheses that are held are the unclosed ones. -/
theorem mem_openParens_iff (h : Reaches tokens n held) :
    i ∈ openParens held ↔ Unclosed tokens i n := by
  constructor
  · intro hi
    obtain ⟨hlt, htoken⟩ := h.getElem?_position _ (mem_openParens.1 hi)
    refine ⟨hlt, htoken, ?_⟩
    intro k hik hkn
    obtain ⟨held', h', hi'⟩ := h.exists_mem_openParens hi hik hkn
    exact h'.depth_between_pos hi'
  · intro hunclosed
    induction h with
    | zero => exact absurd hunclosed.1 (Nat.not_lt_zero i)
    | @succ n before after token out h htoken hstep ih =>
      obtain ⟨hlt, hleft, hdepth⟩ := hunclosed
      obtain hlt | rfl := Nat.lt_succ_iff_lt_or_eq.1 hlt
      · have hmem : i ∈ openParens before :=
          ih ⟨hlt, hleft, fun k hik hkn => hdepth k hik (Nat.le_succ_of_le hkn)⟩
        cases hparen : token.isParen with
        | false => rwa [hstep.openParens_eq hparen]
        | true =>
          cases token with
          | leftParen =>
            rw [hstep.openParens_of_leftParen]
            exact List.mem_cons_of_mem _ hmem
          | rightParen =>
            obtain ⟨j, hj⟩ := hstep.openParens_of_rightParen
            rw [hj] at hmem
            obtain rfl | hmem := List.mem_cons.1 hmem
            · -- The innermost is closed, so no more parentheses open than close from it on.
              obtain ⟨pending, below, rfl, -, hbelow⟩ := exists_of_openParens_eq_cons hj
              have hrest : depth (tokens.take i) = (openParens after).length := by
                rw [← hbelow]
                exact (h.reaches_below rfl rfl).depth_take
              have hall := (h.succ htoken hstep).depth_take
              have hle : i ≤ n + 1 := Nat.le_succ_of_le (Nat.le_of_lt hlt)
              have hsum := depth_take_add_between tokens hle
              have hpos := hdepth (n + 1) (Nat.lt_succ_of_lt hlt) (Nat.le_refl _)
              omega
            · exact hmem
          | _ => cases hparen
      · rw [hleft] at htoken
        cases htoken
        rw [hstep.openParens_of_leftParen]
        exact List.mem_cons_self

/-- The newest of the held parentheses is the innermost of the unclosed ones. -/
theorem innermost_iff (h : Reaches tokens n held) :
    Innermost tokens i n ↔ (openParens held).head? = some i := by
  have hsorted : (openParens held).Pairwise (· > ·) :=
    List.pairwise_map.2 (h.pairwise.filter _)
  cases hopen : openParens held with
  | nil =>
    constructor
    · rintro ⟨hunclosed, -⟩
      rw [← h.mem_openParens_iff, hopen] at hunclosed
      cases hunclosed
    · intro hhead
      cases hhead
  | cons j is =>
    rw [hopen] at hsorted
    have hnewest : ∀ k ∈ openParens held, k ≤ j := by
      rw [hopen]
      intro k hk
      obtain rfl | hk := List.mem_cons.1 hk
      · exact Nat.le_refl _
      · exact Nat.le_of_lt ((List.pairwise_cons.1 hsorted).1 k hk)
    have hj : Unclosed tokens j n := by
      rw [← h.mem_openParens_iff, hopen]
      exact List.mem_cons_self
    rw [List.head?_cons, Option.some.injEq]
    constructor
    · rintro ⟨hunclosed, hmost⟩
      exact Nat.le_antisymm (hmost j hj) (hnewest i (h.mem_openParens_iff.2 hunclosed))
    · rintro rfl
      exact ⟨hj, fun k hk => hnewest k (h.mem_openParens_iff.2 hk)⟩

/-- A closing parenthesis has no partner when none is held. -/
theorem unmatched_iff (h : Reaches tokens n held) (htoken : tokens[n]? = some .rightParen) :
    Unmatched tokens n ↔ openParens held = [] := by
  rw [List.eq_nil_iff_forall_not_mem]
  constructor
  · exact fun hunmatched i hi => hunmatched.2 i (h.mem_openParens_iff.1 hi)
  · exact fun hnone => ⟨htoken, fun i hi => hnone i (h.mem_openParens_iff.2 hi)⟩

/-- Every closing parenthesis that is taken in has a partner. -/
theorem not_unmatched (h : Reaches tokens n held) {j : Nat} (hj : j < n) :
    ¬ Unmatched tokens j := by
  intro hunmatched
  obtain ⟨after, hafter⟩ := h.exists_reaches_le hj
  obtain ⟨before, out, hbefore, hstep⟩ := hafter.exists_takes hunmatched.1
  obtain ⟨i, hi⟩ := hstep.openParens_of_rightParen
  rw [(hbefore.unmatched_iff hunmatched.1).1 hunmatched] at hi
  cases hi

/-- No part that is taken in closes more parentheses than it opens. -/
theorem depth_take_nonneg (h : Reaches tokens n held) {m : Nat} (hm : m ≤ n) :
    0 ≤ depth (tokens.take m) := by
  obtain ⟨held', h'⟩ := h.exists_reaches_le hm
  rw [h'.depth_take]
  exact Int.natCast_nonneg _

/-- So it is with every part of a formula that is taken in to its end. -/
theorem forall_depth_take_nonneg (h : Reaches tokens tokens.length held) (m : Nat) :
    0 ≤ depth (tokens.take m) := by
  obtain hle | hle := Nat.le_total m tokens.length
  · exact h.depth_take_nonneg hle
  · rw [List.take_of_length_le hle]
    simpa using h.depth_take_nonneg (Nat.le_refl _)

/-- A formula that is taken in to its end is balanced when no parenthesis is
held there. -/
theorem balanced_iff (h : Reaches tokens tokens.length held) :
    Balanced tokens ↔ openParens held = [] := by
  have hdepth := h.depth_take
  rw [List.take_length] at hdepth
  rw [← List.length_eq_zero_iff]
  constructor
  · intro hbalanced
    have hzero := hbalanced.2
    omega
  · intro hopen
    exact ⟨h.forall_depth_take_nonneg, by omega⟩

/-- A closing parenthesis with none held closes more than was opened. -/
theorem depth_take_succ_neg (h : Reaches tokens n held)
    (htoken : tokens[n]? = some .rightParen) (hopen : openParens held = []) :
    depth (tokens.take (n + 1)) < 0 := by
  rw [List.take_add_one, htoken, Option.toList_some, depth_append, h.depth_take, hopen]
  decide

end Reaches

/-! ## How a formula ends -/

/-- A step fails at a closing parenthesis with none held, or at a comma. -/
theorem step_eq_error (h : step n held token = .error err) :
    token = .rightParen ∧ openParens held = [] ∧ err = .mismatchedParenthesis n ∨
      token = .comma ∧ err = .strayComma n := by
  cases token with
  | rightParen =>
    obtain hnone | ⟨pending, i, below, rfl, hpending⟩ := exists_leftParen held
    · simp only [step, fromParen_of_forall_ne hnone] at h
      cases h
      exact .inl ⟨rfl, openParens_eq_nil_iff.2 hnone, rfl⟩
    · simp only [step, fromParen_append hpending] at h
      split at h <;> cases h
      contradiction
  | comma =>
    simp only [step] at h
    split at h <;> cases h
    exact .inr ⟨rfl, rfl⟩
  | _ => cases h

/-- The ways in which a formula ends: at a closing parenthesis when none is held,
at a comma that cannot be taken in, or after its last token, where a parenthesis
may still be held. -/
inductive Ends (tokens : List Token) : Except RpnError (List Token) → Prop
  | unmatched {n : Nat} {held : List Held} (h : Reaches tokens n held)
      (htoken : tokens[n]? = some .rightParen) (hopen : openParens held = []) :
      Ends tokens (.error (.mismatchedParenthesis n))
  | stray {n : Nat} {held : List Held} (h : Reaches tokens n held)
      (htoken : tokens[n]? = some .comma) (hstep : step n held .comma = .error (.strayComma n)) :
      Ends tokens (.error (.strayComma n))
  | unclosed {held : List Held} {i : Nat} {is : List Nat} (h : Reaches tokens tokens.length held)
      (hopen : openParens held = i :: is) : Ends tokens (.error (.mismatchedParenthesis i))
  | ok {held : List Held} {out : List Token} (h : Reaches tokens tokens.length held)
      (hopen : openParens held = []) : Ends tokens (.ok out)

/-- A formula ends in one of these ways. -/
theorem ends_toRpn (tokens : List Token) : Ends tokens (toRpn tokens) := by
  obtain ⟨held, h⟩ | ⟨n, held, token, err, -, h, htoken, hstep⟩ :=
    exists_reaches_or_error (Nat.le_refl tokens.length)
  · obtain ⟨out, hout⟩ := toRpn_of_reaches h
    cases hopen : openParens held with
    | nil =>
      rw [hout, drain_eq_ok (openParens_eq_nil_iff.1 hopen)]
      exact .ok h hopen
    | cons i is =>
      obtain ⟨pending, below, rfl, hpending, -⟩ := exists_of_openParens_eq_cons hopen
      rw [hout, drain_eq_error rfl hpending]
      exact .unclosed h hopen
  · rw [toRpn_eq_error_of_step h htoken hstep]
    obtain ⟨rfl, hopen, rfl⟩ | ⟨rfl, rfl⟩ := step_eq_error hstep
    · exact .unmatched h htoken hopen
    · exact .stray h htoken hstep

end Rpn

/-! ## Matching parentheses -/

open Rpn

/-- **Parentheses are reported exactly.**  Where no comma is reported, a formula
goes out exactly when its parentheses are balanced; if more are closed than
opened before some place, the first closing parenthesis without a partner is
reported; and if more are opened than closed in all, the last opening parenthesis
without a partner is.  A comma that is reported is one, and before it every
closing parenthesis has a partner. -/
theorem toRpn_of_parentheses (tokens : List Token) :
    ((∀ p, toRpn tokens ≠ .error (.strayComma p)) →
      ((∃ out, toRpn tokens = .ok out) ↔ Balanced tokens) ∧
      ((∃ n, depth (tokens.take n) < 0) →
        ∃ j, Unmatched tokens j ∧ (∀ k, Unmatched tokens k → j ≤ k) ∧
          toRpn tokens = .error (.mismatchedParenthesis j)) ∧
      ((∀ n, 0 ≤ depth (tokens.take n)) → ¬ Balanced tokens →
        ∃ i, Innermost tokens i tokens.length ∧
          toRpn tokens = .error (.mismatchedParenthesis i))) ∧
    ∀ p, toRpn tokens = .error (.strayComma p) →
      tokens[p]? = some .comma ∧ ∀ j < p, ¬ Unmatched tokens j := by
  have hends := ends_toRpn tokens
  generalize toRpn tokens = result at hends ⊢
  cases hends with
  | @unmatched n held h htoken hopen =>
    have hneg := h.depth_take_succ_neg htoken hopen
    refine ⟨fun _ => ⟨⟨by simp, fun hbalanced => ?_⟩, fun _ => ?_, fun hnonneg => ?_⟩, by simp⟩
    · exact absurd (hbalanced.1 (n + 1)) (Int.not_le.2 hneg)
    · refine ⟨n, (h.unmatched_iff htoken).2 hopen, fun k hk => ?_, rfl⟩
      exact Nat.le_of_not_lt fun hlt => h.not_unmatched hlt hk
    · exact absurd (hnonneg (n + 1)) (Int.not_le.2 hneg)
  | @stray n held h htoken hstep =>
    refine ⟨fun hcomma => absurd rfl (hcomma n), ?_⟩
    rintro p hp
    cases hp
    exact ⟨htoken, fun j hj => h.not_unmatched hj⟩
  | @unclosed held i is h hopen =>
    refine ⟨fun _ => ⟨⟨by simp, fun hbalanced => ?_⟩, ?_, fun _ _ => ?_⟩, by simp⟩
    · rw [h.balanced_iff, hopen] at hbalanced
      cases hbalanced
    · rintro ⟨n, hn⟩
      exact absurd (h.forall_depth_take_nonneg n) (Int.not_le.2 hn)
    · exact ⟨i, h.innermost_iff.2 (by rw [hopen, List.head?_cons]), rfl⟩
  | @ok held out h hopen =>
    have hbalanced := h.balanced_iff.2 hopen
    refine ⟨fun _ => ⟨⟨fun _ => hbalanced, fun _ => ⟨out, rfl⟩⟩, ?_, ?_⟩, by simp⟩
    · rintro ⟨n, hn⟩
      exact absurd (hbalanced.1 n) (Int.not_le.2 hn)
    · exact fun _ hnot => absurd hbalanced hnot

/-- A closing parenthesis too many, two opening ones too many, and a comma outside
all of them. -/
theorem toRpn_of_parentheses_unpaired :
    (∃ j, Unmatched [.var 0, .rightParen, .leftParen] j ∧
      toRpn [.var 0, .rightParen, .leftParen] = .error (.mismatchedParenthesis j)) ∧
    (∃ i, Innermost [.leftParen, .leftParen, .leftParen, .rightParen] i 4 ∧
      toRpn [.leftParen, .leftParen, .leftParen, .rightParen] =
        .error (.mismatchedParenthesis i)) ∧
    toRpn [.var 0, .comma, .rightParen] = .error (.strayComma 1) ∧
      ∀ j < 1, ¬ Unmatched [.var 0, .comma, .rightParen] j := by
  have hclosed : toRpn [.var 0, .rightParen, .leftParen] = .error (.mismatchedParenthesis 1) := rfl
  have hopened : toRpn [.leftParen, .leftParen, .leftParen, .rightParen] =
      .error (.mismatchedParenthesis 1) := rfl
  refine ⟨?_, ?_, rfl, ((toRpn_of_parentheses _).2 1 rfl).2⟩
  · obtain ⟨-, hunmatched, -⟩ :=
      (toRpn_of_parentheses [.var 0, .rightParen, .leftParen]).1 (by simp [hclosed])
    obtain ⟨j, hj, -, hresult⟩ := hunmatched ⟨2, by decide⟩
    exact ⟨j, hj, hresult⟩
  · obtain ⟨-, -, hunclosed⟩ :=
      (toRpn_of_parentheses [.leftParen, .leftParen, .leftParen, .rightParen]).1
        (by simp [hopened])
    refine hunclosed ?_ (fun hbalanced => absurd hbalanced.2 (by decide))
    intro n
    match n with
    | 0 | 1 | 2 | 3 => decide
    | n + 4 =>
      rw [List.take_of_length_le (by simp)]
      decide

end Formula
