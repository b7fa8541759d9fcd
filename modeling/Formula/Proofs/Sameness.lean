import Formula.Proofs.Literals
import Formula.Proofs.Ranking

/-!
# Formula.Proofs.Sameness

What it means that two formulas agree.

Tokens agree when their numbers compare equal, which doubles do that have one place on
the line.  Any tokens that agree with others agree the other way round and along a
chain, but a number that is none does not agree with itself, and the two zeros agree
though they are two.  Neither comes up in a formula, whose numbers have the sign plus:

* `beq_iff_rank?` — numbers compare equal that have the same place;
* `eq_of_beq_of_isPlus` — then they are the same where both have the sign plus;
* `agreeAll_comm`, `agreeAll_trans` — the laws that hold of any tokens;
* `agrees_of_compile` — formulas agree when they are the same, and so have the same
  values.
-/

namespace Formula

open Float.Model

/-! ## Numbers that compare equal -/

variable {x y z : Float}

/-- Two numbers compare equal when they have the same place. -/
theorem beq_iff_rank? : (x == y) = true ↔ ∃ a, rank? x = some a ∧ rank? y = some a := by
  show (x.toModel.unpack.compare y.toModel.unpack == some .eq) = true ↔ _
  simp only [beq_iff_eq, Rank.compare_of?, Option.bind_eq_some_iff, Option.map_eq_some_iff,
    Rank.compare_eq_eq_iff, rank?]
  constructor
  · rintro ⟨a, ha, _, hb, rfl⟩
    exact ⟨a, ha, hb⟩
  · rintro ⟨a, ha, hb⟩
    exact ⟨a, ha, a, hb, rfl⟩

theorem beq_float_comm : (x == y) = (y == x) := by
  rw [Bool.eq_iff_iff, beq_iff_rank?, beq_iff_rank?]
  simp only [and_comm]

theorem beq_float_trans (hxy : (x == y) = true) (hyz : (y == z) = true) : (x == z) = true := by
  obtain ⟨a, hx, hy⟩ := beq_iff_rank?.1 hxy
  obtain ⟨b, hy', hz⟩ := beq_iff_rank?.1 hyz
  rw [hy, Option.some.injEq] at hy'
  subst hy'
  exact beq_iff_rank?.2 ⟨a, hx, hz⟩

/-- Of numbers with the sign plus no two have one place. -/
theorem eq_of_rank_eq {u v : UnpackedFloat} (hu : (Double.ofUnpacked u).isPlus = true)
    (hv : (Double.ofUnpacked v).isPlus = true) (h : Rank.of? u = Rank.of? v) : u = v := by
  have hside : ∀ {a b : Rank}, some a = some b → a.side = b.side :=
    fun h => congrArg Rank.side (Option.some.inj h)
  obtain rfl | rfl | ⟨m, e, hm, rfl⟩ := unpacked_of_isPlus hu <;>
    obtain rfl | rfl | ⟨n, f, hn, rfl⟩ := unpacked_of_isPlus hv
  case inr.inr.inr.inr =>
    have hexponent : e = f := congrArg Rank.exponent (Option.some.inj h)
    have hmantissa : (m : Int) = n := congrArg Rank.mantissa (Option.some.inj h)
    obtain rfl := hexponent
    obtain rfl := Int.ofNat.inj hmantissa
    rfl
  case inl.inl => rfl
  case inr.inl.inr.inl => rfl
  all_goals exact absurd (hside h) (by simp)

theorem eq_of_beq_of_isPlus (hx : IsPlus x) (hy : IsPlus y) (h : (x == y) = true) : x = y := by
  obtain ⟨a, ha, hb⟩ := beq_iff_rank?.1 h
  exact eq_of_unpack_eq
    (eq_of_rank_eq (isPlus_iff_unpack.1 hx) (isPlus_iff_unpack.1 hy) (ha.trans hb.symm))

theorem beq_self_of_isPlus (hx : IsPlus x) : (x == x) = true := by
  have hrank : ∃ a, rank? x = some a := by
    obtain hu | hu | ⟨m, e, hm, hu⟩ := unpacked_of_isPlus (isPlus_iff_unpack.1 hx) <;>
      exact ⟨_, congrArg Rank.of? hu⟩
  obtain ⟨a, ha⟩ := hrank
  exact beq_iff_rank?.2 ⟨a, ha, ha⟩

/-! ## Tokens that agree -/

namespace Token

variable {s t u : Token}

/-- Tokens agree that are numbers and compare equal, or are no numbers and the same. -/
theorem agrees_iff : s.agrees t = true ↔
    (∃ x y, s = number x ∧ t = number y ∧ (x == y) = true) ∨ (∀ x, s ≠ number x) ∧ s = t := by
  constructor
  · intro h
    unfold agrees at h
    split at h
    · exact .inl ⟨_, _, rfl, rfl, h⟩
    · rename_i hne
      obtain rfl := of_decide_eq_true h
      exact .inr ⟨fun x hx => hne x x hx hx, rfl⟩
  · rintro (⟨x, y, rfl, rfl, h⟩ | ⟨hne, rfl⟩)
    · exact h
    · cases s with
      | number x => exact absurd rfl (hne x)
      | _ => simp [agrees]

theorem agrees_symm (h : s.agrees t = true) : t.agrees s = true := by
  obtain ⟨x, y, rfl, rfl, h⟩ | ⟨hne, rfl⟩ := agrees_iff.1 h
  · exact beq_float_comm.symm.trans h
  · exact h

theorem agrees_comm (s t : Token) : s.agrees t = t.agrees s :=
  Bool.eq_iff_iff.2 ⟨agrees_symm, agrees_symm⟩

theorem agrees_trans (hst : s.agrees t = true) (htu : t.agrees u = true) :
    s.agrees u = true := by
  obtain ⟨x, y, rfl, rfl, hxy⟩ | ⟨-, rfl⟩ := agrees_iff.1 hst
  · obtain ⟨_, z, ⟨⟩, rfl, hyz⟩ | ⟨-, rfl⟩ := agrees_iff.1 htu
    · exact beq_float_trans hxy hyz
    · exact hst
  · exact htu

/-- Where numbers have the sign plus, tokens agree that are the same. -/
theorem agrees_iff_eq (hs : ∀ x, s = number x → IsPlus x) (ht : ∀ x, t = number x → IsPlus x) :
    s.agrees t = true ↔ s = t := by
  rw [agrees_iff]
  constructor
  · rintro (⟨x, y, rfl, rfl, h⟩ | ⟨-, rfl⟩)
    · rw [eq_of_beq_of_isPlus (hs x rfl) (ht y rfl) h]
    · rfl
  · rintro rfl
    cases s with
    | number x => exact .inl ⟨x, x, rfl, rfl, beq_self_of_isPlus (hs x rfl)⟩
    | _ => exact .inr ⟨nofun, rfl⟩

end Token

/-! ## Formulas that agree -/

namespace Compiled

variable {ss ts us : List Token}

@[simp] theorem agreeAll_nil_nil : agreeAll [] [] = true := rfl

@[simp] theorem agreeAll_nil_cons (t : Token) (ts : List Token) :
    agreeAll [] (t :: ts) = false := rfl

@[simp] theorem agreeAll_cons_nil (s : Token) (ss : List Token) :
    agreeAll (s :: ss) [] = false := rfl

@[simp] theorem agreeAll_cons_cons (s t : Token) (ss ts : List Token) :
    agreeAll (s :: ss) (t :: ts) = (s.agrees t && agreeAll ss ts) := by
  simp [agreeAll, Bool.and_left_comm]

theorem agreeAll_comm (ss ts : List Token) : agreeAll ss ts = agreeAll ts ss := by
  induction ss generalizing ts with
  | nil => cases ts <;> rfl
  | cons s ss ih =>
    cases ts with
    | nil => rfl
    | cons t ts => rw [agreeAll_cons_cons, agreeAll_cons_cons, s.agrees_comm, ih]

theorem agreeAll_trans (hst : agreeAll ss ts = true) (htu : agreeAll ts us = true) :
    agreeAll ss us = true := by
  induction ss generalizing ts us with
  | nil =>
    cases ts with
    | nil => exact htu
    | cons t ts => cases hst
  | cons s ss ih =>
    cases ts with
    | nil => cases hst
    | cons t ts =>
      cases us with
      | nil => cases htu
      | cons u us =>
        rw [agreeAll_cons_cons, Bool.and_eq_true] at *
        exact ⟨Token.agrees_trans hst.1 htu.1, ih hst.2 htu.2⟩

/-- Where all numbers have the sign plus, only the same tokens agree. -/
theorem agreeAll_iff_eq (hss : ∀ x, .number x ∈ ss → IsPlus x)
    (hts : ∀ x, .number x ∈ ts → IsPlus x) : agreeAll ss ts = true ↔ ss = ts := by
  induction ss generalizing ts with
  | nil => cases ts <;> simp
  | cons s ss ih =>
    cases ts with
    | nil => simp
    | cons t ts =>
      have hs : ∀ x, s = .number x → IsPlus x := fun x hx => hss x (hx ▸ List.mem_cons_self)
      have ht : ∀ x, t = .number x → IsPlus x := fun x hx => hts x (hx ▸ List.mem_cons_self)
      rw [agreeAll_cons_cons, Bool.and_eq_true, Token.agrees_iff_eq hs ht,
        ih (fun x hx => hss x (List.mem_cons_of_mem _ hx))
          (fun x hx => hts x (List.mem_cons_of_mem _ hx)), List.cons.injEq]

variable {c d : Compiled}

theorem agrees_iff : c.agrees d = true ↔ c.mode = d.mode ∧ agreeAll c.tokens d.tokens = true := by
  rw [agrees, Bool.and_eq_true, decide_eq_true_iff]

theorem agrees_comm (c d : Compiled) : c.agrees d = d.agrees c := by
  rw [Bool.eq_iff_iff, agrees_iff, agrees_iff, agreeAll_comm, eq_comm]

theorem agrees_trans {e : Compiled} (hcd : c.agrees d = true) (hde : d.agrees e = true) :
    c.agrees e = true := by
  rw [agrees_iff] at *
  exact ⟨hcd.1.trans hde.1, agreeAll_trans hcd.2 hde.2⟩

/-- Formulas that are read from texts agree only when they are the same. -/
theorem agrees_iff_eq {mode mode' : VarMode} {text text' : String} (hc : compile mode text = .ok c)
    (hd : compile mode' text' = .ok d) : c.agrees d = true ↔ c = d := by
  rw [agrees_iff, agreeAll_iff_eq (fun _ => isPlus_of_mem hc) (fun _ => isPlus_of_mem hd)]
  obtain ⟨tokens, mode⟩ := c
  obtain ⟨tokens', mode'⟩ := d
  simp [and_comm]

end Compiled

/-- **Formulas agree soundly.**  Among formulas that are read from texts, each agrees with
itself, agreement goes both ways and along a chain, and two that agree are the same: every
evaluator gives them the same outcome for the same values, bit for bit. -/
theorem agrees_of_compile {mode mode' : VarMode} {text text' : String} {c d : Compiled}
    (hc : compile mode text = .ok c) (hd : compile mode' text' = .ok d) :
    c.agrees c = true ∧ c.agrees d = d.agrees c ∧
      (∀ e : Compiled, c.agrees d = true → d.agrees e = true → c.agrees e = true) ∧
      (c.agrees d = true ↔ c = d) ∧
      (c.agrees d = true → ∀ (e : Evaluator) (values : Array Float),
        c.evaluateWith e values = d.evaluateWith e values) := by
  have hiff := Compiled.agrees_iff_eq hc hd
  refine ⟨(Compiled.agrees_iff_eq hc hc).2 rfl, Compiled.agrees_comm c d,
    fun e => Compiled.agrees_trans, hiff, fun hagree e values => ?_⟩
  rw [hiff.1 hagree]

/-- Two and a half, written with zeros at the end. -/
def twoAndHalf (zeros : Nat) : Compiled :=
  ⟨[.number (Decimal.toFloat ⟨25 * Nat.pow 10 zeros, zeros + 1⟩)], .constant⟩

/-- A zero at the end of a fraction makes no other formula. -/
theorem agrees_of_compile_zeroAtEnd :
    compile .constant "2.50" = .ok (twoAndHalf 1) ∧ compile .constant "2.5" = .ok (twoAndHalf 0) ∧
      (twoAndHalf 1).agrees (twoAndHalf 1) = true ∧
      (twoAndHalf 1).agrees (twoAndHalf 0) = (twoAndHalf 0).agrees (twoAndHalf 1) ∧
      (∀ e : Compiled, (twoAndHalf 1).agrees (twoAndHalf 0) = true →
        (twoAndHalf 0).agrees e = true → (twoAndHalf 1).agrees e = true) ∧
      ((twoAndHalf 1).agrees (twoAndHalf 0) = true ↔ twoAndHalf 1 = twoAndHalf 0) ∧
      (∀ (e : Evaluator) (values : Array Float),
        (twoAndHalf 1).evaluateWith e values = (twoAndHalf 0).evaluateWith e values) := by
  have hc : compile .constant "2.50" = .ok (twoAndHalf 1) := toOption_eq_some.1 (by decide +kernel)
  have hd : compile .constant "2.5" = .ok (twoAndHalf 0) := toOption_eq_some.1 (by decide +kernel)
  have hagree : (twoAndHalf 1).agrees (twoAndHalf 0) = true := by decide +kernel
  obtain ⟨hself, hcomm, htrans, hiff, hvalues⟩ := agrees_of_compile hc hd
  exact ⟨hc, hd, hself, hcomm, htrans, hiff, hvalues hagree⟩

/-- Of tokens that no text has this does not hold: what is no number differs from itself. -/
example : (Compiled.mk [.number (0 / 0)] .constant).agrees ⟨[.number (0 / 0)], .constant⟩ = false := by
  decide +kernel

end Formula
