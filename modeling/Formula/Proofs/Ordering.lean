import Formula.Grammar.Basic
import Formula.Proofs.Step

/-!
# Formula.Proofs.Ordering

Taking in the tokens of a formula of the grammar sends them out in the order
of its derivation.

No tree is built on the way: what has been read of a formula is partly out
already and partly held.  A formula of a level leaves behind some *pending*
tokens, which all go out before any operator that may follow it
(`Level.followedBy`), and it touches nothing that was held before
(`Level.loosest`).  `Ordered` says this of a list of tokens, and
`ordered_tokens` proves it of every derivation, by induction.
-/

namespace Formula

/-! ## The levels of a formula -/

/-- The operators that may follow a formula of the level, and end it: the
tightest of them. -/
def Level.followedBy : Level → Binding
  | sum | arguments => ⟨1, .left⟩
  | term | factor => ⟨2, .left⟩
  | primary => ⟨3, .right⟩

/-- The operators that may join the parts of a formula of the level: the
loosest of them. -/
def Level.loosest : Level → Binding
  | sum | arguments => ⟨1, .left⟩
  | term => ⟨2, .left⟩
  | factor | primary => ⟨3, .right⟩

namespace Rpn

/-- Whether a formula of the level may begin when `calls` are held above
`held`.  Only a primary may follow functions, and only the arguments of a call
ask for the parenthesis that opens them. -/
def Ready : Level → List Held → List Held → Prop
  | .primary, calls, held =>
    (∀ h ∈ calls, goesBefore Sign.binding h = true) ∧ Stays Sign.binding held
  | .arguments, calls, held =>
    calls = [] ∧ ∃ f i j below, held = ⟨.leftParen, i⟩ :: ⟨.func f, j⟩ :: below
  | l, calls, held => calls = [] ∧ Stays l.loosest held

/-- Whether the tokens of a formula of the level go out in the given order: some
at once, and the others, which are pending, before any operator that may follow
the formula.  The functions that were called before it follow the formula, and
what else is held stays as it was. -/
def Ordered (l : Level) (position : Nat) (calls held : List Held)
    (tokens order : List Token) : Prop :=
  ∃ out pending,
    run position (calls ++ held) tokens = .ok (out, pending ++ held) ∧
    (∀ h ∈ pending, goesBefore l.followedBy h = true) ∧
    out ++ pending.map (·.token) = order ++ calls.map (·.token)

variable {position : Nat} {held calls : List Held} {s t order order' : List Token}

/-- What is pending after a formula of one level may be pending after a formula
of another that is followed by looser operators. -/
theorem Ordered.mono {l l' : Level} (h : Ordered l position calls held t order)
    (hl : ∀ x, goesBefore l.followedBy x = true → goesBefore l'.followedBy x = true) :
    Ordered l' position calls held t order := by
  obtain ⟨out, pending, hrun, hpending, horder⟩ := h
  exact ⟨out, pending, hrun, fun x hx => hl x (hpending x hx), horder⟩

/-- Two formulas with an operator between them.  The operator sends out what is
pending of the first, and is itself pending after the second. -/
theorem Ordered.binary {l left right : Level} {op : BinOp}
    (hleft : left.followedBy = op.binding) (hheld : Stays op.binding held)
    (hs : Ordered left position [] held s order)
    (ht : ∀ i, Ordered right (position + s.length + 1) [] (⟨.binary op, i⟩ :: held) t order')
    (hop : ∀ i, goesBefore l.followedBy ⟨.binary op, i⟩ = true)
    (hl : ∀ x, goesBefore right.followedBy x = true → goesBefore l.followedBy x = true) :
    Ordered l position [] held (s ++ .binary op :: t) (order ++ (order' ++ [.binary op])) := by
  obtain ⟨out, pending, hrun, hpending, horder⟩ := hs
  obtain ⟨out', pending', hrun', hpending', horder'⟩ := ht (position + s.length)
  rw [hleft] at hpending
  have hstep : step (position + s.length) (pending ++ held) (.binary op) =
      .ok (pending.map (·.token), ⟨.binary op, position + s.length⟩ :: held) :=
    congrArg Except.ok (hold_append hpending hheld)
  refine ⟨out ++ (pending.map (·.token) ++ out'), pending' ++ [⟨.binary op, position + s.length⟩],
    ?_, ?_, ?_⟩
  · rw [List.append_assoc]
    exact run_append_ok hrun (run_cons_ok hstep hrun')
  · intro x hx
    obtain hx | hx := List.mem_append.1 hx
    · exact hl x (hpending' x hx)
    · rw [List.mem_singleton.1 hx]
      exact hop _
  · simp only [List.map_nil, List.append_nil] at horder horder'
    rw [← horder, ← horder']
    simp

/-- A sign before a formula, which is pending after it. -/
theorem Ordered.sign {g : Sign} (hheld : Stays Sign.binding held)
    (ht : ∀ i, Ordered .factor (position + 1) [] (⟨.sign g, i⟩ :: held) t order) :
    Ordered .factor position [] held (.sign g :: t) (order ++ [.sign g]) := by
  obtain ⟨out, pending, hrun, hpending, horder⟩ := ht position
  have hnone : ∀ x ∈ ([] : List Held), goesBefore Sign.binding x = true := by simp
  have hstep : step position held (.sign g) = .ok ([], ⟨.sign g, position⟩ :: held) :=
    congrArg Except.ok (hold_append hnone hheld)
  refine ⟨out, pending ++ [⟨.sign g, position⟩], ?_, ?_, ?_⟩
  · rw [List.append_assoc]
    exact run_cons_held hstep hrun
  · intro x hx
    obtain hx | hx := List.mem_append.1 hx
    · exact hpending x hx
    · rw [List.mem_singleton.1 hx]
      rfl
  · simp only [List.map_nil, List.append_nil] at horder
    rw [← horder]
    simp

/-- A function before a primary, which follows it in the order. -/
theorem Ordered.apply {f : Func}
    (ht : Ordered .primary (position + 1) (⟨.func f, position⟩ :: calls) held t order) :
    Ordered .primary position calls held (.func f :: t) (order ++ [.func f]) := by
  obtain ⟨out, pending, hrun, hpending, horder⟩ := ht
  refine ⟨out, pending, run_cons_held rfl hrun, hpending, ?_⟩
  rw [horder]
  simp

/-- A formula in parentheses.  The closing one completes the innermost of the
calls, of which nothing is then pending. -/
theorem Ordered.group {l : Level} (hready : Ready .primary calls held)
    (ht : Ordered l (position + 1) [] (⟨.leftParen, position⟩ :: (calls ++ held)) t order) :
    Ordered .primary position calls held (.leftParen :: (t ++ [.rightParen])) order := by
  obtain ⟨hcalls, hheld⟩ := hready
  obtain ⟨out, pending, hrun, hpending, horder⟩ := ht
  have hopen : ∀ x ∈ pending, x.token ≠ .leftParen :=
    fun x hx => ne_leftParen_of_goesBefore (hpending x hx)
  simp only [List.map_nil, List.append_nil] at horder
  cases calls with
  | nil =>
    refine ⟨out ++ pending.map (·.token), [], ?_, by simp, by simp [horder]⟩
    refine run_cons_held rfl (run_append_ok hrun ?_)
    rw [run_singleton]
    exact step_rightParen_group hopen position hheld.ne_func
  | cons c calls =>
    obtain ⟨hc, hrest⟩ := List.forall_mem_cons.1 hcalls
    obtain ⟨token, j⟩ := c
    obtain ⟨f, rfl⟩ := exists_func_of_goesBefore hc
    refine ⟨out ++ (pending.map (·.token) ++ [.func f]), calls, ?_, hrest, ?_⟩
    · refine run_cons_held rfl (run_append_ok hrun ?_)
      rw [run_singleton]
      exact step_rightParen_call hopen position j f (calls ++ held)
    · rw [← List.append_assoc, horder]
      simp

/-- Two arguments, or lists of arguments, with a comma between them. -/
theorem Ordered.comma {l : Level} {f : Func} {i j : Nat} {below : List Held}
    (hs : Ordered .sum position [] (⟨.leftParen, i⟩ :: ⟨.func f, j⟩ :: below) s order)
    (ht : Ordered l (position + s.length + 1) [] (⟨.leftParen, i⟩ :: ⟨.func f, j⟩ :: below)
      t order') :
    Ordered l position [] (⟨.leftParen, i⟩ :: ⟨.func f, j⟩ :: below)
      (s ++ .comma :: t) (order ++ .comma :: order') := by
  obtain ⟨out, pending, hrun, hpending, horder⟩ := hs
  obtain ⟨out', pending', hrun', hpending', horder'⟩ := ht
  have hopen : ∀ x ∈ pending, x.token ≠ .leftParen :=
    fun x hx => ne_leftParen_of_goesBefore (hpending x hx)
  refine ⟨out ++ (pending.map (·.token) ++ [.comma] ++ out'), pending', ?_, hpending', ?_⟩
  · exact run_append_ok hrun (run_cons_ok (step_comma hopen i j f below) hrun')
  · simp only [List.map_nil, List.append_nil] at horder horder'
    rw [← horder, ← horder']
    simp

/-- A parenthesis that has been opened is held until it is closed. -/
theorem stays_leftParen (b : Binding) (i : Nat) (held : List Held) :
    Stays b (⟨.leftParen, i⟩ :: held) := by
  intro x hx
  cases hx
  rfl

/-- **Taking in a formula sends out its order**, from any state in which a
formula of its level may begin. -/
theorem ordered_tokens (p : Phrase Operand l) (hready : Ready l calls held) :
    Ordered l position calls held p.tokens p.postOrder := by
  induction p generalizing position calls held with
  | operand a =>
    refine ⟨[a.token], calls, ?_, hready.1, rfl⟩
    rw [Phrase.tokens, run_singleton]
    cases a <;> rfl
  | group body ih =>
    exact Ordered.group hready (ih ⟨rfl, stays_leftParen _ _ _⟩)
  | apply f argument ih =>
    refine Ordered.apply (ih ⟨?_, hready.2⟩)
    exact List.forall_mem_cons.2 ⟨rfl, hready.1⟩
  | call f arguments ih =>
    refine Ordered.apply (Ordered.group ⟨?_, hready.2⟩ (ih ⟨rfl, f, _, _, _, rfl⟩))
    exact List.forall_mem_cons.2 ⟨rfl, hready.1⟩
  | pair first last ihf ihl =>
    obtain ⟨rfl, f, i, j, below, rfl⟩ := hready
    have hopen : Ready .sum [] (⟨.leftParen, i⟩ :: ⟨.func f, j⟩ :: below) :=
      ⟨rfl, stays_leftParen _ _ _⟩
    exact Ordered.comma (ihf hopen) ((ihl hopen).mono fun _ h => h)
  | cons first rest ihf ihr =>
    obtain ⟨rfl, f, i, j, below, rfl⟩ := hready
    have hopen : Ready .sum [] (⟨.leftParen, i⟩ :: ⟨.func f, j⟩ :: below) :=
      ⟨rfl, stays_leftParen _ _ _⟩
    exact Ordered.comma (ihf hopen) (ihr ⟨rfl, f, i, j, below, rfl⟩)
  | ofPrimary p ih =>
    obtain ⟨rfl, hheld⟩ := hready
    exact (ih ⟨by simp, hheld⟩).mono fun x => goesBefore_of_lt (by decide)
  | power base exponent ihb ihe =>
    obtain ⟨rfl, hheld⟩ := hready
    refine Ordered.binary rfl hheld (ihb ⟨by simp, hheld⟩) (fun i => ihe ⟨rfl, ?_⟩)
      (fun i => rfl) fun x h => h
    intro x hx
    cases hx
    rfl
  | sign s body ih =>
    obtain ⟨rfl, hheld⟩ := hready
    refine Ordered.sign hheld fun i => ih ⟨rfl, ?_⟩
    intro x hx
    cases hx
    rfl
  | ofFactor p ih =>
    obtain ⟨rfl, hheld⟩ := hready
    exact ih ⟨rfl, hheld.of_lt (by decide)⟩
  | product lhs op rhs ihl ihr =>
    obtain ⟨rfl, hheld⟩ := hready
    have hbinding : op.op.binding = Level.term.followedBy := by cases op <;> rfl
    refine Ordered.binary hbinding.symm (hbinding ▸ hheld) (ihl ⟨rfl, hheld⟩)
      (fun i => ihr ⟨rfl, ?_⟩) (fun i => ?_) fun x h => h
    · intro x hx
      cases hx
      cases op <;> rfl
    · cases op <;> rfl
  | ofTerm p ih =>
    obtain ⟨rfl, hheld⟩ := hready
    exact (ih ⟨rfl, hheld.of_lt (by decide)⟩).mono fun x => goesBefore_of_lt (by decide)
  | sum lhs op rhs ihl ihr =>
    obtain ⟨rfl, hheld⟩ := hready
    have hbinding : op.op.binding = Level.sum.followedBy := by cases op <;> rfl
    refine Ordered.binary hbinding.symm (hbinding ▸ hheld) (ihl ⟨rfl, hheld⟩)
      (fun i => ihr ⟨rfl, ?_⟩) (fun i => ?_) fun x => goesBefore_of_lt (by decide)
    · intro x hx
      cases hx
      cases op <;> rfl
    · cases op <;> rfl

/-- After a whole formula only operators and functions are held, and with them
the order of the formula is complete. -/
theorem exists_run_tokens (p : Phrase Operand .sum) :
    ∃ out held, run 0 [] p.tokens = .ok (out, held) ∧
      (∀ x ∈ held, x.token ≠ .leftParen) ∧ out ++ held.map (·.token) = p.postOrder := by
  have hready : Ready .sum [] [] := ⟨rfl, by simp [Stays]⟩
  obtain ⟨out, pending, hrun, hpending, horder⟩ := ordered_tokens p hready
  rw [List.nil_append, List.append_nil] at hrun
  rw [List.map_nil, List.append_nil] at horder
  exact ⟨out, pending, hrun, fun x hx => ne_leftParen_of_goesBefore (hpending x hx), horder⟩

end Rpn

/-- **Reverse Polish order is the order of the derivation.**  Every formula of
the grammar can be brought into order, calls of several arguments included, and
the order is that in which its derivation has the operands before their
operators, without the parentheses. -/
theorem toRpn_tokens (p : Phrase Operand .sum) : toRpn p.tokens = .ok p.postOrder :=
  Rpn.toRpn_eq_ok_iff.2 (Rpn.exists_run_tokens p)

end Formula
