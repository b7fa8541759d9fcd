import Formula.Proofs.Places

/-!
# Formula.Proofs.Layers

How the held tokens lie on one another.

Open parentheses part the held tokens into segments.  An operator is held only after
those that are worked out before it have gone out, so what lies under it in its
segment stays for it; a function or a parenthesis may lie on anything.

* `Steady` — under every held operator and function lies what stays for it;
* `Takes.steady`, `Reaches.steady` — a step leaves the held tokens so, and then a run
  does;
* `Layered` — a segment is at most one sum, on it at most one product, on it powers
  and signs, and on them functions;
* `layered_of_steady` — so it is when each of its tokens lies as it should;
* `held_in_layers` — hence after every token of a formula, and while held tokens go
  out.
-/

namespace Formula

/-! ## Layers -/

/-- The kinds of tokens that are applied to operands. -/
inductive Layer
  | sum | product | power | function
  deriving DecidableEq, Repr

/-- How the tokens of a layer hold their operands. -/
def Layer.binding : Layer → Binding
  | sum => ⟨1, .left⟩
  | product => ⟨2, .left⟩
  | power => ⟨3, .right⟩
  | function => ⟨4, .right⟩

namespace Token

/-- The layer of a token that is applied to operands. -/
def layer? : Token → Option Layer
  | binary .add | binary .sub => some .sum
  | binary .mul | binary .div => some .product
  | binary .pow | sign _ => some .power
  | func _ => some .function
  | number _ | var _ | leftParen | rightParen | comma => none

/-- The precedence of a token that is applied to operands, and zero for others. -/
def precedence (t : Token) : Nat := t.binding?.elim 0 (·.precedence)

/-- A token holds its operands as its layer does. -/
theorem binding?_eq (t : Token) : t.binding? = t.layer?.map Layer.binding := by
  cases t with
  | binary op => cases op <;> rfl
  | _ => rfl

theorem precedence_of_layer? {t : Token} {l : Layer} (h : t.layer? = some l) :
    t.precedence = l.binding.precedence := by
  simp [precedence, binding?_eq, h]

/-- What waits is in a layer, or an open parenthesis. -/
theorem exists_layer? {t : Token} (h : t.waits = true) (hne : t ≠ .leftParen) :
    ∃ l, t.layer? = some l := by
  cases t with
  | binary op => cases op <;> simp [layer?]
  | sign _ | func _ => simp [layer?]
  | leftParen => exact absurd rfl hne
  | number _ | var _ | rightParen | comma => simp [waits] at h

/-- No operator is in the layer of functions. -/
theorem isOperator_eq_false_of_precedence {t : Token} (h : 4 ≤ t.precedence) :
    t.isOperator = false := by
  cases t with
  | binary op => cases op <;> simp [precedence, binding?, BinOp.binding] at h
  | sign s => simp [precedence, binding?, Sign.binding] at h
  | _ => rfl

end Token

/-- Whether all tokens are in one layer. -/
def InLayer (l : Layer) (ts : List Token) : Prop := ∀ t ∈ ts, t.layer? = some l

theorem inLayer_nil (l : Layer) : InLayer l [] := by simp [InLayer]

theorem InLayer.cons {l : Layer} {t : Token} {ts : List Token} (ht : t.layer? = some l)
    (hts : InLayer l ts) : InLayer l (t :: ts) := by
  simpa [InLayer, ht] using hts

theorem InLayer.map_precedence {l : Layer} {ts : List Token} (h : InLayer l ts) :
    ts.map Token.precedence = List.replicate ts.length l.binding.precedence := by
  rw [List.map_eq_replicate_iff]
  intro t ht
  exact Token.precedence_of_layer? (h t ht)

/-- A segment in layers, the newest token first: functions on powers and signs, on at
most one product, on at most one sum. -/
inductive Layered : List Token → Prop
  | intro {functions powers products sums : List Token} (hfunctions : InLayer .function functions)
      (hpowers : InLayer .power powers) (hproducts : InLayer .product products)
      (hsums : InLayer .sum sums) (hproduct : products.length ≤ 1) (hsum : sums.length ≤ 1) :
      Layered (functions ++ (powers ++ (products ++ sums)))

/-- Whether a token of layer `l` may lie on the newest of some tokens. -/
def Layer.Above (l : Layer) (ts : List Token) : Prop :=
  ∀ t ∈ ts.head?, ∀ l', t.layer? = some l' → l'.binding.goesBefore l.binding = false

/-- No token of a layer that is worked out before `l` is under it. -/
theorem Layer.Above.eq_nil {l l' : Layer} {ts rest : List Token} (h : l.Above (ts ++ rest))
    (hts : InLayer l' ts) (hl : l'.binding.goesBefore l.binding = true) : ts = [] := by
  cases ts with
  | nil => rfl
  | cons t ts =>
    have hstays := h t (by simp) l' (hts t (by simp))
    simp [hl] at hstays

namespace Layered

theorem nil : Layered [] :=
  intro (inLayer_nil _) (inLayer_nil _) (inLayer_nil _) (inLayer_nil _) (by simp) (by simp)

/-- A token that may lie on a segment in layers makes it one segment in layers. -/
theorem cons {t : Token} {ts : List Token} {l : Layer} (hts : Layered ts)
    (ht : t.layer? = some l) (habove : l.Above ts) : Layered (t :: ts) := by
  obtain @⟨functions, powers, products, sums, hfunctions, hpowers, hproducts, hsums,
    hproduct, hsum⟩ := hts
  cases l with
  | function => exact intro (hfunctions.cons ht) hpowers hproducts hsums hproduct hsum
  | power =>
    obtain rfl := habove.eq_nil hfunctions rfl
    exact intro hfunctions (hpowers.cons ht) hproducts hsums hproduct hsum
  | product =>
    obtain rfl := habove.eq_nil hfunctions rfl
    rw [List.nil_append] at habove
    obtain rfl := habove.eq_nil hpowers rfl
    rw [List.nil_append] at habove
    obtain rfl := habove.eq_nil hproducts rfl
    exact intro hfunctions hpowers (hproducts.cons ht) hsums (by simp) hsum
  | sum =>
    obtain rfl := habove.eq_nil hfunctions rfl
    rw [List.nil_append] at habove
    obtain rfl := habove.eq_nil hpowers rfl
    rw [List.nil_append] at habove
    obtain rfl := habove.eq_nil hproducts rfl
    rw [List.nil_append, ← List.append_nil sums] at habove
    obtain rfl := habove.eq_nil hsums rfl
    exact intro hfunctions hpowers hproducts (hsums.cons ht) hproduct (by simp)

/-- The precedences of a segment in layers. -/
theorem exists_map_precedence {ts : List Token} (h : Layered ts) :
    ∃ a b c d, c ≤ 1 ∧ d ≤ 1 ∧ ts.map Token.precedence =
      List.replicate a 4 ++ (List.replicate b 3 ++ (List.replicate c 2 ++ List.replicate d 1)) := by
  obtain @⟨functions, powers, products, sums, hfunctions, hpowers, hproducts, hsums,
    hproduct, hsum⟩ := h
  refine ⟨functions.length, powers.length, _, _, hproduct, hsum, ?_⟩
  simp only [List.map_append, hfunctions.map_precedence, hpowers.map_precedence,
    hproducts.map_precedence, hsums.map_precedence, Layer.binding]

end Layered

/-- What holds of the tokens of a segment, the newest first: they are in layers, none
has a lower precedence than one under it, at most one has precedence one and at most
one has two, and no operator lies directly on a function. -/
structure Segment (ts : List Token) : Prop where
  layered : Layered ts
  descending : (ts.map Token.precedence).Pairwise (· ≥ ·)
  one_sum : (ts.map Token.precedence).count 1 ≤ 1
  one_product : (ts.map Token.precedence).count 2 ≤ 1
  not_on_func : ∀ above t f below, ts = above ++ t :: .func f :: below → t.isOperator = false

/-- All this holds of tokens in layers. -/
theorem Layered.segment {ts : List Token} (h : Layered ts) : Segment ts := by
  obtain ⟨a, b, c, d, hc, hd, hmap⟩ := h.exists_map_precedence
  have hdescending : (ts.map Token.precedence).Pairwise (· ≥ ·) := by
    simp only [hmap, List.pairwise_append, List.pairwise_replicate, List.mem_append,
      List.mem_replicate]
    grind
  refine ⟨h, hdescending, ?_, ?_, ?_⟩
  · simpa [hmap, List.count_append, List.count_replicate] using hd
  · simpa [hmap, List.count_append, List.count_replicate] using hc
  · rintro above t f below rfl
    rw [List.map_append, List.map_cons, List.map_cons] at hdescending
    have hon := (List.pairwise_append.1 hdescending).2.1
    have hle : (Token.func f).precedence ≤ t.precedence := List.rel_of_pairwise_cons hon (by simp)
    exact Token.isOperator_eq_false_of_precedence hle

namespace Rpn

variable {tokens : List Token} {n position : Nat} {held held' rest : List Held} {token : Token}
  {out : List Token}

/-! ## What lies under what -/

/-- Under every held operator and function lies what stays for it. -/
def Steady (held : List Held) : Prop :=
  ∀ x below, x :: below <:+ held → ∀ b, x.token.binding? = some b → Stays b below

theorem Steady.suffix (h : Steady held) (hrest : rest <:+ held) : Steady rest :=
  fun x below hx => h x below (hx.trans hrest)

theorem Steady.cons {x : Held} (h : Steady held)
    (hx : ∀ b, x.token.binding? = some b → Stays b held) : Steady (x :: held) := by
  intro y below hy
  obtain hy | hy := List.suffix_cons_iff.1 hy
  · obtain ⟨rfl, rfl⟩ := List.cons.inj hy
    exact hx
  · exact h y below hy

/-- Whatever is held stays for a function. -/
theorem stays_func (held : List Held) : Stays Func.binding held := by
  intro x _
  rw [goesBefore, Token.binding?_eq]
  cases x.token.layer? with
  | none => rfl
  | some l => cases l <;> rfl

/-- A step puts its token on what stays for it. -/
theorem Takes.steady (h : Takes position held token out held') (hheld : Steady held) :
    Steady held' := by
  cases h with
  | operand _ => exact hheld
  | func f =>
    refine hheld.cons ?_
    rintro b ⟨⟩
    exact stays_func held
  | leftParen => exact hheld.cons (by simp [Token.binding?])
  | operator _ hbinding _ hstays =>
    refine (hheld.suffix (List.suffix_append _ _)).cons ?_
    intro b hb
    rw [hbinding, Option.some.injEq] at hb
    rwa [← hb]
  | @call pending _ i f j _ =>
    exact hheld.suffix ⟨pending ++ [⟨.leftParen, i⟩, ⟨.func f, j⟩], by simp⟩
  | @group pending _ i _ _ => exact hheld.suffix ⟨pending ++ [⟨.leftParen, i⟩], by simp⟩
  | comma _ => exact hheld.suffix (List.suffix_append _ _)

/-- So what is held lies at every place of a formula. -/
theorem Reaches.steady (h : Reaches tokens n held) : Steady held := by
  induction h with
  | zero => simp [Steady]
  | succ _ _ hstep ih => exact hstep.steady ih

/-! ## Segments -/

/-- The held tokens that lie between open parentheses: those above the innermost, those
between it and the next, and so on to those under all of them. -/
def segments (held : List Held) : List (List Held) :=
  held.splitOnP (·.token = .leftParen)

/-- A segment has no open parenthesis, and is held somewhere. -/
theorem exists_suffix_of_mem_segments {s : List Held} (hs : s ∈ segments held) :
    (∃ below, s ++ below <:+ held) ∧ ∀ x ∈ s, x.token ≠ .leftParen := by
  induction hlength : held.length using Nat.strongRecOn generalizing held with
  | ind length ih =>
    obtain hnone | ⟨pending, i, below, rfl, hpending⟩ := exists_leftParen held
    · rw [segments, List.splitOnP_eq_singleton (by simpa using hnone), List.mem_singleton] at hs
      subst hs
      exact ⟨⟨[], by simp⟩, hnone⟩
    · rw [segments, List.splitOnP_append_cons_of_forall_mem (by simpa using hpending) _ (by simp),
        List.mem_cons] at hs
      obtain rfl | hs := hs
      · exact ⟨⟨_, List.suffix_refl _⟩, hpending⟩
      · have hlt : below.length < length := by
          rw [← hlength]
          simp
          omega
        obtain ⟨⟨under, hunder⟩, hopen⟩ := ih _ hlt hs rfl
        exact ⟨⟨under, hunder.trans ⟨pending ++ [⟨.leftParen, i⟩], by simp⟩⟩, hopen⟩

/-- Tokens that lie as they should, and among which no parenthesis is open, are in
layers. -/
theorem layered_of_steady {s below : List Held} (hsteady : Steady (s ++ below)) (hwait : AllWait s)
    (hopen : ∀ x ∈ s, x.token ≠ .leftParen) : Layered (s.map (·.token)) := by
  induction s with
  | nil => exact .nil
  | cons x s ih =>
    have hs : Layered (s.map (·.token)) :=
      ih (hsteady.suffix (List.suffix_cons x _)) (fun y hy => hwait y (by simp [hy]))
        (fun y hy => hopen y (by simp [hy]))
    obtain ⟨l, hl⟩ := Token.exists_layer? (hwait x (by simp)) (hopen x (by simp))
    have hstays : Stays l.binding (s ++ below) :=
      hsteady x (s ++ below) (List.suffix_refl _) _ (by simp [Token.binding?_eq, hl])
    refine hs.cons hl ?_
    intro t ht l' hl'
    rw [List.head?_map, Option.mem_def, Option.map_eq_some_iff] at ht
    obtain ⟨y, hy, rfl⟩ := ht
    have hgoes := hstays y (by simp [hy])
    simpa [goesBefore, Token.binding?_eq, hl'] using hgoes

end Rpn

open Rpn

/-- **The held tokens are in layers at every place of a formula.**  When the tokens before
a place, of any formula at all, have been taken in, and while held tokens go out, every
segment between open parentheses is in layers; only operators, functions and opening
parentheses are held; and each has the place at which it stands, the newer of two the
later one. -/
theorem held_in_layers {tokens out : List Token} {n : Nat} {held rest : List Held}
    (h : run 0 [] (tokens.take n) = .ok (out, held)) (hrest : rest <:+ held) :
    (∀ s ∈ segments rest, Segment (s.map (·.token))) ∧ AllWait rest ∧
      (rest.Pairwise fun x y => y.position < x.position) ∧
      ∀ x ∈ rest, x.position < n ∧ tokens[x.position]? = some x.token := by
  have hreaches := reaches_of_run h
  have hwait : AllWait rest := fun x hx =>
    (conserves_of_run (by simp [AllWait]) h).1 x (hrest.mem hx)
  refine ⟨?_, hwait, hreaches.pairwise.sublist hrest.sublist, ?_⟩
  · intro s hs
    obtain ⟨⟨below, hbelow⟩, hopen⟩ := exists_suffix_of_mem_segments hs
    have hmem : ∀ x ∈ s, x ∈ rest := fun x hx => hbelow.mem (by simp [hx])
    exact (layered_of_steady ((hreaches.steady.suffix hrest).suffix hbelow)
      (fun x hx => hwait x (hmem x hx)) hopen).segment
  · intro x hx
    obtain ⟨hlt, htoken⟩ := hreaches.getElem?_position x (hrest.mem hx)
    have hn : x.position < n := Nat.lt_of_lt_of_le hlt (List.length_take_le n tokens)
    rw [List.getElem?_take_of_lt hn] at htoken
    exact ⟨hn, htoken⟩

/-- The tokens of `x[0]+x[1]*-sin cos(x[2]^`. -/
def unfinishedPower : List Token :=
  [.var 0, .binary .add, .var 1, .binary .mul, .sign .neg, .func .sin, .func .cos, .leftParen,
    .var 2, .binary .pow]

/-- What they leave held. -/
def heldByPower : List Held :=
  [⟨.binary .pow, 9⟩, ⟨.leftParen, 7⟩, ⟨.func .cos, 6⟩, ⟨.func .sin, 5⟩, ⟨.sign .neg, 4⟩,
    ⟨.binary .mul, 3⟩, ⟨.binary .add, 1⟩]

/-- A power in parentheses, and outside them every layer. -/
theorem held_in_layers_power :
    run 0 [] (unfinishedPower.take 10) = .ok ([.var 0, .var 1, .var 2], heldByPower) ∧
      (segments heldByPower).map (·.map (·.token)) =
        [[.binary .pow],
          [.func .cos, .func .sin, .sign .neg, .binary .mul, .binary .add]] ∧
      (∀ s ∈ segments heldByPower, Segment (s.map (·.token))) ∧ AllWait heldByPower ∧
      (heldByPower.Pairwise fun x y => y.position < x.position) ∧
      ∀ x ∈ heldByPower, x.position < 10 ∧ unfinishedPower[x.position]? = some x.token :=
  ⟨rfl, by decide, held_in_layers rfl (List.suffix_refl heldByPower)⟩

end Formula
