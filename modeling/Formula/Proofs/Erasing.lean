import Formula.Proofs.Dropping
import Formula.Proofs.Machine
import Formula.Proofs.Symbols

/-!
# Formula.Proofs.Erasing

A plus that is read as a sign may be erased from a text.

* `ReadsAsPos` — whether a plus of a text is a sign, which otherwise it is not
  (`exists_add_of_not_readsAsPos`);
* `normalise_without` — the text without some of its plus characters is the
  spellings without these;
* `SpelledAfter.without` — which may still stand one after the other when only
  signs are missing;
* `compile_erase` — so the text compiles to its order without these signs, and
  evaluates as before.
-/

namespace Formula

open Text Rpn

/-! ## Lists without some of their elements -/

section

variable {α β : Type} {places places' : List Nat} {i : Nat}

/-- The list without what stands at the given places, where its first element has
place `i`. -/
def without (places : List Nat) (i : Nat) : List α → List α
  | [] => []
  | a :: as => if i ∈ places then without places (i + 1) as else a :: without places (i + 1) as

theorem without_cons_of_mem (h : i ∈ places) (a : α) (as : List α) :
    without places i (a :: as) = without places (i + 1) as := if_pos h

theorem without_cons_of_not_mem (h : i ∉ places) (a : α) (as : List α) :
    without places i (a :: as) = a :: without places (i + 1) as := if_neg h

theorem without_append (places : List Nat) (i : Nat) (s t : List α) :
    without places i (s ++ t) = without places i s ++ without places (i + s.length) t := by
  induction s generalizing i with
  | nil => rfl
  | cons a s ih =>
    have hplace : i + 1 + s.length = i + (s.length + 1) := by omega
    by_cases h : i ∈ places
    · rw [List.cons_append, without_cons_of_mem h, without_cons_of_mem h, ih, List.length_cons,
        hplace]
    · rw [List.cons_append, without_cons_of_not_mem h, without_cons_of_not_mem h, ih,
        List.length_cons, hplace, List.cons_append]

theorem map_without (f : α → β) (places : List Nat) (i : Nat) (s : List α) :
    (without places i s).map f = without places i (s.map f) := by
  induction s generalizing i with
  | nil => rfl
  | cons a s ih =>
    by_cases h : i ∈ places
    · rw [List.map_cons, without_cons_of_mem h, without_cons_of_mem h, ih]
    · rw [List.map_cons, without_cons_of_not_mem h, without_cons_of_not_mem h, List.map_cons, ih]

theorem mem_of_mem_without {a : α} {s : List α} (h : a ∈ without places i s) : a ∈ s := by
  induction s generalizing i with
  | nil => exact h
  | cons b s ih =>
    by_cases hi : i ∈ places
    · rw [without_cons_of_mem hi] at h
      exact .tail _ (ih h)
    · rw [without_cons_of_not_mem hi] at h
      obtain rfl | h := List.mem_cons.1 h
      · exact .head _
      · exact .tail _ (ih h)

/-- Only the places of the list matter. -/
theorem without_congr {s : List α}
    (h : ∀ j, i ≤ j → j < i + s.length → (j ∈ places ↔ j ∈ places')) :
    without places i s = without places' i s := by
  induction s generalizing i with
  | nil => rfl
  | cons a s ih =>
    have hrest : without places (i + 1) s = without places' (i + 1) s := by
      refine ih fun j hj hlt => h j (by omega) ?_
      rw [List.length_cons]
      omega
    have hhead := h i (Nat.le_refl i) (by rw [List.length_cons]; omega)
    simp only [without, hrest, hhead]

/-- Without places of the list itself it stays as it is. -/
theorem without_of_not_mem {s : List α} (h : ∀ j ∈ places, j < i ∨ i + s.length ≤ j) :
    without places i s = s := by
  induction s generalizing i with
  | nil => rfl
  | cons a s ih =>
    rw [List.length_cons] at h
    have hi : i ∉ places := fun hmem => by have := h i hmem; omega
    rw [without_cons_of_not_mem hi, ih fun j hj => by have := h j hj; omega]

end

/-- Tokens without some of them, with their places. -/
theorem map_token_filter_placesFrom (places : List Nat) (position : Nat) (tokens : List Token) :
    ((placesFrom position tokens).filter (·.position ∉ places)).map (·.token) =
      without places position tokens := by
  induction tokens generalizing position with
  | nil => rfl
  | cons token tokens ih =>
    by_cases h : position ∈ places
    · rw [placesFrom, without_cons_of_mem h, List.filter_cons_of_neg (by simpa using h), ih]
    · rw [placesFrom, without_cons_of_not_mem h, List.filter_cons_of_pos (by simpa using h),
        List.map_cons, ih]

/-- What comes from the places from `n` on comes from `n` or from the later ones. -/
theorem mem_map_filter_le {chosen : List Nat} {n : Nat} (f : Nat → Nat) (hn : n ∈ chosen)
    (k : Nat) :
    k ∈ (chosen.filter (n ≤ ·)).map f ↔ k = f n ∨ k ∈ (chosen.filter (n + 1 ≤ ·)).map f := by
  simp only [List.mem_map, List.mem_filter, decide_eq_true_eq]
  constructor
  · rintro ⟨i, ⟨hi, hle⟩, rfl⟩
    obtain rfl | hlt := Nat.eq_or_lt_of_le hle
    · exact .inl rfl
    · exact .inr ⟨i, ⟨hi, hlt⟩, rfl⟩
  · rintro (rfl | ⟨i, ⟨hi, hlt⟩, rfl⟩)
    · exact ⟨n, ⟨hn, Nat.le_refl _⟩, rfl⟩
    · exact ⟨i, ⟨hi, Nat.le_of_succ_le hlt⟩, rfl⟩

/-- Where `n` is none of the places, those from `n` on are the later ones. -/
theorem filter_le_of_not_mem {chosen : List Nat} {n : Nat} (hn : n ∉ chosen) :
    chosen.filter (n ≤ ·) = chosen.filter (n + 1 ≤ ·) := by
  refine List.filter_congr fun i hi => ?_
  have hne : i ≠ n := fun heq => hn (heq ▸ hi)
  simp only [decide_eq_decide]
  omega

/-! ## The plus characters of a text -/

/-- Whether the character at `i` is a plus that is read as a sign. -/
def ReadsAsPos (mode : VarMode) (text : String) (i : Nat) : Prop :=
  text.toList[i]? = some '+' ∧
    ∃ tokens, tokenize mode text = .ok tokens ∧
      tokens[piecesBefore text.toList i]? = some (.sign .pos)

/-- Every other plus of a text that is read is an operator. -/
theorem exists_add_of_not_readsAsPos {mode : VarMode} {text : String} {tokens : List Token}
    {i : Nat} (htokens : tokenize mode text = .ok tokens) (hplus : text.toList[i]? = some '+')
    (hpos : ¬ ReadsAsPos mode text i) :
    tokens[piecesBefore text.toList i]? = some (.binary .add) := by
  obtain ⟨previous, htoken⟩ := exists_token_of_symbol (s := .plus) htokens hplus
  cases hawaits : awaitsOperand previous with
  | true =>
    rw [Symbol.token, if_pos hawaits] at htoken
    exact absurd ⟨hplus, tokens, htokens, htoken⟩ hpos
  | false => rwa [Symbol.token, if_neg (by simp [hawaits])] at htoken

variable {mode : VarMode} {previous : Option Token} {token : Token} {u v : List Char}
  {cs : List Char} {spelled : List (List Char × Token)}

section

variable (hsigma : 'Σ' ∉ cs) (hspelled : SpelledAfter mode [] none spelled)
  (htext : spelled.flatMap (·.1) = normalise cs)
include hsigma hspelled htext

/-- Erasing one more plus, before all that have been erased. -/
theorem normalise_erase {a b w : List Char} {places places' : List Nat}
    (hcs : cs = a ++ Symbol.plus.char :: b) (hw : 'Σ' ∉ w)
    (hlater : ∀ k ∈ places, piecesBefore cs a.length < k)
    (hplaces' : ∀ k, k ∈ places' ↔ k = piecesBefore cs a.length ∨ k ∈ places)
    (hrest : normalise (a ++ Symbol.plus.char :: w) =
      (without places 0 spelled).flatMap (·.1)) :
    normalise (a ++ w) = (without places' 0 spelled).flatMap (·.1) := by
  obtain ⟨before, previous, after, rfl, hbefore, -, hcount⟩ :=
    exists_symbol hsigma hspelled htext hcs
  rw [← hcount] at hlater hplaces'
  have ha : 'Σ' ∉ a := fun hmem => hsigma (by rw [hcs]; exact List.mem_append_left _ hmem)
  have hkept : without places 0 before = before :=
    without_of_not_mem fun k hk => .inr (by have := hlater k hk; omega)
  have hkept' : without places' 0 before = before := by
    refine without_of_not_mem fun k hk => .inr ?_
    obtain rfl | hk := (hplaces' k).1 hk
    · omega
    · have := hlater k hk
      omega
  have hsame : without places' (before.length + 1) after =
      without places (before.length + 1) after := by
    refine without_congr fun k hk _ => ?_
    rw [hplaces' k]
    exact or_iff_right (by omega)
  have hplus : before.length ∉ places := fun hmem => Nat.lt_irrefl _ (hlater _ hmem)
  have hplus' : before.length ∈ places' := (hplaces' _).2 (.inl rfl)
  rw [normalise_symbol _ ha hw, without_append, hkept, Nat.zero_add, without_cons_of_not_mem hplus,
    List.flatMap_append, hbefore, List.flatMap_cons] at hrest
  have hw' := (List.cons.inj (List.append_cancel_left hrest)).2
  rw [normalise_append ha hw, hw', without_append, hkept', Nat.zero_add,
    without_cons_of_mem hplus', List.flatMap_append, hbefore, hsame]
  rfl

/-- From a place on, the text without some of its plus characters is the spellings
without these. -/
theorem normalise_without_from {chosen : List Nat} (hplus : ∀ i ∈ chosen, cs[i]? = some '+')
    {a d : List Char} (hcs : cs = a ++ d) :
    normalise (a ++ without chosen a.length d) =
      (without ((chosen.filter (a.length ≤ ·)).map (piecesBefore cs)) 0 spelled).flatMap
        (·.1) := by
  induction d generalizing a with
  | nil =>
    have hnone : chosen.filter (a.length ≤ ·) = [] := by
      refine List.filter_eq_nil_iff.2 fun i hi => ?_
      have hlt := (List.getElem?_eq_some_iff.1 (hplus i hi)).1
      rw [hcs, List.append_nil] at hlt
      simpa using hlt
    have hall : without ([] : List Nat) 0 spelled = spelled := without_of_not_mem (by simp)
    rw [hnone, List.map_nil, hall, htext, hcs]
    rfl
  | cons c d ih =>
    have hlater := ih (a := a ++ [c]) (by rw [hcs, List.append_assoc]; rfl)
    rw [List.append_assoc, List.singleton_append, List.length_append,
      List.length_singleton] at hlater
    by_cases hmem : a.length ∈ chosen
    · have hc := hplus _ hmem
      rw [hcs, List.getElem?_append_right (Nat.le_refl _), Nat.sub_self,
        List.getElem?_cons_zero, Option.some.injEq] at hc
      subst hc
      rw [without_cons_of_mem hmem]
      refine normalise_erase hsigma hspelled htext hcs ?_ ?_ ?_ hlater
      · intro hmem
        refine hsigma ?_
        rw [hcs]
        exact List.mem_append_right _ (.tail _ (mem_of_mem_without hmem))
      · simp only [List.mem_map, List.mem_filter, decide_eq_true_eq]
        rintro k ⟨i, ⟨hi, hlt⟩, rfl⟩
        exact piecesBefore_lt (s := .plus) (t := .plus) hsigma hspelled htext hlt (hplus _ hmem)
          (hplus i hi)
      · exact mem_map_filter_le (piecesBefore cs) hmem
    · rw [without_cons_of_not_mem hmem, hlater, filter_le_of_not_mem hmem]

/-- A text without some of its plus characters is the spellings without these. -/
theorem normalise_without {chosen : List Nat} (hplus : ∀ i ∈ chosen, cs[i]? = some '+') :
    normalise (without chosen 0 cs) =
      (without (chosen.map (piecesBefore cs)) 0 spelled).flatMap (·.1) := by
  have hfrom := normalise_without_from hsigma hspelled htext hplus (List.nil_append cs).symm
  have hall : chosen.filter (([] : List Char).length ≤ ·) = chosen :=
    List.filter_eq_self.2 fun i _ => by simp
  rwa [hall, List.nil_append] at hfrom

end

/-! ## Spellings without signs -/

/-- After a spelling where an operand is awaited, anything may stand. -/
theorem Spells.awaits (h : Spells mode v token) (hawaits : awaitsOperand (some token) = true) :
    Awaits v (some token) := by
  cases h with
  | add | pos => exact .of_symbol .plus hawaits
  | sub | neg => exact .of_symbol .minus hawaits
  | mul => exact .of_symbol .star hawaits
  | div => exact .of_symbol .slash hawaits
  | pow => exact .of_symbol .caret hawaits
  | leftParen => exact .of_symbol .leftParen hawaits
  | comma => exact .of_symbol .comma hawaits
  | _ => cases hawaits

/-- Spellings that may stand where an operand is awaited may stand wherever one
is. -/
theorem SpelledAfter.of_awaits {previous' : Option Token}
    (h : SpelledAfter mode v previous' spelled) (hprevious' : awaitsOperand previous' = true)
    (hawaits : Awaits u previous) : SpelledAfter mode u previous spelled := by
  cases spelled with
  | nil => trivial
  | cons p spelled =>
    obtain ⟨hspell, -, hplaced, hrest⟩ := h
    exact ⟨hspell, hawaits.separate _, hplaced.of_awaits hprevious' hawaits.operand, hrest⟩

/-- Without some signs, spellings may stand one after the other as before. -/
theorem SpelledAfter.without {places : List Nat} {i : Nat}
    (h : SpelledAfter mode u previous spelled)
    (hstart : awaitsOperand previous = true → Awaits u previous)
    (hpos : ∀ j p, i + j ∈ places → spelled[j]? = some p → p.2 = .sign .pos) :
    SpelledAfter mode u previous (without places i spelled) := by
  induction spelled generalizing u previous i with
  | nil => trivial
  | cons p spelled ih =>
    obtain ⟨v, token⟩ := p
    obtain ⟨hspell, hseparate, hplaced, hrest⟩ := h
    have hwithout : SpelledAfter mode v (some token) (Formula.without places (i + 1) spelled) := by
      refine ih hrest hspell.awaits fun j p hmem hp => ?_
      refine hpos (j + 1) p ?_ hp
      rwa [Nat.add_right_comm, Nat.add_assoc] at hmem
    by_cases hi : i ∈ places
    · have htoken : token = .sign .pos := hpos 0 (v, token) hi rfl
      subst htoken
      rw [without_cons_of_mem hi]
      exact hwithout.of_awaits rfl (hstart hplaced)
    · rw [without_cons_of_not_mem hi]
      exact ⟨hspell, hseparate, hplaced, hwithout⟩

/-! ## Whole texts -/

/-- The text without the characters at the given places. -/
def erase (chosen : List Nat) (text : String) : String :=
  String.ofList (without chosen 0 text.toList)

/-- Plus characters of a text that are read as signs may be erased: the text is
then read as the same tokens without these signs. -/
theorem tokenize_erase {text : String} {tokens : List Token} {chosen : List Nat}
    (htokens : tokenize mode text = .ok tokens)
    (hchosen : ∀ i ∈ chosen, ReadsAsPos mode text i) :
    tokenize mode (erase chosen text) =
      .ok (without (chosen.map (piecesBefore text.toList)) 0 tokens) := by
  obtain ⟨cs, ⟨hsigma, hnormal⟩, hlexical⟩ := exists_normalForm_of_tokenize htokens
  obtain ⟨spelled, hspelled, htext, rfl⟩ := hlexical.exists_spelled
  rw [← hnormal] at htext
  have hpos : ∀ j p, 0 + j ∈ chosen.map (piecesBefore text.toList) → spelled[j]? = some p →
      p.2 = .sign .pos := by
    intro j p hmem hp
    obtain ⟨i, hi, hplace⟩ := List.mem_map.1 hmem
    obtain ⟨-, tokens, htokens', htoken⟩ := hchosen i hi
    rw [htokens] at htokens'
    cases htokens'
    rw [hplace, Nat.zero_add, List.getElem?_map, hp] at htoken
    exact Option.some.inj htoken
  have hwithout := (hspelled.without (fun _ => awaits_nil) hpos).lexicalAfter
  rw [tokenize, erase, String.toList_ofList,
    normalise_without hsigma hspelled htext fun i hi => (hchosen i hi).1, ← map_without]
  exact tokenizeNormal_of_lexical hwithout

/-- The token at a place of a formula. -/
theorem mem_placesFrom_iff {tokens : List Token} {x : Held} :
    x ∈ placesFrom 0 tokens ↔ tokens[x.position]? = some x.token := by
  rw [List.mem_iff_getElem?]
  simp only [getElem?_placesFrom, Nat.zero_add, Option.map_eq_some_iff]
  constructor
  · rintro ⟨i, token, htoken, rfl⟩
    exact htoken
  · exact fun htoken => ⟨x.position, x.token, htoken, rfl⟩

section

variable {tokens : List Token} {order : List Held} {places : List Nat}
  (horder : origins (placesFrom 0 tokens) = .ok order)
  (hpos : ∀ k ∈ places, tokens[k]? = some (.sign .pos))
include horder hpos

/-- At places of signs an order has signs. -/
theorem token_of_mem_origins {x : Held} (hx : x ∈ order) (hplace : x.position ∈ places) :
    x.token = .sign .pos := by
  obtain ⟨parens, -, hperm⟩ := perm_of_origins horder
  have htoken := mem_placesFrom_iff.1 (hperm.mem_iff.1 (List.mem_append_left parens hx))
  rw [hpos _ hplace] at htoken
  exact (Option.some.inj htoken).symm

/-- Tokens without signs at some places go out as before, without the signs from
these places. -/
theorem toRpn_without (hplaced : PlacedAll none tokens) :
    toRpn (without places 0 tokens) =
      .ok ((order.filter (·.position ∉ places)).map (·.token)) := by
  -- Dropping by place alone could drop other tokens of other formulas.
  have hsame : ∀ {hs : List Held}, (∀ x ∈ hs, x.position ∈ places → x.token = .sign .pos) →
      hs.filter (fun x => x.position ∉ places ∨ x.token ≠ .sign .pos) =
        hs.filter (·.position ∉ places) := by
    intro hs hsigns
    refine List.filter_congr fun x hx => ?_
    rw [decide_eq_decide, or_iff_left_iff_imp]
    exact fun hne hplace => hne (hsigns x hx hplace)
  have hdrops : DropsPlus fun x => x.position ∉ places ∨ x.token ≠ .sign .pos := by
    intro x hx
    rw [decide_eq_false_iff_not, not_or] at hx
    exact Classical.not_not.1 hx.2
  rw [← map_token_placesFrom 0 tokens] at hplaced
  have hfilter := origins_filter hdrops hplaced
  have htokens : ∀ x ∈ placesFrom 0 tokens, x.position ∈ places → x.token = .sign .pos := by
    intro x hx hplace
    have htoken := mem_placesFrom_iff.1 hx
    rw [hpos _ hplace] at htoken
    exact (Option.some.inj htoken).symm
  simp only [horder, Except.map, hsame htokens,
    hsame fun x hx hplace => token_of_mem_origins horder hpos hx hplace] at hfilter
  rw [← map_token_filter_placesFrom]
  exact toRpn_of_origins hfilter

/-- What is left of the order has the same value. -/
theorem evaluate_filter (e : Evaluator) (values : Array Float) :
    e.evaluate ((order.filter (·.position ∉ places)).map (·.token)) values =
      e.evaluate (order.map (·.token)) values := by
  have hsigns : ∀ x ∈ order, x.position ∈ places → x.token = .sign .pos :=
    fun x hx => token_of_mem_origins horder hpos hx
  have hsame : withoutPlus ((order.filter (·.position ∉ places)).map (·.token)) =
      withoutPlus (order.map (·.token)) := by
    rw [withoutPlus, withoutPlus, List.filter_map, List.filter_map, List.filter_filter]
    congr 1
    refine List.filter_congr fun x hx => ?_
    by_cases hplace : x.position ∈ places
    · simp [hsigns x hx hplace]
    · simp [hplace]
  rw [← Evaluator.evaluate_withoutPlus, hsame, Evaluator.evaluate_withoutPlus]

end

/-- **Unary plus has no effect.**  Erase from a text that compiles some of the plus
characters that are read as signs.  What is left compiles in the same mode, to the
order of the whole text without the tokens of these characters, which are in it;
and it has the same value or the same error, whatever the evaluator and the values
of the variables. -/
theorem compile_erase {mode : VarMode} {text : String} {c : Compiled} {chosen : List Nat}
    (hcompile : compile mode text = .ok c) (hchosen : ∀ i ∈ chosen, ReadsAsPos mode text i) :
    ∃ tokens order erased, tokenize mode text = .ok tokens ∧
      origins (placesFrom 0 tokens) = .ok order ∧ c.tokens = order.map (·.token) ∧
      (∀ i ∈ chosen, ⟨.sign .pos, piecesBefore text.toList i⟩ ∈ order) ∧
      compile mode (erase chosen text) = .ok erased ∧
      erased.tokens = (order.filter
        (·.position ∉ chosen.map (piecesBefore text.toList))).map (·.token) ∧
      ∀ (e : Evaluator) (values : Array Float),
        erased.evaluateWith e values = c.evaluateWith e values := by
  obtain ⟨tokens, out, htokens, hout, rfl⟩ := compile_eq_ok_iff.1 hcompile
  rw [toRpn_eq_origins] at hout
  obtain ⟨order, horder, rfl⟩ := map_eq_ok.1 hout
  have hpos : ∀ k ∈ chosen.map (piecesBefore text.toList), tokens[k]? = some (.sign .pos) := by
    refine List.forall_mem_map.2 fun i hi => ?_
    obtain ⟨-, tokens', htokens', htoken⟩ := hchosen i hi
    rw [htokens] at htokens'
    cases htokens'
    exact htoken
  have herased := toRpn_without horder hpos (placedAll_of_tokenize htokens)
  refine ⟨tokens, order, ⟨_, mode⟩, htokens, horder, rfl, fun i hi => ?_,
    compile_eq_ok_iff.2 ⟨_, _, tokenize_erase htokens hchosen, herased, rfl⟩, rfl,
    fun e values => evaluate_filter horder hpos e values⟩
  rw [mem_origins_iff horder rfl, mem_placesFrom_iff]
  exact hpos _ (List.mem_map_of_mem hi)

/-- The tokens of the text `+X ^ + -x + +Sin( +x)`. -/
def plusTokens : List Token :=
  [.sign .pos, .var 0, .binary .pow, .sign .pos, .sign .neg, .var 0, .binary .add, .sign .pos,
    .func .sin, .leftParen, .sign .pos, .var 0, .rightParen]

/-- Their order, with places. -/
def plusOrder : List Held :=
  [⟨.var 0, 1⟩, ⟨.var 0, 5⟩, ⟨.sign .neg, 4⟩, ⟨.sign .pos, 3⟩, ⟨.binary .pow, 2⟩, ⟨.sign .pos, 0⟩,
    ⟨.var 0, 11⟩, ⟨.sign .pos, 10⟩, ⟨.func .sin, 8⟩, ⟨.sign .pos, 7⟩, ⟨.binary .add, 6⟩]

/-- Erased are the signs of the first term, of its exponent and of the argument;
the plus between the terms and the sign of the call stay. -/
theorem compile_erase_some :
    (∀ i ∈ [0, 5, 18], ReadsAsPos .scalar "+X ^ + -x + +Sin( +x)" i) ∧
    erase [0, 5, 18] "+X ^ + -x + +Sin( +x)" = "X ^  -x + +Sin( x)" ∧
    ∃ c erased, compile .scalar "+X ^ + -x + +Sin( +x)" = .ok c ∧
      compile .scalar "X ^  -x + +Sin( x)" = .ok erased ∧
      erased.tokens = [.var 0, .var 0, .sign .neg, .binary .pow, .var 0, .func .sin, .sign .pos,
        .binary .add] ∧
      ∀ (e : Evaluator) (values : Array Float),
        erased.evaluateWith e values = c.evaluateWith e values := by
  have htokens : tokenize .scalar "+X ^ + -x + +Sin( +x)" = .ok plusTokens :=
    toOption_eq_some.1 (by decide +kernel)
  have hcompile : compile .scalar "+X ^ + -x + +Sin( +x)" =
      .ok ⟨plusOrder.map (·.token), .scalar⟩ := compile_eq_ok_iff.2 ⟨_, _, htokens, rfl, rfl⟩
  have hchosen : ∀ i ∈ [0, 5, 18], ReadsAsPos .scalar "+X ^ + -x + +Sin( +x)" i := by
    simp only [List.forall_mem_cons]
    exact ⟨⟨by decide, _, htokens, by decide +kernel⟩, ⟨by decide, _, htokens, by decide +kernel⟩,
      ⟨by decide, _, htokens, by decide +kernel⟩, by simp⟩
  have herase : erase [0, 5, 18] "+X ^ + -x + +Sin( +x)" = "X ^  -x + +Sin( x)" := by
    decide +kernel
  have hplaces : [0, 5, 18].map (piecesBefore "+X ^ + -x + +Sin( +x)".toList) = [0, 3, 10] := by
    decide +kernel
  obtain ⟨tokens, order, erased, htokens', horder, -, -, herased, hout, hvalue⟩ :=
    compile_erase hcompile hchosen
  cases htokens.symm.trans htokens'
  have hplus : origins (placesFrom 0 plusTokens) = .ok plusOrder := rfl
  cases hplus.symm.trans horder
  rw [herase] at herased
  rw [hplaces] at hout
  exact ⟨hchosen, herase, _, erased, hcompile, herased, hout, hvalue⟩

end Formula
