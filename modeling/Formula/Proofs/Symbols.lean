import Formula.Proofs.Enclosing

/-!
# Formula.Proofs.Symbols

The symbols of a text that is read.

* `Spells.eq_symbol` — a symbol stands in no spelling but its own;
* `piecesBefore` — which token a character of a text is;
* `exists_symbol` — the text before a symbol is spellings of the tokens before
  it, and what follows is spellings of those after it;
* `exists_token_of_symbol` — so every symbol of a text is a token by itself;
* `piecesBefore_lt` — and of two symbols the later is the later token.
-/

namespace Formula

open Text

variable {mode : VarMode} {previous : Option Token} {token : Token} {u v : List Char}
  {cs : List Char} {spelled before after : List (List Char × Token)}

/-! ## Spellings with a symbol -/

theorem Symbol.char_ne_of_isDigit (s : Symbol) {c : Char} (hc : c.isDigit = true) : s.char ≠ c := by
  rintro rfl
  rw [s.isDigit_char] at hc
  cases hc

/-- A symbol stands in no numeral. -/
theorem Symbol.not_mem_numeral (s : Symbol) (h : IsNumeral v) : s.char ∉ v := by
  obtain ⟨c, ds, rfl, hc, hds⟩ := h.exists_cons
  intro hmem
  obtain heq | hmem := List.mem_cons.1 hmem
  · exact s.char_ne_of_isDigit hc heq
  · have hchar := hds _ hmem
    cases s <;> cases hchar

/-- A symbol stands among no letters. -/
theorem Symbol.not_mem_letters (s : Symbol) (h : IsLetters v) : s.char ∉ v := by
  intro hmem
  have hletter := h.2 _ hmem
  rw [s.isAlpha_char] at hletter
  cases hletter

/-- A symbol stands in no subscript that is an index. -/
theorem Symbol.not_mem_indexed (s : Symbol) {digits : List Char} (h : IsDigits digits) :
    s.char ∉ 'x' :: '[' :: (digits ++ [']']) := by
  intro hmem
  simp only [List.mem_cons, List.mem_append, List.not_mem_nil, or_false] at hmem
  obtain hx | hbracket | hdigit | hclose := hmem
  · cases s <;> cases hx
  · cases s <;> cases hbracket
  · exact s.char_ne_of_isDigit (h.2 _ hdigit) rfl
  · cases s <;> cases hclose

/-- A symbol stands in no spelling but its own, and that is of a token it may
be. -/
theorem Spells.eq_symbol (h : Spells mode v token) {s : Symbol} (hs : s.char ∈ v) :
    v = [s.char] ∧ ∃ previous, token = s.token previous := by
  have hone : ∀ t : Symbol, s.char ∈ [t.char] → t = s := by
    intro t hmem
    have hfind := t.ofChar?_char
    rw [← List.mem_singleton.1 hmem, Symbol.ofChar?_char] at hfind
    exact (Option.some.inj hfind).symm
  cases h with
  | number h => exact absurd hs (s.not_mem_numeral h)
  | euler | pi | scalar _ =>
    exact absurd hs (s.not_mem_letters (isLetters_of_all (by decide) (by decide)))
  | func f => exact absurd hs (s.not_mem_letters (isLetters_name f))
  | indexed _ hdigits _ => exact absurd hs (s.not_mem_indexed hdigits)
  | add =>
    cases hone .plus hs
    exact ⟨rfl, some .rightParen, rfl⟩
  | sub =>
    cases hone .minus hs
    exact ⟨rfl, some .rightParen, rfl⟩
  | pos =>
    cases hone .plus hs
    exact ⟨rfl, none, rfl⟩
  | neg =>
    cases hone .minus hs
    exact ⟨rfl, none, rfl⟩
  | mul =>
    cases hone .star hs
    exact ⟨rfl, none, rfl⟩
  | div =>
    cases hone .slash hs
    exact ⟨rfl, none, rfl⟩
  | pow =>
    cases hone .caret hs
    exact ⟨rfl, none, rfl⟩
  | leftParen =>
    cases hone .leftParen hs
    exact ⟨rfl, none, rfl⟩
  | rightParen =>
    cases hone .rightParen hs
    exact ⟨rfl, none, rfl⟩
  | comma =>
    cases hone .comma hs
    exact ⟨rfl, none, rfl⟩

theorem SpelledAfter.of_append (h : SpelledAfter mode u previous (before ++ after)) :
    SpelledAfter mode u previous before := by
  induction before generalizing u previous with
  | nil => trivial
  | cons p before ih =>
    obtain ⟨hspell, hseparate, hplaced, hrest⟩ := h
    exact ⟨hspell, hseparate, hplaced, ih hrest⟩

/-- Where spellings make up a text with a symbol, the symbol is one of them. -/
theorem SpelledAfter.exists_symbol {a b : List Char} {s : Symbol}
    (h : SpelledAfter mode u previous spelled) (htext : spelled.flatMap (·.1) = a ++ s.char :: b) :
    ∃ before previous after, spelled = before ++ ([s.char], s.token previous) :: after ∧
      before.flatMap (·.1) = a ∧ after.flatMap (·.1) = b := by
  induction spelled generalizing u previous a with
  | nil => cases a <;> cases htext
  | cons p spelled ih =>
    obtain ⟨v, token⟩ := p
    obtain ⟨hspell, -, -, hrest⟩ := h
    rw [List.flatMap_cons] at htext
    obtain ⟨w, rfl, hw⟩ | ⟨w, hv, hw⟩ := List.append_eq_append_iff.1 htext
    · obtain ⟨before, previous', after, rfl, rfl, hafter⟩ := ih hrest hw
      exact ⟨(v, token) :: before, previous', after, rfl, rfl, hafter⟩
    cases w with
    | nil =>
      rw [List.append_nil] at hv
      obtain ⟨before, previous', after, rfl, hbefore, hafter⟩ := ih (a := []) hrest hw.symm
      refine ⟨(v, token) :: before, previous', after, rfl, ?_, hafter⟩
      rw [List.flatMap_cons, hbefore, List.append_nil]
      exact hv
    | cons c w =>
      obtain ⟨rfl, hb⟩ := List.cons.inj hw
      have hv' : v = a ++ s.char :: w := hv
      have hs : s.char ∈ v := by
        rw [hv']
        exact List.mem_append_right _ (.head _)
      obtain ⟨hone, previous', rfl⟩ := hspell.eq_symbol hs
      rw [hone] at hv'
      cases a with
      | nil =>
        cases hv'
        exact ⟨[], previous', spelled, by rw [hone]; rfl, rfl, hb.symm⟩
      | cons d a =>
        have hlength := congrArg List.length hv'
        simp at hlength

/-! ## Characters of a text -/

/-- The number of pieces of the text before the character at `i`. -/
def piecesBefore (cs : List Char) (i : Nat) : Nat :=
  (Lexeme.split (normalise (cs.take i))).length

/-- A text has as many pieces as it has spellings. -/
theorem length_split (h : SpelledAfter mode [] none spelled) :
    (Lexeme.split (spelled.flatMap (·.1))).length = spelled.length := by
  have hread := length_of_readAll (tokenizeNormal_of_lexical h.lexicalAfter)
  rw [List.length_map] at hread
  exact hread.symm

/-- A text is what stands before a character, the character, and what stands after
it. -/
theorem eq_take_append_drop {c : Char} {i : Nat} (h : cs[i]? = some c) :
    cs = cs.take i ++ c :: cs.drop (i + 1) ∧ (cs.take i).length = i := by
  obtain ⟨hlt, hchar⟩ := List.getElem?_eq_some_iff.1 h
  refine ⟨?_, List.length_take_of_le (Nat.le_of_lt hlt)⟩
  rw [← hchar, ← List.drop_eq_getElem_cons hlt, List.take_append_drop]

/-- The normal form of a text with a symbol. -/
theorem normalise_symbol (s : Symbol) {a b : List Char} (ha : 'Σ' ∉ a) (hb : 'Σ' ∉ b) :
    normalise (a ++ s.char :: b) = normalise a ++ s.char :: normalise b := by
  have hnormal : normalise [s.char] = [s.char] := by cases s <;> decide +kernel
  have hsigma : 'Σ' ∉ [s.char] := by cases s <;> decide
  have hrest : 'Σ' ∉ [s.char] ++ b := by
    rw [List.mem_append, not_or]
    exact ⟨hsigma, hb⟩
  rw [← List.singleton_append, normalise_append ha hrest, normalise_append hsigma hb, hnormal,
    List.singleton_append]

section

variable (hsigma : 'Σ' ∉ cs) (hspelled : SpelledAfter mode [] none spelled)
  (htext : spelled.flatMap (·.1) = normalise cs)
include hsigma hspelled htext

/-- A symbol of a text is the spelling that comes after the pieces of the text
before it. -/
theorem exists_symbol {a b : List Char} {s : Symbol} (hcs : cs = a ++ s.char :: b) :
    ∃ before previous after, spelled = before ++ ([s.char], s.token previous) :: after ∧
      before.flatMap (·.1) = normalise a ∧ after.flatMap (·.1) = normalise b ∧
      before.length = piecesBefore cs a.length := by
  subst hcs
  rw [List.mem_append, List.mem_cons, not_or, not_or] at hsigma
  rw [normalise_symbol s hsigma.1 hsigma.2.2] at htext
  obtain ⟨before, previous, after, rfl, hbefore, hafter⟩ := hspelled.exists_symbol htext
  refine ⟨before, previous, after, rfl, hbefore, hafter, ?_⟩
  rw [piecesBefore, List.take_left, ← hbefore, length_split hspelled.of_append]

/-- Of two symbols the later is the later token. -/
theorem piecesBefore_lt {i j : Nat} {s t : Symbol} (hij : i < j) (hi : cs[i]? = some s.char)
    (hj : cs[j]? = some t.char) : piecesBefore cs i < piecesBefore cs j := by
  obtain ⟨hcs, hlength⟩ := eq_take_append_drop hj
  obtain ⟨before, token, after, rfl, hbefore, -, hcount⟩ :=
    exists_symbol hsigma hspelled htext hcs
  rw [hlength] at hcount
  -- The earlier symbol stands in the text before the later, at the same place.
  have hi' : (cs.take j)[i]? = some s.char := by rwa [List.getElem?_take_of_lt hij]
  obtain ⟨hcs', hlength'⟩ := eq_take_append_drop hi'
  have hsigma' : 'Σ' ∉ cs.take j := fun hmem => hsigma (List.mem_of_mem_take hmem)
  obtain ⟨before', token', after', rfl, -, -, hcount'⟩ :=
    exists_symbol hsigma' hspelled.of_append hbefore hcs'
  rw [hlength', piecesBefore, List.take_take, Nat.min_eq_left (Nat.le_of_lt hij)] at hcount'
  rw [← hcount, piecesBefore, ← hcount', List.length_append, List.length_cons]
  omega

end

/-- Every symbol of a text that is read is a token by itself. -/
theorem exists_token_of_symbol {text : String} {tokens : List Token} {i : Nat} {s : Symbol}
    (htokens : tokenize mode text = .ok tokens) (hs : text.toList[i]? = some s.char) :
    ∃ previous, tokens[piecesBefore text.toList i]? = some (s.token previous) := by
  obtain ⟨cs, ⟨hsigma, hnormal⟩, hlexical⟩ := exists_normalForm_of_tokenize htokens
  obtain ⟨spelled, hspelled, htext, rfl⟩ := hlexical.exists_spelled
  rw [← hnormal] at htext
  obtain ⟨hcs, hlength⟩ := eq_take_append_drop hs
  obtain ⟨before, previous, after, rfl, -, -, hcount⟩ := exists_symbol hsigma hspelled htext hcs
  rw [hlength] at hcount
  refine ⟨previous, ?_⟩
  rw [← hcount, List.map_append, List.getElem?_append_right (Nat.le_of_eq (List.length_map _)),
    List.length_map, Nat.sub_self, List.map_cons, List.getElem?_cons_zero]

end Formula
