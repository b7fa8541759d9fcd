import Formula.Compiled
import Formula.Proofs.Numerals

/-!
# Formula.Proofs.Names

The symbolic names of tokens, and of whole formulas.

A name is cut out of a debug text again, since no name has a blank and none is empty.
What a name begins with tells numbers and variables from the tokens that have a word for
their name:

* `Token.wellNamed` — a name tells what it is made from, is not empty and has no blank;
* `Token.text_injective` — different tokens have different names;
* `splitOn_debugText` — the names in a debug text are what its blanks part;
* `debugText_eq_iff` — a debug text tells its tokens.
-/

namespace Formula

/-! ## Kinds of names -/

/-- What the name of a token is made from. -/
inductive Kind
  | number | var | word
  deriving DecidableEq, Repr

/-- What a name is made from, told by its beginning.  `NaN` and `NEG` begin alike. -/
def Kind.ofText : List Char → Kind
  | [] => word
  | c :: cs =>
    if c.isDigit || c = '-' || c = 'i' || c :: cs = ['N', 'a', 'N'] then number
    else if c = 'V' then var
    else word

namespace Token

/-- What the name of a token is made from. -/
def kind : Token → Kind
  | number _ => .number
  | var _ => .var
  | func _ | binary _ | sign _ | leftParen | rightParen | comma => .word

/-- The tokens that have a word for their name. -/
def words : List Token :=
  Func.all.map func ++ [.binary .add, .binary .sub, .binary .mul, .binary .div, .binary .pow,
    .sign .neg, .sign .pos, leftParen, rightParen, comma]

theorem mem_words {t : Token} (h : t.kind = .word) : t ∈ words := by
  cases t with
  | func f => simp [words, Func.mem_all]
  | binary op => cases op <;> simp [words]
  | sign s => cases s <;> simp [words]
  | leftParen | rightParen | comma => simp [words]
  | number _ | var _ => cases h

/-- What holds of the name of a token: it tells the kind, is not empty, and has no
blank. -/
structure WellNamed (t : Token) : Prop where
  ofText : Kind.ofText t.text.toList = t.kind
  ne_nil : t.text.toList ≠ []
  blank_not_mem : ' ' ∉ t.text.toList

theorem wellNamed_number (x : Float) : WellNamed (number x) := by
  obtain ⟨negative, text, hplain, hcases⟩ := plainText_cases x
  have htext : (number x).text.toList = Double.signed negative text := hplain
  suffices hsigned : Kind.ofText (Double.signed negative text) = .number ∧
      Double.signed negative text ≠ [] ∧ ' ' ∉ Double.signed negative text by
    rw [← htext] at hsigned
    exact ⟨hsigned.1, hsigned.2.1, hsigned.2.2⟩
  obtain ⟨rfl, rfl⟩ | rfl | ⟨⟨c, cs, rfl, hdigit⟩, hchars⟩ := hcases
  · decide
  · cases negative <;> decide
  · have hblank : ' ' ∉ c :: cs := fun hmem => by simpa using hchars ' ' hmem
    cases negative with
    | false => exact ⟨by simp [Double.signed, Kind.ofText, hdigit], List.cons_ne_nil c cs, hblank⟩
    | true => exact ⟨rfl, List.cons_ne_nil '-' _, by simpa [Double.signed, plainFormat] using hblank⟩

theorem toList_text_var (index : Nat) :
    (var index).text.toList = ['V', 'A', 'R', '_'] ++ Nat.toDigits 10 index := by
  rw [text, String.toList_append, Nat.toList_repr]
  rfl

theorem wellNamed_var (index : Nat) : WellNamed (var index) := by
  have htext := toList_text_var index
  refine ⟨htext ▸ rfl, by simp [htext], ?_⟩
  rw [htext, List.mem_append, not_or]
  refine ⟨by decide, fun hmem => ?_⟩
  exact absurd (Nat.isDigit_of_mem_toDigits (by decide) (by decide) hmem) (by decide)

/-- Different variables have different names. -/
theorem text_var_injective {i j : Nat} (h : (var i).text = (var j).text) : i = j := by
  have hdigits := congrArg String.toList h
  rw [toList_text_var, toList_text_var, List.append_cancel_left_eq] at hdigits
  calc i
    _ = Nat.ofDigitChars 10 (Nat.toDigits 10 i) 0 := Nat.ofDigitChars_ten_toDigits.symm
    _ = Nat.ofDigitChars 10 (Nat.toDigits 10 j) 0 := by rw [hdigits]
    _ = j := Nat.ofDigitChars_ten_toDigits

/-- Words are named so, and no two alike. -/
theorem words_check :
    ∀ s ∈ words, (Kind.ofText s.text.toList = .word ∧ s.text.toList ≠ [] ∧ ' ' ∉ s.text.toList) ∧
      ∀ t ∈ words, s.text = t.text → s = t := by
  decide +kernel

theorem wellNamed_word {t : Token} (h : t.kind = .word) : WellNamed t := by
  obtain ⟨⟨hkind, hne, hblank⟩, -⟩ := words_check t (mem_words h)
  exact ⟨hkind.trans h.symm, hne, hblank⟩

/-- All tokens are named so. -/
theorem wellNamed (t : Token) : WellNamed t := by
  cases t with
  | number x => exact wellNamed_number x
  | var index => exact wellNamed_var index
  | func _ | binary _ | sign _ | leftParen | rightParen | comma => exact wellNamed_word rfl

/-- Different tokens have different names. -/
theorem text_injective {s t : Token} (h : s.text = t.text) : s = t := by
  have hkind : s.kind = t.kind := by rw [← (wellNamed s).ofText, h, (wellNamed t).ofText]
  cases hs : s.kind with
  | number =>
    cases s <;> cases hs
    cases t <;> cases hkind
    exact congrArg number (plainText_injective h)
  | var =>
    cases s <;> cases hs
    cases t <;> cases hkind
    exact congrArg var (text_var_injective h)
  | word =>
    exact (words_check s (mem_words hs)).2 t (mem_words (hkind ▸ hs)) h

end Token

/-! ## Debug texts -/

/-- The names in a debug text are what its blanks part. -/
theorem splitOn_debugText {ts : List Token} (hne : ts ≠ []) :
    (debugText ts).toList.splitOn ' ' = ts.map (·.text.toList) := by
  have hblank : ∀ text ∈ ts.map (·.text.toList), ' ' ∉ text := by
    intro text htext
    obtain ⟨t, -, rfl⟩ := List.mem_map.1 htext
    exact t.wellNamed.blank_not_mem
  have hjoin : (debugText ts).toList = [' '].intercalate (ts.map (·.text.toList)) := by
    rw [debugText, String.toList_intercalate, List.map_map]
    rfl
  rw [hjoin, List.splitOn_intercalate ' ' hblank (by simpa using hne)]

/-- Only no tokens have an empty debug text. -/
theorem eq_nil_of_debugText {ts : List Token} (h : debugText ts = "") : ts = [] := by
  cases ts with
  | nil => rfl
  | cons t ts =>
    have hsplit := splitOn_debugText (List.cons_ne_nil t ts)
    rw [h] at hsplit
    exact absurd (List.cons.inj hsplit).1.symm t.wellNamed.ne_nil

theorem debugText_injective {s t : List Token} (h : debugText s = debugText t) : s = t := by
  by_cases hs : s = []
  · subst hs
    exact (eq_nil_of_debugText h.symm).symm
  · by_cases ht : t = []
    · subst ht
      exact eq_nil_of_debugText h
    · have hnames := splitOn_debugText hs
      rw [h, splitOn_debugText ht] at hnames
      refine (List.map_inj_right ?_).1 hnames.symm
      exact fun s t hst => Token.text_injective (String.toList_inj.1 hst)

/-- What is no number is told by its double. -/
theorem ofFloat_of_isNaN {x : Float} (h : x.isNaN = true) : Double.ofFloat x = .nan := by
  change x.toModel.unpack.isNaN = true at h
  rw [← Double.ofUnpacked_unpack]
  cases hx : x.toModel.unpack with
  | notANumber => rfl
  | infinity _ | zero _ | finite _ => rw [hx] at h; cases h

/-- **A debug text loses nothing.**  Two lists of tokens, and so two formulas, have one
debug text only when they are the same, where numbers are the same that have the same
bits or are both no number. -/
theorem debugText_eq_iff :
    (∀ s t : List Token, debugText s = debugText t ↔ s = t) ∧
      (∀ c d : Compiled, c.text = d.text ↔ c.tokens = d.tokens) ∧
      ∀ x y : Float, Token.number x = .number y ↔
        x.toBits = y.toBits ∨ (x.isNaN = true ∧ y.isNaN = true) := by
  refine ⟨fun s t => ⟨debugText_injective, congrArg debugText⟩,
    fun c d => ⟨debugText_injective, congrArg debugText⟩, fun x y => ⟨?_, ?_⟩⟩
  · rintro ⟨⟩
    exact .inl rfl
  · rintro (hbits | ⟨hx, hy⟩)
    · rw [toBits_injective hbits]
    · rw [Double.ofFloat_injective ((ofFloat_of_isNaN hx).trans (ofFloat_of_isNaN hy).symm)]

example : debugText [.number (-1 / 0), .var 10, .sign .neg] = "-inf VAR_10 NEG" := by
  decide +kernel

end Formula
