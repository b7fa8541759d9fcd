import Formula.Proofs.Doubles
import Formula.Proofs.Magnitudes
import Formula.Proofs.Subscripts

/-!
# Formula.Proofs.Numerals

The texts of numbers.

A decimal is read back from its text.  So the text of a finite double tells the shortest
decimal of its magnitude, hence the magnitude, and the word or the sign before it tells
the rest:

* `Decimal.ofLiteral_plain` — the text of a decimal is read as that decimal;
* `Double.plain_injective` — different doubles have different texts;
* `plainText_injective` — and so have different machine numbers;
* `plainText_cases` — such a text is `NaN`, or it is `inf` or digits with at most a minus
  before them.
-/

namespace Formula

/-! ## Decimals -/

namespace Decimal

variable (d : Decimal)

/-- A decimal with places is written as the digits of its coefficient, with as many zeros
before them as the places need and a point among them. -/
theorem exists_digits (n p : Nat) :
    ∃ digits, IsDigits digits ∧ Nat.ofDigitChars 10 digits 0 = n ∧ p + 2 ≤ digits.length ∧
      plain ⟨n, p + 1⟩ =
        digits.take (digits.length - (p + 1)) ++ '.' :: digits.drop (digits.length - (p + 1)) := by
  refine ⟨(padded (p + 2 - (Nat.toDigits 10 n).length) n).toList, isDigits_padded _ n,
    ofDigitChars_padded _ n, ?_, ?_⟩
  · rw [padded, String.toList_ofList, List.length_append, List.length_replicate]
    omega
  · rw [padded, String.toList_ofList]
    rfl

/-- A decimal is written with digits before the point, and its places after it. -/
theorem exists_plain :
    ∃ whole rest, d.plain = whole ++ rest ∧ IsDigits whole ∧ (∀ c ∈ rest.head?, c = '.') ∧
      (∀ c ∈ rest.drop 1, c.isDigit = true) ∧ (rest.drop 1).length = d.places ∧
      Nat.ofDigitChars 10 (whole ++ rest.drop 1) 0 = d.coefficient := by
  obtain ⟨n, places⟩ := d
  cases places with
  | zero =>
    have hplain : plain ⟨n, 0⟩ = Nat.toDigits 10 n := rfl
    have hdigits : IsDigits (Nat.toDigits 10 n) :=
      ⟨Nat.toDigits_ne_nil, fun c hc => Nat.isDigit_of_mem_toDigits (by decide) (by decide) hc⟩
    refine ⟨Nat.toDigits 10 n, [], by simp [hplain], hdigits, by simp, by simp, rfl, ?_⟩
    rw [List.drop_nil, List.append_nil, Nat.ofDigitChars_ten_toDigits]
  | succ p =>
    obtain ⟨digits, hdigits, hnumber, hlength, hplain⟩ := exists_digits n p
    refine ⟨_, _, hplain, ⟨?_, ?_⟩, by simp, ?_, ?_, ?_⟩
    · rw [← List.length_pos_iff, List.length_take]
      omega
    · exact fun c hc => hdigits.2 c (List.mem_of_mem_take hc)
    · exact fun c hc => hdigits.2 c (List.mem_of_mem_drop hc)
    · rw [List.drop_one, List.tail_cons, List.length_drop]
      simp only
      omega
    · rwa [List.drop_one, List.tail_cons, List.take_append_drop]

/-- The text of a decimal is read as that decimal. -/
theorem ofLiteral_plain : ofLiteral d.plain = d := by
  obtain ⟨whole, rest, hplain, hwhole, hpoint, _, hplaces, hnumber⟩ := d.exists_plain
  have hdigit : ∀ c ∈ whole, decide (c ≠ '.') = true := by
    intro c hc
    rw [decide_eq_true_iff]
    rintro rfl
    exact absurd (hwhole.2 _ hc) (by decide)
  have hstop : ∀ c ∈ rest.head?, decide (c ≠ '.') = false := by
    intro c hc
    simp [hpoint c hc]
  rw [ofLiteral, hplain, takeWhile_append_of_stop hdigit hstop,
    dropWhile_append_of_stop hdigit hstop, hnumber, hplaces]

theorem plain_injective {d d' : Decimal} (h : d.plain = d'.plain) : d = d' := by
  rw [← ofLiteral_plain d, h, ofLiteral_plain]

/-- The text of a decimal begins with a digit, and has only digits and points. -/
theorem plain_chars :
    (∃ c cs, d.plain = c :: cs ∧ c.isDigit = true) ∧
      ∀ c ∈ d.plain, c.isDigit = true ∨ c = '.' := by
  obtain ⟨whole, rest, hplain, ⟨hne, hwhole⟩, hpoint, hfraction, -, -⟩ := d.exists_plain
  rw [hplain]
  constructor
  · obtain ⟨c, cs, rfl⟩ := List.exists_cons_of_ne_nil hne
    exact ⟨c, cs ++ rest, rfl, hwhole c (by simp)⟩
  · intro c hc
    obtain hc | hc := List.mem_append.1 hc
    · exact .inl (hwhole c hc)
    · cases rest with
      | nil => simp at hc
      | cons point fraction =>
        obtain rfl | hc := List.mem_cons.1 hc
        · exact .inr (hpoint _ rfl)
        · exact .inl (hfraction c hc)

theorem plain_ne_cons {d : Decimal} {c : Char} {cs : List Char} (hc : c.isDigit = false) :
    d.plain ≠ c :: cs := by
  obtain ⟨⟨c', cs', hplain, hdigit⟩, -⟩ := d.plain_chars
  rw [hplain]
  rintro ⟨⟩
  simp [hc] at hdigit

end Decimal

/-! ## Doubles -/

namespace Double

/-- Whether the text of a double begins with a minus. -/
def isNegative : Double → Bool
  | nan => false
  | infinite negative | finite negative _ => negative

/-- The text of a double without its sign. -/
def unsigned : Double → List Char
  | nan => plainFormat.nan.toList
  | infinite _ => plainFormat.infinity.toList
  | finite _ b => b.shortest.plain

theorem plain_eq_signed (d : Double) : d.plain = signed d.isNegative d.unsigned := by
  cases d <;> rfl

/-- A sign is told from the text after it. -/
theorem signed_injective {n n' : Bool} {t t' : List Char} (ht : t.head? ≠ some '-')
    (ht' : t'.head? ≠ some '-') (h : signed n t = signed n' t') : n = n' ∧ t = t' := by
  cases n <;> cases n'
  · exact ⟨rfl, h⟩
  · exact absurd (congrArg List.head? h) ht
  · exact absurd (congrArg List.head? h.symm) ht'
  · exact ⟨rfl, List.tail_eq_of_cons_eq h⟩

/-- What comes after the sign does not begin with one. -/
theorem head?_unsigned (d : Double) : d.unsigned.head? ≠ some '-' := by
  cases d with
  | nan | infinite _ => simp [unsigned, plainFormat]
  | finite _ b =>
    obtain ⟨⟨c, cs, hplain, hdigit⟩, -⟩ := b.shortest.plain_chars
    rw [unsigned, hplain, List.head?_cons, ne_eq, Option.some.injEq]
    rintro rfl
    simp at hdigit

/-- The magnitudes of machine numbers are those with numbers. -/
theorem exists_nth {x : Float} {negative : Bool} {b : Binary} (h : ofFloat x = finite negative b) :
    ∃ n, b = Binary.nth n := by
  rw [ofFloat, ofBits] at h
  split at h
  · split at h <;> cases h
  · rw [finite.injEq] at h
    exact ⟨_, h.2.symm.trans (Binary.ofFields_eq_nth (Nat.mod_lt _ (by decide)))⟩

/-- Apart from the sign, the text of a machine number tells what it stands for. -/
theorem eq_of_unsigned_eq {x y : Float} (hnegative : (ofFloat x).isNegative = (ofFloat y).isNegative)
    (h : (ofFloat x).unsigned = (ofFloat y).unsigned) : ofFloat x = ofFloat y := by
  have hnan : nan.unsigned = ['N', 'a', 'N'] := rfl
  have hinfinite : ∀ negative, (infinite negative).unsigned = ['i', 'n', 'f'] := fun _ => rfl
  have hfinite : ∀ negative b, (finite negative b).unsigned = b.shortest.plain := fun _ _ => rfl
  cases hx : ofFloat x <;> cases hy : ofFloat y <;>
    simp only [hx, hy, hnan, hinfinite, hfinite, isNegative] at h hnegative
  case nan.nan => rfl
  case infinite.infinite => rw [hnegative]
  case finite.finite =>
    obtain ⟨m, rfl⟩ := exists_nth hx
    obtain ⟨n, rfl⟩ := exists_nth hy
    rw [hnegative, Binary.shortest_injective (Decimal.plain_injective h)]
  -- A decimal begins with a digit, and a word does not; nor does one word with another.
  all_goals simp [Decimal.plain_ne_cons, (Decimal.plain_ne_cons _).symm] at h

/-- Different machine numbers have different texts. -/
theorem plain_injective {x y : Float} (h : (ofFloat x).plain = (ofFloat y).plain) : x = y := by
  rw [plain_eq_signed, plain_eq_signed] at h
  obtain ⟨hnegative, hunsigned⟩ := signed_injective (head?_unsigned _) (head?_unsigned _) h
  exact ofFloat_injective (eq_of_unsigned_eq hnegative hunsigned)

end Double

/-! ## Machine numbers -/

/-- **Different machine numbers have different texts.** -/
theorem plainText_injective {x y : Float} (h : plainText x = plainText y) : x = y :=
  Double.plain_injective (String.ofList_injective h)

/-- The text of a machine number is a word, or digits and points of which a digit is first,
with a minus before it or none. -/
theorem plainText_cases (x : Float) :
    ∃ negative text, (plainText x).toList = Double.signed negative text ∧
      ((negative = false ∧ text = ['N', 'a', 'N']) ∨ text = ['i', 'n', 'f'] ∨
        (∃ c cs, text = c :: cs ∧ c.isDigit = true) ∧
          ∀ c ∈ text, c.isDigit = true ∨ c = '.') := by
  refine ⟨(Double.ofFloat x).isNegative, (Double.ofFloat x).unsigned, ?_, ?_⟩
  · rw [plainText, String.toList_ofList, Double.plain_eq_signed]
  · cases Double.ofFloat x with
    | nan => exact .inl ⟨rfl, rfl⟩
    | infinite _ => exact .inr (.inl rfl)
    | finite _ b => exact .inr (.inr b.shortest.plain_chars)

end Formula
