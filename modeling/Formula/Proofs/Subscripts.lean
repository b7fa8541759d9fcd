import Formula.Proofs.Offending

/-!
# Formula.Proofs.Subscripts

What is read between the brackets of `x[…]`.

* `readWord_variableName` — the variable is a word of no other meaning;
* `tokenize_piece` — a text that is cut into one piece is read as that piece;
* `ofDigitChars_padded` — digits write a number, however many zeros lead;
* `tokenize_subscript` — what every text between the brackets comes to, and what
  comes of a bracket that is left open.
-/

namespace Formula

open Text

variable {mode : VarMode} {cs : List Char} {piece : Lexeme}

/-! ## Variables -/

/-- The name of a variable means nothing else. -/
theorem readWord_variableName (mode : VarMode) (subscript? : Option Subscript) (position : Nat) :
    readWord mode variableName subscript? position =
      readVariable mode subscript? position (position + 1) := by
  have hfixed : fixedWord? variableName = none := by decide
  have hbytes : byteLength variableName = 1 := by decide
  simp only [readWord, hfixed, hbytes, if_true]

/-- A text that is cut into one piece is read as that piece. -/
theorem tokenize_piece (hcut : CutsTo cs piece []) (hcs : ∀ c ∈ cs, Settled c) :
    tokenize mode (String.ofList cs) = (piece.read mode none 0).map ([·]) := by
  rw [tokenize_ofList hcs, tokenizeNormal, hcut.split_eq, Lexeme.split_nil, readAll]
  cases piece.read mode none 0 <;> rfl

/-! ## Brackets -/

/-- A variable with the given text between its brackets. -/
def indexed (index : String) : String := "x[" ++ index ++ "]"

theorem indexed_eq (index : String) :
    indexed index = String.ofList (variableName ++ '[' :: (index.toList ++ [']'])) := by
  have hopen : "x[".toList = ['x', '['] := by decide +kernel
  have hclose : "]".toList = [']'] := by decide +kernel
  rw [← String.ofList_toList (s := indexed index), indexed, String.toList_append,
    String.toList_append, hopen, hclose]
  rfl

theorem opened_eq (index : String) :
    "x[" ++ index = String.ofList (variableName ++ '[' :: index.toList) := by
  have hopen : "x[".toList = ['x', '['] := by decide +kernel
  rw [← String.ofList_toList (s := "x[" ++ index), String.toList_append, hopen]
  rfl

/-- The variable and its brackets are in normal form. -/
theorem settled_of_mem_brackets {c : Char} (hc : c ∈ ['x', '[', ']']) : Settled c := by
  have hall : (['x', '[', ']'].all fun c => unsettled.all fun r => ! r.holds c.toNat) = true := by
    decide +kernel
  exact .of_unsettled (by simpa using List.all_eq_true.1 hall c hc)

theorem isLetters_variableName : IsLetters variableName :=
  isLetters_of_all (by decide) (by decide)

variable {size : UInt64} {hsize : size ≠ 0} {index : String}

theorem settled_of_mem_indexed {c : Char} (hnormal : normalise index.toList = index.toList)
    (hc : c ∈ variableName ++ '[' :: (index.toList ++ [']'])) : Settled c := by
  by_cases hindex : c ∈ index.toList
  · rw [← hnormal] at hindex
    exact settled_of_mem_normalise hindex
  · exact settled_of_mem_brackets (by simpa [variableName, hindex] using hc)

/-- What stands between the brackets is read as the index. -/
theorem tokenize_indexed (hnormal : normalise index.toList = index.toList)
    (hclose : ']' ∉ index.toList) :
    tokenize (.vector size hsize) (indexed index) =
      (readIndex size ⟨index.toList, true⟩ 1).map ([·]) := by
  have hcut : CutsTo (variableName ++ '[' :: (index.toList ++ [']'])) _ [] :=
    .closed isLetters_variableName hclose
  rw [indexed_eq, tokenize_piece hcut fun _ => settled_of_mem_indexed hnormal, Lexeme.read,
    readWord_variableName]
  rfl

/-- A bracket that is left open is reported, whatever follows it. -/
theorem tokenize_opened (hnormal : normalise index.toList = index.toList)
    (hclose : ']' ∉ index.toList) :
    tokenize (.vector size hsize) ("x[" ++ index) = .error (.unclosedIndex 1) := by
  have hcut := CutsTo.opened isLetters_variableName hclose
  have hsettled : ∀ c ∈ variableName ++ '[' :: index.toList, Settled c :=
    fun c hc => settled_of_mem_indexed hnormal (List.mem_append_left [']'] hc)
  rw [opened_eq, tokenize_piece hcut hsettled, Lexeme.read, readWord_variableName]
  rfl

/-! ## Indices -/

/-- Digits are in normal form. -/
theorem settled_of_isDigit {c : Char} (h : c.isDigit = true) : Settled c := by
  have hall : ∀ n : Fin 10, ∀ r ∈ unsettled, r.holds (48 + n) = false := by decide +kernel
  have hrange : 48 ≤ c.toNat ∧ c.toNat ≤ 57 := Char.isDigit_iff_toNat.1 h
  refine .of_unsettled fun r hr => ?_
  have hn := hall ⟨c.toNat - 48, by omega⟩ r hr
  rwa [Nat.add_sub_cancel' hrange.1] at hn

/-- Whether characters are digits can be computed. -/
theorem isDigits_of_all {cs : List Char} (hne : cs ≠ []) (h : cs.all Char.isDigit = true) :
    IsDigits cs :=
  ⟨hne, List.all_eq_true.1 h⟩

/-- Zeros before digits change nothing. -/
theorem ofDigitChars_replicate_zero (zeros : Nat) (digits : List Char) :
    Nat.ofDigitChars 10 (List.replicate zeros '0' ++ digits) 0 =
      Nat.ofDigitChars 10 digits 0 := by
  induction zeros with
  | zero => rfl
  | succ zeros ih => simpa [List.replicate_succ, Nat.ofDigitChars_cons] using ih

/-- The digits of a number, with zeros before them. -/
def padded (zeros n : Nat) : String :=
  String.ofList (List.replicate zeros '0' ++ Nat.toDigits 10 n)

theorem ofDigitChars_padded (zeros n : Nat) :
    Nat.ofDigitChars 10 (padded zeros n).toList 0 = n := by
  rw [padded, String.toList_ofList, ofDigitChars_replicate_zero, Nat.ofDigitChars_ten_toDigits]

theorem isDigits_padded (zeros n : Nat) : IsDigits (padded zeros n).toList := by
  rw [padded, String.toList_ofList]
  refine ⟨by simp, List.forall_mem_append.2 ⟨?_, ?_⟩⟩
  · intro c hc
    rw [List.eq_of_mem_replicate hc]
    decide
  · exact fun c hc => Nat.isDigit_of_mem_toDigits (by decide) (by decide) hc

/-- Digits with zeros before them are in normal form, and have no bracket. -/
theorem normalise_padded (zeros n : Nat) :
    normalise (padded zeros n).toList = (padded zeros n).toList :=
  normalise_eq_self fun c hc => settled_of_isDigit ((isDigits_padded zeros n).2 c hc)

theorem bracket_not_mem_padded (zeros n : Nat) : ']' ∉ (padded zeros n).toList :=
  fun hmem => absurd ((isDigits_padded zeros n).2 _ hmem) (by decide)

/-- Digits between the brackets are the variable of their number, which has to be below
the dimension. -/
theorem tokenize_indexed_of_isDigits (hnormal : normalise index.toList = index.toList)
    (hclose : ']' ∉ index.toList) (hdigits : IsDigits index.toList) :
    tokenize (.vector size hsize) (indexed index) =
      if Nat.ofDigitChars 10 index.toList 0 < size.toNat then
        .ok [.var (Nat.ofDigitChars 10 index.toList 0)]
      else .error (.indexOutOfRange index size.toNat 2) := by
  rw [tokenize_indexed hnormal hclose, readIndex_eq hdigits, String.ofList_toList]
  by_cases hsmall : Nat.ofDigitChars 10 index.toList 0 < size.toNat
  · rw [if_pos hsmall, if_pos hsmall]
    rfl
  · rw [if_neg hsmall, if_neg hsmall]
    rfl

/-- **Every text between the brackets comes to one thing.**  Digits are the variable of
their number where it is below the dimension, and out of range otherwise, however
many they are; any other text is no index; and a bracket that is left open is reported
whatever follows it.  So a number is the index of its variable with any number of zeros
before it, and one that is no smaller than the dimension is none. -/
theorem tokenize_subscript (size : UInt64) (hsize : size ≠ 0) :
    (∀ index : String, normalise index.toList = index.toList → ']' ∉ index.toList →
      (IsDigits index.toList → Nat.ofDigitChars 10 index.toList 0 < size.toNat →
        tokenize (.vector size hsize) (indexed index) =
          .ok [.var (Nat.ofDigitChars 10 index.toList 0)]) ∧
      (IsDigits index.toList → size.toNat ≤ Nat.ofDigitChars 10 index.toList 0 →
        tokenize (.vector size hsize) (indexed index) =
          .error (.indexOutOfRange index size.toNat 2)) ∧
      (¬ IsDigits index.toList →
        tokenize (.vector size hsize) (indexed index) = .error (.invalidIndex index 2)) ∧
      tokenize (.vector size hsize) ("x[" ++ index) = .error (.unclosedIndex 1)) ∧
    ∀ zeros n : Nat,
      tokenize (.vector size hsize) (indexed (padded zeros n)) =
        if n < size.toNat then .ok [.var n]
        else .error (.indexOutOfRange (padded zeros n) size.toNat 2) := by
  refine ⟨fun index hnormal hclose => ⟨?_, ?_, ?_, ?_⟩, fun zeros n => ?_⟩
  · intro hdigits hsmall
    rw [tokenize_indexed_of_isDigits hnormal hclose hdigits, if_pos hsmall]
  · intro hdigits hlarge
    rw [tokenize_indexed_of_isDigits hnormal hclose hdigits, if_neg (by omega)]
  · intro hdigits
    rw [tokenize_indexed hnormal hclose, readIndex_of_not_isDigits size hdigits,
      String.ofList_toList]
    rfl
  · exact tokenize_opened hnormal hclose
  · rw [tokenize_indexed_of_isDigits (normalise_padded zeros n) (bracket_not_mem_padded zeros n)
      (isDigits_padded zeros n), ofDigitChars_padded]

/-- One more than a word of 64 bits holds is out of range and does not begin again at
one; zeros before an index change nothing; and a digit outside ASCII is none. -/
theorem tokenize_subscript_beyondWord :
    tokenize (.vector 3 (by decide)) (indexed "18446744073709551617") =
        .error (.indexOutOfRange "18446744073709551617" 3 2) ∧
      tokenize (.vector 3 (by decide)) (indexed "0002") = .ok [.var 2] ∧
      tokenize (.vector 3 (by decide)) (indexed "²") = .error (.invalidIndex "²" 2) ∧
      tokenize (.vector 3 (by decide)) ("x[" ++ "²") = .error (.unclosedIndex 1) := by
  obtain ⟨hall, -⟩ := tokenize_subscript 3 (by decide)
  obtain ⟨-, hlarge, -, -⟩ := hall "18446744073709551617" (by decide +kernel) (by decide +kernel)
  obtain ⟨hsmall, -, -, -⟩ := hall "0002" (by decide +kernel) (by decide +kernel)
  obtain ⟨-, -, hother, hopen⟩ := hall "²" (by decide +kernel) (by decide +kernel)
  refine ⟨hlarge (isDigits_of_all (by decide +kernel) (by decide +kernel)) (by decide +kernel),
    hsmall (isDigits_of_all (by decide +kernel) (by decide +kernel)) (by decide +kernel),
    hother ?_, hopen⟩
  exact fun hdigits => absurd (hdigits.2 '²' (by decide +kernel)) (by decide)

end Formula
