import Formula.Text.Normal

/-!
# Formula.Proofs.Settled

The normal form of a normal form.

* `holds_lower` — the lower-case letters of a range of capitals lie outside a
  range that is separate from it;
* `settled_of_mem_normalise` — hence no character of a normal form is blank or
  has another lower case;
* `normalise_eq_self` — and a text of such characters is its own normal form.
-/

namespace Formula.Text

/-! ## The lower-case letters of a range -/

namespace CaseRange

variable {r s : CaseRange} {n : Nat}

/-- The code point of the lower-case letter of a capital letter of the range. -/
def lower (r : CaseRange) (n : Nat) : Nat := (n + r.shift).toNat

/-- Whether the lower-case letters of the range are characters. -/
def isPlaced (r : CaseRange) : Bool :=
  0 ≤ r.first + r.shift &&
    (r.lower r.last < 0xD800 || 0xDFFF < r.lower r.first && r.lower r.last < 0x110000)

/-- Whether no lower-case letter of the range `r` is a capital letter of the range
`s`, which can be told from the ends of the ranges: the letters of `r` end before
those of `s`, or begin after them, or fall between them, where each range is
every other code point. -/
def isSeparate (r s : CaseRange) : Bool :=
  Nat.blt (r.lower r.last) s.first || Nat.blt s.last (r.lower r.first) ||
    (r.stride % 2 == 0 || r.first == r.last) && s.stride % 2 == 0 &&
      (r.lower r.first + s.first) % 2 == 1

theorem holds_iff : r.holds n = true ↔
    r.first ≤ n ∧ n ≤ r.last ∧ (n - r.first) % r.stride = 0 := by
  rw [holds, Bool.and_eq_true, Bool.and_eq_true, decide_eq_true_eq, decide_eq_true_eq, beq_iff_eq,
    and_assoc]

/-- Where a range is every other code point, so are its letters. -/
theorem even_of_holds (h : r.holds n = true) (hstride : r.stride % 2 = 0 ∨ r.first = r.last) :
    (n - r.first) % 2 = 0 := by
  obtain ⟨hfirst, hlast, hmod⟩ := holds_iff.1 h
  obtain hstride | hone := hstride
  · have hdvd : 2 ∣ n - r.first :=
      Nat.dvd_trans (Nat.dvd_of_mod_eq_zero hstride) (Nat.dvd_of_mod_eq_zero hmod)
    omega
  · omega

/-- The lower-case letters of a range lie outside a range that is separate from
it. -/
theorem holds_lower (hplaced : r.isPlaced = true) (hseparate : r.isSeparate s = true)
    (h : r.holds n = true) : s.holds (r.lower n) = false := by
  obtain ⟨hfirst, hlast, -⟩ := holds_iff.1 h
  rw [isPlaced, Bool.and_eq_true, decide_eq_true_eq] at hplaced
  have hstart := hplaced.1
  have hshift : r.lower n = r.lower r.first + (n - r.first) ∧ r.lower n ≤ r.lower r.last := by
    simp only [lower]
    omega
  refine Bool.eq_false_iff.2 fun hheld => ?_
  obtain ⟨hfirst', hlast', -⟩ := holds_iff.1 hheld
  simp only [isSeparate, Bool.or_eq_true, Bool.and_eq_true, beq_iff_eq, Nat.blt_eq] at hseparate
  obtain (hbefore | hafter) | ⟨⟨hr, hs⟩, hbetween⟩ := hseparate
  · omega
  · omega
  · have hevenR := even_of_holds h hr
    have hevenS := even_of_holds hheld (.inl hs)
    omega

/-- The lower-case letter of a capital letter of the range. -/
theorem toNat_ofNat_lower (hplaced : r.isPlaced = true) (h : r.holds n = true) :
    (Char.ofNat (r.lower n)).toNat = r.lower n := by
  obtain ⟨hfirst, hlast, -⟩ := holds_iff.1 h
  simp only [isPlaced, Bool.and_eq_true, Bool.or_eq_true, decide_eq_true_eq] at hplaced
  have hvalid : (r.lower n).isValidChar := by
    simp only [lower] at *
    unfold Nat.isValidChar
    omega
  rw [Char.ofNat, dif_pos hvalid]
  rfl

end CaseRange

/-! ## Settled characters -/

/-- What a normal form has none of, as ranges: the capital I with a dot above,
blanks, and the capitals that have a lower-case letter. -/
def unsettled : List CaseRange :=
  ⟨0x130, 0x130, 1, 0⟩ :: blankRanges.map (fun r => ⟨r.1, r.2, 1, 0⟩) ++ capitals

/-- Whether a character is its own normal form. -/
structure Settled (c : Char) : Prop where
  dot : c ≠ 'İ'
  blank : isBlank c = false
  capital : ∀ r ∈ capitals, r.holds c.toNat = false

theorem Settled.of_unsettled {c : Char} (h : ∀ r ∈ unsettled, r.holds c.toNat = false) :
    Settled c := by
  simp only [unsettled, List.cons_append, List.forall_mem_cons, List.forall_mem_append,
    List.forall_mem_map] at h
  obtain ⟨hdot, hblank, hcapital⟩ := h
  refine ⟨?_, ?_, hcapital⟩
  · rintro rfl
    exact absurd hdot (by decide)
  · refine List.any_eq_false.2 fun r hr hin => ?_
    rw [Bool.and_eq_true, decide_eq_true_eq, decide_eq_true_eq] at hin
    exact Bool.eq_false_iff.1 (hblank r hr) (CaseRange.holds_iff.2 ⟨hin.1, hin.2, Nat.mod_one _⟩)

/-- A settled character is its own lower case. -/
theorem Settled.simpleLower_eq {c : Char} (h : Settled c) : simpleLower c = c := by
  have hnone : capitals.find? (·.holds c.toNat) = none := by
    simpa [List.find?_eq_none] using h.capital
  rw [simpleLower, hnone]

theorem Settled.ne_sigma {c : Char} (h : Settled c) : c ≠ 'Σ' := by
  rintro rfl
  exact absurd h.simpleLower_eq (by decide +kernel)

/-- The lower-case letters are characters that a normal form may have. -/
theorem isSeparate_of_mem_capitals {r : CaseRange} (hr : r ∈ capitals) :
    r.isPlaced = true ∧ ∀ s ∈ unsettled, r.isSeparate s = true := by
  have hall : (capitals.all fun r => r.isPlaced && unsettled.all r.isSeparate) = true := by
    decide +kernel
  have hone := List.all_eq_true.1 hall r hr
  rwa [Bool.and_eq_true, List.all_eq_true] at hone

/-- The simple lower case of a visible character is settled. -/
theorem settled_simpleLower {c : Char} (hdot : c ≠ 'İ') (hblank : isBlank c = false) :
    Settled (simpleLower c) := by
  unfold simpleLower
  split
  · rename_i r hfind
    obtain ⟨hplaced, hseparate⟩ := isSeparate_of_mem_capitals (List.mem_of_find?_eq_some hfind)
    have hheld := List.find?_some hfind
    refine .of_unsettled fun s hs => ?_
    have hlower := CaseRange.toNat_ofNat_lower hplaced hheld
    rw [CaseRange.lower] at hlower
    rw [hlower]
    exact CaseRange.holds_lower hplaced (hseparate s hs) hheld
  · rename_i hnone
    exact ⟨hdot, hblank, fun r hr => by simpa using List.find?_eq_none.1 hnone r hr⟩

/-- The lower case of a visible character is settled, whatever its neighbours. -/
theorem settled_of_mem_lowerChar {c d : Char} {before after : List Char}
    (hblank : isBlank c = false) (hd : d ∈ lowerChar before c after) : Settled d := by
  have hfixed : ∀ d ∈ ['ς', 'σ', 'i', '\u0307'], Settled d := by
    have hall : (['ς', 'σ', 'i', '\u0307'].all fun d =>
        unsettled.all fun r => ! r.holds d.toNat) = true := by decide +kernel
    intro d hd
    refine .of_unsettled ?_
    simpa using List.all_eq_true.1 hall d hd
  unfold lowerChar at hd
  split at hd
  · split at hd
    all_goals exact hfixed d (by rw [List.mem_singleton.1 hd]; decide)
  split at hd
  · exact hfixed d (List.mem_of_mem_drop (i := 2) hd)
  · rename_i hdot
    rw [List.mem_singleton.1 hd]
    exact settled_simpleLower hdot hblank

/-! ## Normal forms -/

theorem settled_of_mem_lowerFrom {cs before : List Char} {d : Char}
    (hcs : ∀ c ∈ cs, isBlank c = false) (hd : d ∈ lowerFrom before cs) : Settled d := by
  induction cs generalizing before with
  | nil => cases hd
  | cons c cs ih =>
    obtain ⟨hc, hcs⟩ := List.forall_mem_cons.1 hcs
    obtain hd | hd := List.mem_append.1 hd
    · exact settled_of_mem_lowerChar hc hd
    · exact ih hcs hd

/-- The characters of a normal form are settled. -/
theorem settled_of_mem_normalise {c : Char} {cs : List Char} (h : c ∈ normalise cs) :
    Settled c :=
  settled_of_mem_lowerFrom (fun d hd => by simpa using (List.mem_filter.1 hd).2) h

theorem lowerFrom_eq_self {cs : List Char} (h : ∀ c ∈ cs, Settled c) (before : List Char) :
    lowerFrom before cs = cs := by
  induction cs generalizing before with
  | nil => rfl
  | cons c cs ih =>
    obtain ⟨hc, hcs⟩ := List.forall_mem_cons.1 h
    rw [lowerFrom, lowerChar, if_neg hc.ne_sigma, if_neg hc.dot, hc.simpleLower_eq, ih hcs,
      List.singleton_append]

/-- A text of settled characters is its own normal form. -/
theorem normalise_eq_self {cs : List Char} (h : ∀ c ∈ cs, Settled c) : normalise cs = cs := by
  have hvisible : cs.filter (! isBlank ·) = cs :=
    List.filter_eq_self.2 fun c hc => by rw [(h c hc).blank, Bool.not_false]
  rw [normalise, hvisible, lowerCase, lowerFrom_eq_self h]

end Formula.Text
