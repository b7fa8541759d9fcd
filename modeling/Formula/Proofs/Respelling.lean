import Formula.Compiled
import Formula.Proofs.Outcome
import Formula.Proofs.Settled

/-!
# Formula.Proofs.Respelling

Spacing and letter case of a text.

A capital sigma looks past its neighbours for the end of its word, so lower-casing
is no function of single characters.  What it looks for does not tell a letter of
ASCII from the other letter of its pair.

* `Respelled` — texts that differ in blanks and in the case of letters of ASCII;
* `apply_toLower` — whatever cannot tell the letters of ASCII from their capitals
  cannot tell a character from its lower case;
* `lowerFrom_map_toLower` — lower-casing cannot, wherever a text stands;
* `Respelled.normalise_eq` — respelled texts have one normal form;
* `compile_respelled` — so they are read and compiled alike, and so is the normal
  form itself.
-/

namespace Formula.Text

/-! ## Respelled texts -/

/-- Whether two characters are the same, or one letter of ASCII in either case. -/
def SameLetter (c d : Char) : Prop := d = c ∨ d = c.toLower ∨ d = c.toUpper

/-- `Respelled s t`: the text `t` is the text `s` with blanks inserted and deleted
anywhere, and with the case of any letters of ASCII changed. -/
inductive Respelled : List Char → List Char → Prop
  | nil : Respelled [] []
  | insert {c : Char} {s t : List Char} (hc : isBlank c = true) :
    Respelled s t → Respelled s (c :: t)
  | delete {c : Char} {s t : List Char} (hc : isBlank c = true) :
    Respelled s t → Respelled (c :: s) t
  | letter {c d : Char} {s t : List Char} (hcd : SameLetter c d) :
    Respelled s t → Respelled (c :: s) (d :: t)

/-! ## What lower-casing looks at -/

/-- What holds in ASCII, and of the characters outside it, holds of all. -/
theorem forall_of_ascii {P : Char → Prop} (hascii : ∀ n : Fin 128, P (Char.ofNat n))
    (hother : ∀ c : Char, 128 ≤ c.toNat → P c) (c : Char) : P c := by
  by_cases hc : c.toNat < 128
  · simpa using hascii ⟨c.toNat, hc⟩
  · exact hother c (by omega)

/-- Whatever cannot tell the letters of ASCII from their capitals cannot tell a
character from its lower case. -/
theorem apply_toLower {α : Type} {f : Char → α}
    (h : ∀ n : Fin 128, f (Char.ofNat n).toLower = f (Char.ofNat n)) (c : Char) :
    f c.toLower = f c :=
  forall_of_ascii (P := fun c => f c.toLower = f c) h
    (fun c hc => by rw [toLower_eq_self hc]) c

theorem isBlank_toLower (c : Char) : isBlank c.toLower = isBlank c :=
  apply_toLower (by decide +kernel) c

/-- A character is its own lower case, or a letter of ASCII as its lower case is. -/
theorem toLower_eq_self_or_isAlpha (c : Char) :
    c.toLower = c ∨ c.isAlpha = true ∧ c.toLower.isAlpha = true :=
  forall_of_ascii (P := fun c => c.toLower = c ∨ c.isAlpha = true ∧ c.toLower.isAlpha = true)
    (by decide +kernel) (fun _ hc => .inl (toLower_eq_self hc)) c

theorem isCased_toLower (c : Char) : isCased c.toLower = isCased c := by
  obtain h | ⟨h, hlower⟩ := toLower_eq_self_or_isAlpha c
  · rw [h]
  · rw [isCased_of_isAlpha h, isCased_of_isAlpha hlower]

theorem isCaseIgnorable_toLower (c : Char) : isCaseIgnorable c.toLower = isCaseIgnorable c := by
  obtain h | ⟨h, hlower⟩ := toLower_eq_self_or_isAlpha c
  · rw [h]
  · rw [isCaseIgnorable_of_isAlpha h, isCaseIgnorable_of_isAlpha hlower]

theorem toLower_toLower (c : Char) : c.toLower.toLower = c.toLower :=
  apply_toLower (by decide +kernel) c

theorem simpleLower_toLower (c : Char) : simpleLower c.toLower = simpleLower c := by
  refine apply_toLower (fun n => ?_) c
  have hascii : (Char.ofNat n).toNat < 128 ∧ (Char.ofNat n).toLower.toNat < 128 := by
    revert n
    decide +kernel
  rw [simpleLower_of_ascii hascii.1, simpleLower_of_ascii hascii.2, toLower_toLower]

theorem SameLetter.toLower_eq {c d : Char} (h : SameLetter c d) : d.toLower = c.toLower := by
  obtain rfl | rfl | rfl := h
  · rfl
  · exact toLower_toLower c
  · exact forall_of_ascii (P := fun c => c.toUpper.toLower = c.toLower) (by decide +kernel)
      (fun c hc => by rw [toUpper_eq_self hc]) c

/-- The end of a word is where it is in any case. -/
theorem meetsCased_map_toLower (cs : List Char) :
    meetsCased (cs.map Char.toLower) = meetsCased cs := by
  simp only [meetsCased, List.find?_map, Option.any_map, Function.comp_def,
    isCaseIgnorable_toLower, isCased_toLower]

/-- The lower case of a character among its neighbours is that of its lower case
among theirs. -/
theorem lowerChar_toLower (before : List Char) (c : Char) (after : List Char) :
    lowerChar (before.map Char.toLower) c.toLower (after.map Char.toLower) =
      lowerChar before c after := by
  have hsigma : decide (c.toLower = 'Σ') = decide (c = 'Σ') :=
    apply_toLower (f := fun c => decide (c = 'Σ')) (by decide +kernel) c
  have hdot : decide (c.toLower = 'İ') = decide (c = 'İ') :=
    apply_toLower (f := fun c => decide (c = 'İ')) (by decide +kernel) c
  rw [decide_eq_decide] at hsigma hdot
  simp only [lowerChar, meetsCased_map_toLower, simpleLower_toLower, hsigma, hdot]

/-- So is the lower case of a text, wherever it stands. -/
theorem lowerFrom_map_toLower (before cs : List Char) :
    lowerFrom (before.map Char.toLower) (cs.map Char.toLower) = lowerFrom before cs := by
  induction cs generalizing before with
  | nil => rfl
  | cons c cs ih =>
    rw [List.map_cons, lowerFrom, lowerFrom, lowerChar_toLower, ← ih (c :: before), List.map_cons]

/-! ## Normal forms -/

/-- What is left of a respelled text without its blanks, up to the case of letters. -/
theorem Respelled.map_toLower_eq {s t : List Char} (h : Respelled s t) :
    (t.filter (! isBlank ·)).map Char.toLower = (s.filter (! isBlank ·)).map Char.toLower := by
  induction h with
  | nil => rfl
  | insert hc _ ih | delete hc _ ih => simpa [hc] using ih
  | @letter c d s t hcd _ ih =>
    have hblank : isBlank d = isBlank c := by
      rw [← isBlank_toLower d, hcd.toLower_eq, isBlank_toLower]
    by_cases hc : isBlank c = true
    · simpa [hblank, hc] using ih
    · simpa [hblank, hc, hcd.toLower_eq] using ih

/-- Respelled texts have one normal form. -/
theorem Respelled.normalise_eq {s t : List Char} (h : Respelled s t) :
    normalise t = normalise s := by
  calc
    normalise t = lowerFrom [] ((t.filter (! isBlank ·)).map Char.toLower) :=
      (lowerFrom_map_toLower [] _).symm
    _ = lowerFrom [] ((s.filter (! isBlank ·)).map Char.toLower) := by rw [h.map_toLower_eq]
    _ = normalise s := lowerFrom_map_toLower [] _

/-- The normal form of a text is its own normal form. -/
theorem normalise_normalise (cs : List Char) : normalise (normalise cs) = normalise cs :=
  normalise_eq_self fun _ => settled_of_mem_normalise

/-- The normal form as a text. -/
def normalText (text : String) : String := String.ofList (normalise text.toList)

theorem normalise_normalText (text : String) :
    normalise (normalText text).toList = normalise text.toList := by
  rw [normalText, String.toList_ofList, normalise_normalise]

end Formula.Text

namespace Formula

open Text

/-! ## Reading and compiling -/

/-- Texts of one normal form are read and compiled alike. -/
theorem compile_congr {s t : String} (h : normalise t.toList = normalise s.toList)
    (mode : VarMode) : tokenize mode t = tokenize mode s ∧ compile mode t = compile mode s := by
  have htokens : tokenize mode t = tokenize mode s := by rw [tokenize, tokenize, h]
  refine ⟨htokens, ?_⟩
  rw [compile_eq, compile_eq, htokens]

/-- **Spacing and letter case never matter.**  A text in which blanks are inserted and
deleted anywhere, and the case of any letters of ASCII is changed, is read and compiled
as the text is: to the same tokens, or to the same error with its place and what it
quotes.  The normal form of a text is its own normal form, and it is read and compiled
as the text is. -/
theorem compile_respelled :
    (∀ s t : String, Respelled s.toList t.toList → ∀ mode : VarMode,
      tokenize mode t = tokenize mode s ∧ compile mode t = compile mode s) ∧
    ∀ text : String, normalText (normalText text) = normalText text ∧ ∀ mode : VarMode,
      tokenize mode (normalText text) = tokenize mode text ∧
        compile mode (normalText text) = compile mode text := by
  refine ⟨fun s t h => compile_congr h.normalise_eq, fun text => ⟨?_, ?_⟩⟩
  · rw [normalText, normalise_normalText, normalText]
  · exact compile_congr (normalise_normalText text)

/-- A capital sigma ends the word before it across a blank, whatever the case of the
letters there, and the error quotes its final form. -/
theorem compile_respelled_sigma :
    Respelled "PIΣ".toList "p I Σ".toList ∧
      tokenize .constant "p I Σ" = tokenize .constant "PIΣ" ∧
      tokenize .constant "PIΣ" = .error (.illegalCharacter 'ς' 2) := by
  have hfirst : "PIΣ".toList = ['P', 'I', 'Σ'] := by decide +kernel
  have hsecond : "p I Σ".toList = ['p', ' ', 'I', ' ', 'Σ'] := by decide +kernel
  have h : Respelled "PIΣ".toList "p I Σ".toList := by
    rw [hfirst, hsecond]
    exact .letter (.inr (.inl rfl)) (.insert (by decide) (.letter (.inl rfl)
      (.insert (by decide) (.letter (.inl rfl) .nil))))
  exact ⟨h, (compile_respelled.1 _ _ h .constant).1, error?_eq_some.1 (by decide +kernel)⟩

end Formula
