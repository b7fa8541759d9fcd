/-!
# Formula.Proofs.Spans

The longest part at the beginning of a list of which every element has a
property, where it is known how the list is made up, and the element with
which a list begins.
-/

namespace Formula

variable {α : Type} {p : α → Bool} {s t : List α}

/-- The part ends where the property fails. -/
theorem takeWhile_append_of_stop (hs : ∀ x ∈ s, p x = true)
    (ht : ∀ x ∈ t.head?, p x = false) : (s ++ t).takeWhile p = s := by
  have hstop : t.takeWhile p = [] := by
    cases t with
    | nil => rfl
    | cons x t => exact List.takeWhile_cons_of_neg (by simp [ht x rfl])
  rw [List.takeWhile_append_of_pos hs, hstop, List.append_nil]

/-- What follows the part is the rest. -/
theorem dropWhile_append_of_stop (hs : ∀ x ∈ s, p x = true)
    (ht : ∀ x ∈ t.head?, p x = false) : (s ++ t).dropWhile p = t := by
  have hstop : t.dropWhile p = t := by
    cases t with
    | nil => rfl
    | cons x t => exact List.dropWhile_cons_of_neg (by simp [ht x rfl])
  rw [List.dropWhile_append_of_pos hs, hstop]

/-- What follows the part begins where the property fails, whatever the list. -/
theorem eq_false_of_mem_head?_dropWhile {x : α} (h : x ∈ (s.dropWhile p).head?) :
    p x = false := by
  have hstop := List.head?_dropWhile_not p s
  rwa [Option.mem_def.1 h] at hstop

/-- Every list is made up of the part and what follows it. -/
theorem exists_append_of_stop (p : α → Bool) (l : List α) :
    ∃ s t, l = s ++ t ∧ (∀ x ∈ s, p x = true) ∧ ∀ x ∈ t.head?, p x = false := by
  refine ⟨l.takeWhile p, l.dropWhile p, List.takeWhile_append_dropWhile.symm, ?_, ?_⟩
  · exact List.all_eq_true.1 List.all_takeWhile
  · exact fun x hx => eq_false_of_mem_head?_dropWhile hx

/-- A list is made up of such a part and the rest in one way. -/
theorem append_inj_of_stop {s' t' : List α} (hs : ∀ x ∈ s, p x = true)
    (ht : ∀ x ∈ t.head?, p x = false) (hs' : ∀ x ∈ s', p x = true)
    (ht' : ∀ x ∈ t'.head?, p x = false) (h : s ++ t = s' ++ t') : s = s' ∧ t = t' := by
  have hs'' := takeWhile_append_of_stop hs ht
  rw [h, takeWhile_append_of_stop hs' ht'] at hs''
  subst hs''
  exact ⟨rfl, List.append_cancel_left h⟩

/-- No longer part at the beginning has the property throughout. -/
theorem isPrefix_of_stop {u : List α} (hu : ∀ x ∈ u, p x = true) (hs : ∀ x ∈ s, p x = true)
    (ht : ∀ x ∈ t.head?, p x = false) (h : u <+: s ++ t) : u <+: s := by
  obtain ⟨after, hafter⟩ := h
  have htake : (u ++ after).takeWhile p = u ++ after.takeWhile p :=
    List.takeWhile_append_of_pos hu
  rw [hafter, takeWhile_append_of_stop hs ht] at htake
  exact ⟨_, htake.symm⟩

/-- What holds of the first element of a list holds where the list goes on. -/
theorem forall_mem_head?_append {P : α → Prop} {x : α} (hs : ∀ y ∈ s.head?, P y) (hx : P x) :
    ∀ y ∈ (s ++ x :: t).head?, P y := by
  cases s with
  | nil => simpa using hx
  | cons y s => simpa using hs

end Formula
