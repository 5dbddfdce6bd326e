/-!
# Repetitions

The first element of a list that repeats another one. It tells a column list that names a column
twice, and a primary key that would be stored twice.

* `firstRepeat?` — the first element that equals an earlier one, or one seen before the list.
* `firstRepeat?_eq_none_iff` — there is none exactly if all elements are pairwise different.
* `firstRepeat?_eq_some` — the elements before it are pairwise different, and it is one of those or
  was seen before.
-/

namespace TableStore

/-- The first element of a list that was seen before, or equals an earlier element. -/
def firstRepeat? {α : Type} [DecidableEq α] (seen : List α) : List α → Option α
  | [] => none
  | x :: rest => if x ∈ seen then some x else firstRepeat? (x :: seen) rest

theorem firstRepeat?_eq_none_iff {α : Type} [DecidableEq α] {seen xs : List α} :
    firstRepeat? seen xs = none ↔ xs.Nodup ∧ ∀ x ∈ xs, x ∉ seen := by
  induction xs generalizing seen with
  | nil => simp [firstRepeat?]
  | cons x rest ih =>
    by_cases hx : x ∈ seen
    · simp [firstRepeat?, hx]
    · simp only [firstRepeat?, hx, ↓reduceIte, ih, List.nodup_cons, List.mem_cons]
      constructor
      · rintro ⟨hnd, hseen⟩
        exact ⟨⟨fun hmem => hseen x hmem (.inl rfl), hnd⟩, by
          rintro y (rfl | hy)
          · exact hx
          · exact fun h => hseen y hy (.inr h)⟩
      · rintro ⟨⟨hnot, hnd⟩, hseen⟩
        exact ⟨hnd, fun y hy => by
          rintro (rfl | h)
          · exact hnot hy
          · exact hseen y (.inr hy) h⟩

/-- The first repetition stands behind elements that repeat nothing. -/
theorem firstRepeat?_eq_some {α : Type} [DecidableEq α] {seen xs : List α} {x : α}
    (h : firstRepeat? seen xs = some x) :
    ∃ before later, xs = before ++ x :: later ∧ before.Nodup ∧ (∀ y ∈ before, y ∉ seen) ∧
      (x ∈ seen ∨ x ∈ before) := by
  induction xs generalizing seen with
  | nil => cases h
  | cons y rest ih =>
    rw [firstRepeat?] at h
    split at h
    · rename_i hy
      cases h
      exact ⟨[], rest, rfl, .nil, nofun, .inl hy⟩
    · -- the first element repeats nothing, and from here on it counts as seen
      rename_i hy
      obtain ⟨before, later, rfl, hnodup, hout, hx⟩ := ih h
      refine ⟨y :: before, later, rfl, ?_, ?_, ?_⟩
      · exact List.nodup_cons.mpr ⟨fun hmem => hout y hmem List.mem_cons_self, hnodup⟩
      · intro z hz hseen
        rcases List.mem_cons.mp hz with rfl | hz
        · exact hy hseen
        · exact hout z hz (List.mem_cons_of_mem y hseen)
      · rcases hx with hx | hx
        · rcases List.mem_cons.mp hx with rfl | hx
          · exact .inr List.mem_cons_self
          · exact .inl hx
        · exact .inr (List.mem_cons_of_mem y hx)

end TableStore
