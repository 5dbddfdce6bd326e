import TableStore.Proofs.Traversal
import TableStore.Text.Blank

/-!
# Texts between blanks

A text without the blanks at its ends is what stands between two runs of blanks and neither starts
nor ends with one.

* `Text.Trims` — the relation between a text and what is left of it.
* `Text.trim_eq_iff` — trimming finds what is left.
-/

namespace TableStore.Text

variable {cs ts : List Char}

/-- Without the blanks in front, the characters `cs` are `ts`. -/
theorem dropWhile_isBlank_eq_iff :
    cs.dropWhile isBlank = ts ↔ ∃ front, cs = front ++ ts ∧ (∀ c ∈ front, isBlank c = true) ∧
      ∀ c ∈ ts.head?, isBlank c = false := by
  constructor
  · intro h
    exact ⟨cs.takeWhile isBlank, takeWhile_dropWhile_iff.mp ⟨rfl, h⟩⟩
  · rintro ⟨front, hcut⟩
    exact (takeWhile_dropWhile_iff.mpr hcut).2

/-- Without the blanks at the two ends, the characters `cs` are `ts`. -/
theorem trimBlanks_eq_iff :
    trimBlanks cs = ts ↔ ∃ front back, cs = front ++ ts ++ back ∧
      (∀ c ∈ front, isBlank c = true) ∧ (∀ c ∈ back, isBlank c = true) ∧
      (∀ c ∈ ts.head?, isBlank c = false) ∧ ∀ c ∈ ts.getLast?, isBlank c = false := by
  unfold trimBlanks
  constructor
  · intro h
    obtain ⟨front, hcs, hfront, hhead⟩ := dropWhile_isBlank_eq_iff.mp
      (rfl : cs.dropWhile isBlank = cs.dropWhile isBlank)
    obtain ⟨back, hreverse, hback, hlast⟩ :=
      dropWhile_isBlank_eq_iff.mp (List.reverse_eq_iff.mp h)
    have hrest : cs.dropWhile isBlank = ts ++ back.reverse := by
      simpa using congrArg List.reverse hreverse
    refine ⟨front, back.reverse, ?_, hfront, by simpa using hback, ?_, by simpa using hlast⟩
    · rw [List.append_assoc, ← hrest, ← hcs]
    · -- what is left starts as the characters behind the blanks in front do
      intro c hc
      refine hhead c ?_
      rw [hrest]
      exact List.mem_head?_append_of_mem_head? hc
  · rintro ⟨front, back, rfl, hfront, hback, hhead, hlast⟩
    cases ts with
    | nil =>
      have hnone : (front ++ [] ++ back).dropWhile isBlank = [] := by
        rw [List.dropWhile_eq_nil_iff]
        simpa [or_imp, forall_and] using ⟨hfront, hback⟩
      rw [hnone]
      rfl
    | cons t ts =>
      have hrest : (front ++ t :: ts ++ back).dropWhile isBlank = t :: ts ++ back :=
        dropWhile_isBlank_eq_iff.mpr ⟨front, List.append_assoc .., hfront, hhead⟩
      have hreverse : (t :: ts ++ back).reverse.dropWhile isBlank = (t :: ts).reverse :=
        dropWhile_isBlank_eq_iff.mpr
          ⟨back.reverse, List.reverse_append, by simpa using hback,
            fun c hc => hlast c (by rwa [List.head?_reverse] at hc)⟩
      rw [hrest, hreverse, List.reverse_reverse]

/-- Without the blanks at its two ends, `text` is `trimmed`. -/
def Trims (text trimmed : String) : Prop :=
  ∃ front back : List Char, text.toList = front ++ trimmed.toList ++ back ∧
    (∀ c ∈ front, isBlank c = true) ∧ (∀ c ∈ back, isBlank c = true) ∧
    (∀ c ∈ trimmed.toList.head?, isBlank c = false) ∧
    ∀ c ∈ trimmed.toList.getLast?, isBlank c = false

/-- Trimming finds what is left of a text without the blanks at its ends. -/
theorem trim_eq_iff {text trimmed : String} : trim text = trimmed ↔ Trims text trimmed := by
  unfold trim Trims
  rw [← trimBlanks_eq_iff]
  constructor
  · rintro rfl
    rw [String.toList_ofList]
  · intro h
    rw [h, String.ofList_toList]

end TableStore.Text
