import Mathlib.Data.List.Basic
import Mathlib.Data.List.Forall2
import Mathlib.Data.List.TakeWhile

/-!
# Going through a list with a step that may fail

The operations check and read lists with `List.mapM`. A passage through a list succeeds exactly if
the step succeeds on every element, and it fails with the cause of some element.

* `mapM_ok_iff`, `mapM_some_iff` — success, element by element.
* `exists_of_mem_mapM`, `exists_mem_of_mapM` — elements and results belong together.
* `mapM_range_ok`, `mapM_range_some`, `map_range_getElem?` — a passage through the positions of a
  list.
* `bind_ok_iff` — two steps succeed in a row.
* `takeWhile_dropWhile_iff` — where a run of elements of a kind ends.
-/

namespace TableStore

variable {α β ε : Type}

/-- Two steps in a row succeed if both do. -/
theorem bind_ok_iff {x : Except ε α} {f : α → Except ε β} {b : β} :
    (x >>= f) = .ok b ↔ ∃ a, x = .ok a ∧ f a = .ok b := by
  cases x <;> simp [bind, Except.bind]

/-- A passage succeeds if every step does. -/
theorem mapM_ok_iff {f : α → Except ε β} {xs : List α} {ys : List β} :
    xs.mapM f = .ok ys ↔ List.Forall₂ (fun x y => f x = .ok y) xs ys := by
  induction xs generalizing ys with
  | nil => cases ys <;> simp [pure, Except.pure]
  | cons x xs ih =>
    rw [List.mapM_cons, bind_ok_iff, List.forall₂_cons_left_iff]
    constructor
    · rintro ⟨y, hy, hrest⟩
      obtain ⟨ys', hys', hpure⟩ := bind_ok_iff.mp hrest
      cases hpure
      exact ⟨y, ys', hy, ih.mp hys', rfl⟩
    · rintro ⟨y, ys', hy, hys', rfl⟩
      exact ⟨y, hy, bind_ok_iff.mpr ⟨ys', ih.mpr hys', rfl⟩⟩

theorem exists_of_mem_forall₂ {r : α → β → Prop} {xs : List α} {ys : List β}
    (h : List.Forall₂ r xs ys) {y : β} (hy : y ∈ ys) : ∃ x ∈ xs, r x y := by
  induction h with
  | nil => cases hy
  | @cons x y' xs ys' hstep _ ih =>
    rcases List.mem_cons.mp hy with rfl | hmem
    · exact ⟨x, List.mem_cons_self, hstep⟩
    · obtain ⟨z, hz, hr⟩ := ih hmem
      exact ⟨z, List.mem_cons_of_mem x hz, hr⟩

/-- Elements that all belong to something belong to a list of it. -/
theorem exists_forall₂ {r : α → β → Prop} {xs : List α} (h : ∀ x ∈ xs, ∃ y, r x y) :
    ∃ ys, List.Forall₂ r xs ys := by
  induction xs with
  | nil => exact ⟨[], .nil⟩
  | cons x xs ih =>
    obtain ⟨⟨y, hy⟩, hrest⟩ := List.forall_mem_cons.mp h
    obtain ⟨ys, hys⟩ := ih hrest
    exact ⟨y :: ys, .cons hy hys⟩

/-- What a list with a marked place belongs to has this place marked as well. -/
theorem exists_of_forall₂_append_cons {r : α → β → Prop} {xs : List α} {before after : List β}
    {y : β} (h : List.Forall₂ r xs (before ++ y :: after)) :
    ∃ before' x after', xs = before' ++ x :: after' ∧ List.Forall₂ r before' before ∧ r x y ∧
      List.Forall₂ r after' after := by
  induction before generalizing xs with
  | nil =>
    obtain ⟨x, after', hx, hafter, rfl⟩ := List.forall₂_cons_right_iff.mp h
    exact ⟨[], x, after', rfl, .nil, hx, hafter⟩
  | cons z before ih =>
    obtain ⟨w, rest, hw, hrest, rfl⟩ := List.forall₂_cons_right_iff.mp h
    obtain ⟨before', x, after', rfl, hbefore, hx, hafter⟩ := ih hrest
    exact ⟨w :: before', x, after', rfl, .cons hw hbefore, hx, hafter⟩

/-- Every result of a passage comes from an element. -/
theorem exists_of_mem_mapM {f : α → Except ε β} {xs : List α} {ys : List β}
    (h : xs.mapM f = .ok ys) {y : β} (hy : y ∈ ys) : ∃ x ∈ xs, f x = .ok y :=
  exists_of_mem_forall₂ (mapM_ok_iff.mp h) hy

/-- Every element of a passage has a result. -/
theorem exists_mem_of_mapM {f : α → Except ε β} {xs : List α} {ys : List β}
    (h : xs.mapM f = .ok ys) {x : α} (hx : x ∈ xs) : ∃ y ∈ ys, f x = .ok y :=
  exists_of_mem_forall₂ (mapM_ok_iff.mp h).flip hx

/-- A passage yields what a function computes if every step does. -/
theorem mapM_ok_of_forall {f : α → Except ε β} {g : α → β} {xs : List α}
    (h : ∀ x ∈ xs, f x = .ok (g x)) : xs.mapM f = .ok (xs.map g) := by
  rw [mapM_ok_iff, List.forall₂_map_right_iff, List.forall₂_same]
  exact h

/-- A passage yields what an optional function computes if every step does. -/
theorem mapM_ok_filterMap {f : α → Except ε β} {g : α → Option β} {xs : List α}
    (h : ∀ x ∈ xs, ∃ y, f x = .ok y ∧ g x = some y) : xs.mapM f = .ok (xs.filterMap g) := by
  induction xs with
  | nil => rfl
  | cons x xs ih =>
    obtain ⟨y, hf, hg⟩ := h x List.mem_cons_self
    have hrest := ih fun z hz => h z (List.mem_cons_of_mem x hz)
    simp [hf, hg, hrest, bind, Except.bind, pure, Except.pure]

/-- A passage with an optional result has one if every step has. -/
theorem mapM_some_iff {f : α → Option β} {xs : List α} {ys : List β} :
    xs.mapM f = some ys ↔ List.Forall₂ (fun x y => f x = some y) xs ys := by
  induction xs generalizing ys with
  | nil => cases ys <;> simp
  | cons x xs ih =>
    rw [List.mapM_cons, List.forall₂_cons_left_iff]
    simp only [Option.pure_def, Option.bind_eq_bind, Option.bind_eq_some_iff, ih,
      Option.some.injEq]
    constructor
    · rintro ⟨y, hy, ys', hys', rfl⟩
      exact ⟨y, ys', hy, hys', rfl⟩
    · rintro ⟨y, ys', hy, hys', rfl⟩
      exact ⟨y, hy, ys', hys', rfl⟩

/-- A passage through the positions of a list reads the list if each step reads its position. -/
theorem mapM_range_ok {f : Nat → Except ε β} {ys : List β}
    (h : ∀ (i : Nat) (hi : i < ys.length), f i = .ok ys[i]) :
    (List.range ys.length).mapM f = .ok ys := by
  rw [mapM_ok_iff, List.forall₂_iff_get]
  refine ⟨List.length_range, fun i _ hi => ?_⟩
  simpa using h i hi

/-- A passage through the positions of a list reads the list if each step reads its position. -/
theorem mapM_range_some {f : Nat → Option β} {ys : List β}
    (h : ∀ (i : Nat) (hi : i < ys.length), f i = some ys[i]) :
    (List.range ys.length).mapM f = some ys := by
  rw [mapM_some_iff, List.forall₂_iff_get]
  refine ⟨List.length_range, fun i _ hi => ?_⟩
  simpa using h i hi

theorem map_range_getElem? (xs : List α) :
    (List.range xs.length).map (xs[·]?) = xs.map some := by
  refine List.ext_getElem (by simp) fun i hi _ => ?_
  rw [List.length_map, List.length_range] at hi
  simp [hi]

/-- Where a run of elements of a kind ends. -/
theorem takeWhile_dropWhile_iff {p : α → Bool} {xs run after : List α} :
    xs.takeWhile p = run ∧ xs.dropWhile p = after ↔
      xs = run ++ after ∧ (∀ x ∈ run, p x = true) ∧ ∀ x ∈ after.head?, p x = false := by
  constructor
  · rintro ⟨rfl, rfl⟩
    refine ⟨List.takeWhile_append_dropWhile.symm, fun x hx => ?_, fun x hx => ?_⟩
    · exact List.mem_takeWhile_imp hx
    · have hhead := List.head?_dropWhile_not p xs
      rw [Option.mem_def] at hx
      rw [hx] at hhead
      simpa using hhead
  · rintro ⟨rfl, hrun, hafter⟩
    have hcut : after.takeWhile p = [] ∧ after.dropWhile p = after := by
      cases after with
      | nil => exact ⟨rfl, rfl⟩
      | cons x rest =>
        have hx : p x = false := hafter x rfl
        simp [hx]
    rw [List.takeWhile_append_of_pos hrun, List.dropWhile_append_of_pos hrun, hcut.1, hcut.2,
      List.append_nil]
    exact ⟨rfl, rfl⟩

/-- A run of elements of a kind does not go beyond one of another kind. -/
theorem takeWhile_dropWhile_append {p : α → Bool} {x : α} (h : p x = false) (xs after : List α) :
    (xs ++ x :: after).takeWhile p = xs.takeWhile p ∧
      (xs ++ x :: after).dropWhile p = xs.dropWhile p ++ x :: after := by
  induction xs with
  | nil => simp [h]
  | cons y xs ih => cases hy : p y <;> simp [hy, ih]

/-- A passage with a state goes on from the state in which its first step leaves it. -/
theorem run_forM_cons {σ : Type} {f : α → EStateM ε σ Unit} {x : α} {xs : List α} {s s' : σ}
    (h : (f x).run s = .ok () s') :
    ((x :: xs).forM f : EStateM ε σ Unit).run s = (xs.forM f : EStateM ε σ Unit).run s' := by
  -- a loop is its first step bound to the rest of it
  show EStateM.bind (f x) (fun _ => xs.forM f) s = xs.forM f s'
  unfold EStateM.bind
  rw [show f x s = .ok () s' from h]

end TableStore
