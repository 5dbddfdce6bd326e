import Mathlib.Data.List.Nodup
import Mathlib.Data.List.Perm.Basic

/-!
# Entries under keys

A look-up finds the first entry of a key. In the list read from the end this is the last one; and if the
keys differ, then it is the only one, wherever it stands.

* `lookup_eq_none_iff_not_mem` — a look-up finds nothing exactly if the key has no entry.
* `lookup_reverse_eq_some_iff` — what is found from the end is the last entry of the key.
* `lookup_eq_some_iff_mem` — under different keys, a look-up finds just the entries.
* `lookup_eq_of_perm` — it does not depend on the order of the entries.
* `map_lookup`, `filterMap_lookup` — looking up all keys in order gives all entries.
-/

namespace TableStore

variable {α β : Type}

theorem forall_bne_iff [BEq α] [LawfulBEq α] {entries : List (α × β)} {key : α} :
    (∀ entry ∈ entries, (key != entry.1) = true) ↔ key ∉ entries.map Prod.fst := by
  simp only [bne_iff_ne, List.mem_map, not_exists, not_and]
  exact forall₂_congr fun _ _ => ne_comm

/-- A look-up finds nothing exactly if the key has no entry. -/
theorem lookup_eq_none_iff_not_mem [BEq α] [LawfulBEq α] {entries : List (α × β)} {key : α} :
    entries.lookup key = none ↔ key ∉ entries.map Prod.fst := by
  rw [List.lookup_eq_none_iff, forall_bne_iff]

/-- A look-up from the end finds the last entry of the key. -/
theorem lookup_reverse_eq_some_iff [BEq α] [LawfulBEq α] {entries : List (α × β)} {key : α}
    {value : β} :
    entries.reverse.lookup key = some value ↔
      ∃ before after, entries = before ++ (key, value) :: after ∧ key ∉ after.map Prod.fst := by
  -- what stands before the found entry in the reversed list stands after it in the list
  rw [List.lookup_eq_some_iff]
  constructor
  · rintro ⟨after, before, hreverse, hafter⟩
    refine ⟨before.reverse, after.reverse, ?_, ?_⟩
    · rw [← entries.reverse_reverse, hreverse]
      simp
    · rw [List.map_reverse, List.mem_reverse]
      exact forall_bne_iff.mp hafter
  · rintro ⟨before, after, rfl, hafter⟩
    refine ⟨after.reverse, before.reverse, by simp, fun entry hentry => ?_⟩
    exact forall_bne_iff.mpr hafter entry (List.mem_reverse.mp hentry)

/-! ## Different keys -/

/-- A look-up under different keys finds just the entries. -/
theorem lookup_eq_some_iff_mem [BEq α] [LawfulBEq α] {entries : List (α × β)}
    (hnodup : (entries.map Prod.fst).Nodup) {key : α} {value : β} :
    entries.lookup key = some value ↔ (key, value) ∈ entries := by
  induction entries with
  | nil => simp
  | cons entry rest ih =>
    obtain ⟨other, old⟩ := entry
    obtain ⟨hnew, hrest⟩ := List.nodup_cons.mp hnodup
    rw [List.lookup_cons]
    by_cases hkey : key = other
    · subst hkey
      -- no later entry has the key
      have hout : (key, value) ∉ rest := fun hmem =>
        hnew (List.mem_map.mpr ⟨(key, value), hmem, rfl⟩)
      simp [hout, eq_comm]
    · have hne : (key == other) = false := by simpa using hkey
      rw [hne, ih hrest]
      simp [hkey]

/-- A look-up under different keys does not depend on the order of the entries. -/
theorem lookup_eq_of_perm [BEq α] [LawfulBEq α] {xs ys : List (α × β)} (h : xs.Perm ys)
    (hnodup : (xs.map Prod.fst).Nodup) (key : α) : xs.lookup key = ys.lookup key := by
  have hnodup' : (ys.map Prod.fst).Nodup := (h.map Prod.fst).nodup_iff.mp hnodup
  refine Option.ext fun value => ?_
  rw [lookup_eq_some_iff_mem hnodup, lookup_eq_some_iff_mem hnodup', h.mem_iff]

/-- Looking up all keys one after the other gives the entries. -/
theorem map_lookup [BEq α] [LawfulBEq α] {entries : List (α × β)}
    (hnodup : (entries.map Prod.fst).Nodup) :
    (entries.map Prod.fst).map (fun key => (entries.lookup key).map (key, ·)) =
      entries.map some := by
  rw [List.map_map]
  refine List.map_congr_left fun entry hentry => ?_
  rw [Function.comp_apply, (lookup_eq_some_iff_mem hnodup).mpr hentry, Option.map_some]

theorem filterMap_lookup [BEq α] [LawfulBEq α] {entries : List (α × β)}
    (hnodup : (entries.map Prod.fst).Nodup) :
    (entries.map Prod.fst).filterMap (fun key => (entries.lookup key).map (key, ·)) = entries := by
  have hall := congrArg (List.filterMap id) (map_lookup hnodup)
  simpa [List.filterMap_map, Function.comp_def] using hall

end TableStore
