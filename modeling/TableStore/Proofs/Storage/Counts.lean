import TableStore.Proofs.Storage.Refinement

/-!
# How many rows there are

A table counts its rows apart from its columns. The counter goes up by what an insertion reports and
down by what a deletion reports, never below zero, and it is the number of rows that a selection of
all of them yields.

* `Table.Call.entering`, `Table.Call.leaving` — the rows that come in and go out by an operation, as
  its answer tells.
* `Table.Represents.rowCount_perform` — the counter before and after an operation.
* `Table.answer_of_perform` — which operations answer with rows, and which with a number.
* `Table.length_rows_le` — a condition holds of no more rows than the counter says.
* `Table.Represents.select_everything` — a selection of all rows.
-/

namespace TableStore

/-- The number of rows that come in by an operation. -/
def Table.Call.entering : Table.Call → Answer → Nat
  | .insert .., .count rows => rows
  | _, _ => 0

/-- The number of rows that go out by an operation. -/
def Table.Call.leaving : Table.Call → Answer → Nat
  | .delete _, .count rows => rows
  | _, _ => 0

/-! ## Lists of rows -/

namespace RowTable

variable {table after : RowTable} {answer : Answer}

theorem commit_eq_ok {rows : List (List Value)} {count : Nat}
    (h : table.commit rows count = (.ok answer, after)) : answer = .count count ∧ after.rows = rows := by
  unfold commit refuse at h
  split at h
  · cases h
    exact ⟨rfl, rfl⟩
  · cases h

/-- The rows that go out of a list and those that come in make up the difference. -/
theorem length_perform {call : Table.Call} (h : table.perform call = (.ok answer, after)) :
    after.rows.length + call.leaving answer = table.rows.length + call.entering answer := by
  have hrefused : table.refuse .schema ≠ (.ok answer, after) := nofun
  cases call with
  | insert columns tuples =>
    simp only [perform, insert] at h
    split at h
    · exact absurd h hrefused
    split at h
    · -- one row for each tuple, behind the others
      obtain ⟨rfl, hrows⟩ := commit_eq_ok h
      rw [hrows, List.length_append, List.length_map]
      rfl
    · exact absurd h hrefused
  | select projection condition =>
    simp only [perform, select] at h
    split at h
    · cases h
      rfl
    · exact absurd h hrefused
  | update assignments condition =>
    simp only [perform, update] at h
    split at h
    · obtain ⟨rfl, hrows⟩ := commit_eq_ok h
      rw [hrows, List.length_map]
      rfl
    · exact absurd h hrefused
  | delete condition =>
    simp only [perform, delete] at h
    split at h
    · -- each row is either taken out or kept
      cases h
      have hboth := List.length_eq_countP_add_countP (l := table.rows)
        fun row => condition.holds table.schema row
      rw [← List.countP_eq_length_filter]
      simp only [Table.Call.leaving, Table.Call.entering]
      simp only [Bool.not_eq_true, Bool.decide_eq_false] at hboth
      omega
    · exact absurd h hrefused

end RowTable

/-! ## Stored tables -/

/-- A selection answers with rows, and any other operation with their number. -/
theorem Table.answer_of_perform {table after : Table} {call : Call} {answer : Answer}
    (h : table.perform call = .ok answer after) :
    match call with
    | .select .. => ∃ rows, answer = .rows rows
    | _ => ∃ rows, answer = .count rows := by
  have hcount : ∀ {change : Change Nat}, Change.map Answer.count change = .ok answer after →
      ∃ rows, answer = .count rows := by
    intro change hchange
    cases change with
    | error cause table => cases hchange
    | ok rows table =>
      cases hchange
      exact ⟨rows, rfl⟩
  cases call with
  | select projection condition =>
    simp only [perform] at h
    split at h
    · cases h
      exact ⟨_, rfl⟩
    · cases h
  | insert columns tuples => exact hcount h
  | update assignments condition => exact hcount h
  | delete condition => exact hcount h

/-- A mask means no more rows than it speaks of. -/
theorem Mask.length_rows_le (mask : Mask) : mask.rows.length ≤ mask.length :=
  Nat.le_trans (List.length_filterMap_le _ mask.zipIdx) (Nat.le_of_eq List.length_zipIdx)

namespace Table

variable {table after : Table} {reference : RowTable} {answer : Answer}

/-- The counter goes up by the rows that come in, and down by those that go out. -/
theorem Represents.rowCount_perform (h : table.Represents reference) {call : Call}
    (hperform : table.perform call = .ok answer after) :
    after.rowCount + call.leaving answer = table.rowCount + call.entering answer := by
  have hagrees := h.perform call
  generalize houtcome : reference.perform call = outcome at hagrees
  rw [hperform] at hagrees
  cases hagrees with
  | succeeds _ _ _ hafter =>
    rw [h.holds.count, hafter.holds.count]
    exact RowTable.length_perform houtcome

/-- A condition is checked for each row once, so it holds of no more rows than there are. -/
theorem length_rows_le {condition : Predicate} {mask : Mask}
    (h : table.satisfying condition = .ok mask) : mask.rows.length ≤ table.rowCount := by
  refine Nat.le_trans mask.length_rows_le (Nat.le_of_eq ?_)
  unfold satisfying at h
  split at h
  · cases h
    exact List.length_replicate
  · obtain ⟨⟨field, position⟩, -, hrest⟩ := bind_ok_iff.mp h
    obtain ⟨-, -, hrows⟩ := bind_ok_iff.mp hrest
    rw [← (mapM_ok_iff.mp hrows).length_eq, List.length_range]

/-- A selection of all columns of all rows yields as many rows as the counter says. -/
theorem Represents.select_everything (h : table.Represents reference) :
    ∃ rows, table.perform (.select .all .always) = .ok (.rows rows) table ∧
      rows.length = table.rowCount := by
  rcases h.holds.select_eq .all .always with ⟨-, hok⟩ | ⟨hfits, -⟩
  · simp only [Table.perform, hok]
    refine ⟨_, rfl, ?_⟩
    rw [List.length_map, h.holds.count]
    exact congrArg List.length (List.filter_eq_self.mpr fun _ _ => rfl)
  · cases hfits

end Table

end TableStore
