import TableStore.Proofs.Storage.Conditions
import TableStore.Storage.Table.Delete

/-!
# Deleting keeps the other rows

* `Schema.nodup_keys_of_sublist` — the keys of the rows that stay are different if all keys are.
* `Stored.remove` — taking the same positions out of every column takes out the rows there.
* `Table.Holds.delete_eq` — a deletion keeps the rows of which the condition does not hold.
-/

namespace TableStore

/-- The keys of some rows among others are different if all keys are. -/
theorem Schema.nodup_keys_of_sublist {schema : Schema} {rows kept : List (List Value)}
    (h : (schema.keys rows).Nodup) (hkept : kept.Sublist rows) : (schema.keys kept).Nodup := by
  unfold keys at *
  cases hposition : schema.keyPosition? with
  | none => exact List.nodup_nil
  | some position =>
    simp only [hposition] at h
    exact h.sublist (hkept.map _)

/-- Taking the same positions out of every column takes out the rows there. -/
theorem Stored.remove {fields : List Field} {columns : List Column} {rows : List (List Value)}
    (h : Stored fields columns rows) (p : List Value → Bool) :
    ∃ columns', Table.eachColumn Column.remove columns (columns.map fun _ => rows.map p) =
        .ok () columns' ∧
      Stored fields columns' (rows.filter fun row => !p row) := by
  have hstep : List.Forall₂ (fun column mask => ∃ after, column.remove mask = .ok after ∧
      after.field = column.field ∧ after.values = Mask.leave mask column.values)
      columns (columns.map fun _ => rows.map p) := by
    rw [List.forall₂_map_right_iff, List.forall₂_same]
    intro column hmem
    -- the mask covers every column, for all of them have a value for each row
    obtain ⟨position, hcolumn⟩ := List.getElem?_of_mem hmem
    have hlen := h.length_values hcolumn
    rcases column.remove_eq (rows.map p) with ⟨after, hok, -, hname, htype, hvalues⟩ | ⟨-, hne⟩
    · exact ⟨after, hok, by simp [Column.field, hname, htype], hvalues⟩
    · exact absurd (by simp [hlen]) hne
  obtain ⟨columns', hok, hfields, hvalues⟩ := Table.eachColumn_ok Mask.leave hstep
  refine ⟨columns', hok, ?_, ?_, ?_⟩
  · rw [hfields, h.fields_eq]
  · intro row hrow
    exact h.width row (List.mem_of_mem_filter hrow)
  · intro position after hafter
    obtain ⟨column, mask, hcolumn, hmask, hleft⟩ := hvalues hafter
    rw [List.getElem?_map, hcolumn] at hmask
    obtain rfl : rows.map p = mask := Option.some.inj hmask
    rw [hleft, ← Mask.leave_map, h.values_eq hcolumn, Mask.leave_map, Mask.leave_map_self]

/-- A deletion keeps the rows of which the condition does not hold, in their order, and answers with
the number of the others. It fails exactly if the condition does not fit the schema. -/
theorem Table.Holds.delete_eq {table : Table} {rows : List (List Value)} (h : table.Holds rows)
    (condition : Predicate) :
    (condition.fits table.schema = true ∧
        ∃ after, table.delete condition =
            .ok (rows.countP fun row => condition.holds table.schema row) after ∧
          after.name = table.name ∧ after.schema = table.schema ∧
          after.Holds (rows.filter fun row => !condition.holds table.schema row)) ∨
      (condition.fits table.schema = false ∧
        ∃ cause, table.delete condition = .error cause table ∧ cause.kind = .schema) := by
  unfold Table.delete
  rcases h.satisfying_eq condition with ⟨hfits, hmask⟩ | ⟨hfits, cause, herr, hkind⟩
  · refine .inl ⟨hfits, ?_⟩
    simp only [hmask, Mask.length_rows_map]
    split
    · rename_i hnone
      -- no row is meant, so all of them are kept
      have hkeep : (rows.filter fun row => !condition.holds table.schema row) = rows := by
        rw [List.filter_eq_self]
        intro row hrow
        have hnot := List.countP_eq_zero.mp hnone row hrow
        simpa using hnot
      exact ⟨table, by rw [hnone], rfl, rfl, hkeep.symm ▸ h⟩
    · obtain ⟨columns', hok, hstored⟩ :=
        h.stored.remove fun row => condition.holds table.schema row
      simp only [hok]
      refine ⟨_, rfl, rfl, rfl, hstored, ?_⟩
      have hsum := List.length_eq_countP_add_countP
        (fun row => condition.holds table.schema row) (l := rows)
      show table.rowCount - _ = _
      rw [h.count, ← List.countP_eq_length_filter]
      simp only [Bool.not_eq_true, Bool.decide_eq_false] at hsum
      omega
  · exact .inr ⟨hfits, cause, by simp only [herr], hkind⟩

end TableStore
