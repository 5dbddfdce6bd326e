import TableStore.Proofs.Storage.Catalog

/-!
# Building a table up again

The rows of a table, inserted in one go into an empty table of its name and schema, give the table
again. In a catalog where no name is greater, the empty table is created at the end of the list, and
the insertion changes the last table.

* `Table.Represents.perform_insert` — the insertion into the empty table.
* `Catalog.create_last` — the creation behind all other tables.
* `Catalog.perform_insert_last` — the insertion into the last table.
-/

namespace TableStore

/-! ## The rows of a table in an empty one -/

theorem filterMap_range_getElem? {α β : Type} (f : α → β) (xs : List α) :
    (List.range xs.length).filterMap (fun i => xs[i]?.map f) = xs.map f := by
  calc (List.range xs.length).filterMap (fun i => xs[i]?.map f)
      = ((List.range xs.length).map (xs[·]?)).filterMap (Option.map f) := by
        rw [List.filterMap_map]
        rfl
    _ = xs.map f := by
        rw [map_range_getElem?, List.filterMap_map, ← List.filterMap_eq_map]
        rfl

/-- Values that are numbered from some position on are looked up by their positions. -/
theorem lookup_zip_range' {α : Type} (start : Nat) (xs : List α) (i : Nat) :
    ((List.range' start xs.length).zip xs).lookup (start + i) = xs[i]? := by
  induction xs generalizing start i with
  | nil => rfl
  | cons x xs ih =>
    rw [List.length_cons, List.range'_succ, List.zip_cons_cons, List.lookup_cons]
    cases i with
    | zero => simp
    | succ i =>
      have hne : (start + (i + 1) == start) = false := by simp
      have hnext := ih (start + 1) i
      rw [show start + 1 + i = start + (i + 1) by omega] at hnext
      rw [hne, hnext, List.getElem?_cons_succ]

/-- A tuple that comes in schema order is arranged already. -/
theorem arranged_range (row : List Value) : arranged (List.range row.length) row = row := by
  have hlookup : ∀ i, ((List.range row.length).zip row).lookup i = row[i]?.map id := by
    intro i
    have hat := lookup_zip_range' 0 row i
    rw [Nat.zero_add, ← List.range_eq_range'] at hat
    rw [hat, Option.map_id, id]
  unfold arranged
  rw [List.length_range, List.filterMap_congr fun i _ => hlookup i,
    filterMap_range_getElem?, List.map_id]

namespace Table

variable {table : Table} {rows : List (List Value)}

/-- The rows of a table, inserted into an empty table of its name and schema, give the table. -/
theorem Represents.perform_insert (h : table.Represents ⟨table.schema, rows⟩) :
    (empty table.name table.schema).perform (.insert none rows) = .ok (.count rows.length) table := by
  have hempty := holds_empty table.name table.schema
  have hnone : (table.schema.keys []).Nodup := (represents_empty table.name table.schema).keys
  have hwidth := h.holds.stored.width
  have horder : table.schema.order? none = some (List.range table.schema.fields.length) := rfl
  have haccepts : rows.all (table.schema.accepts (List.range table.schema.fields.length)) = true := by
    rw [List.all_eq_true]
    intro row hrow
    unfold Schema.accepts
    rw [filterMap_range_getElem?, h.holds.stored.types_eq hrow, beq_self_eq_true]
  have harranged : rows.map (arranged (List.range table.schema.fields.length)) = rows := by
    refine (List.map_congr_left fun row hrow => ?_).trans (List.map_id rows)
    rw [← hwidth row hrow, arranged_range, id]
  have hdiffer : (table.schema.keys ([] ++ rows.map
      (arranged (List.range table.schema.fields.length)))).Nodup := by
    rw [harranged, List.nil_append]
    exact h.keys
  -- the columns fit and the keys differ, so the insertion succeeds
  obtain ⟨after, hok, hname, hschema, hafter⟩ :=
    hempty.insert_ok hnone horder haccepts hdiffer
  rw [harranged, List.nil_append] at hafter
  rw [hafter.unique h.holds hname hschema] at hok
  simp only [Table.perform, hok, Change.map]

theorem Represents.eq_empty (h : table.Represents ⟨table.schema, []⟩) :
    table = empty table.name table.schema :=
  h.holds.unique (holds_empty table.name table.schema) rfl rfl

end Table

/-! ## The last table of a catalog -/

namespace Catalog

theorem place_last {table : Table} {tables : List Table}
    (h : ∀ other ∈ tables, other.name < table.name) : place table tables = tables ++ [table] := by
  induction tables with
  | nil => rfl
  | cons first rest ih =>
    have hnot : ¬table.name < first.name := String.lt_asymm (h first List.mem_cons_self)
    -- the new table has to go behind the first one
    rw [place, if_neg hnot, ih fun other hother => h other (List.mem_cons_of_mem first hother),
      List.cons_append]

variable {name : String} {before : List Table}

theorem create_last {fresh : String} (h : ∀ other ∈ before, other.name < name) (schema : Schema) :
    create ⟨fresh, before⟩ name schema = .ok ⟨fresh, before ++ [Table.empty name schema]⟩ := by
  have hfind : find? ⟨fresh, before⟩ name = none := by
    rw [find?_eq_none]
    rintro other hother rfl
    exact String.lt_irrefl _ (h other hother)
  have hplace : place (Table.empty name schema) before = before ++ [Table.empty name schema] :=
    place_last h
  unfold create
  simp only [hfind, hplace]

/-- A table is put in the place of the last one, which has its name. -/
theorem replace_last {table old : Table} {fresh : String}
    (h : ∀ other ∈ before, other.name < table.name) (hname : old.name = table.name) :
    replace ⟨fresh, before ++ [old]⟩ table = ⟨fresh, before ++ [table]⟩ := by
  have hkeep : before.map (fun other => if other.name = table.name then table else other) =
      before := by
    refine (List.map_congr_left fun other hother => ?_).trans (List.map_id before)
    have hne : other.name ≠ table.name := by
      intro heq
      exact String.lt_irrefl _ (heq ▸ h other hother)
    rw [if_neg hne, id]
  unfold replace
  rw [List.map_append, hkeep, List.map_singleton, if_pos hname]

/-- The rows of a table are inserted into an empty table of its name and schema that is the last. -/
theorem perform_insert_last {table : Table} {rows : List (List Value)} {fresh : String}
    (h : ∀ other ∈ before, other.name < table.name)
    (hrows : table.Represents ⟨table.schema, rows⟩) :
    perform ⟨fresh, before ++ [Table.empty table.name table.schema]⟩
        (.call table.name (.insert none rows)) =
      .ok (.count rows.length) ⟨fresh, before ++ [table]⟩ := by
  have hfind : find? ⟨fresh, before ++ [Table.empty table.name table.schema]⟩ table.name =
      some (Table.empty table.name table.schema) := by
    -- no table before the last one has the name
    have hnone : before.find? (·.name == table.name) = none := by
      rw [List.find?_eq_none]
      intro other hother heq
      have hlt := h other hother
      rw [beq_iff_eq.mp heq] at hlt
      exact String.lt_irrefl _ hlt
    unfold find?
    rw [List.find?_append, hnone, Option.none_or]
    simp [Table.empty]
  have hname : (Table.empty table.name table.schema).name = table.name := rfl
  simp only [perform, alter, hfind, hrows.perform_insert, replace_last h hname]

end Catalog

end TableStore
