import TableStore.Proofs.Data.Rows
import TableStore.Proofs.Storage.Conditions
import TableStore.Proofs.Storage.RowTable

/-!
# Selecting reads the rows

A selection resolves its columns to positions, drops the repeated ones and reads cell by cell. To
those who asked it has collected the named columns of the rows of which the condition holds.

* `Table.columns_select` — all rows of a selection have the same columns.
* `Table.Holds.projected_eq` — reading at the resolved positions collects the named columns.
* `Table.Holds.select_eq` — a selection answers as the list of rows does.
-/

namespace TableStore

namespace Table

/-- The name in an entry is that of the column, for every row. -/
theorem name_entry {table : Table} {i position : Nat} {entry : String × Value}
    (h : table.entry i position = .ok entry) :
    table.columns[position]?.map (·.name) = some entry.1 := by
  unfold Table.entry at h
  split at h
  · rename_i hread
    cases h
    obtain ⟨column, hcolumn, hvalue⟩ := Option.bind_eq_some_iff.mp hread
    obtain ⟨value, -, rfl⟩ := Option.map_eq_some_iff.mp hvalue
    rw [hcolumn]
    rfl
  · cases h

/-- So the names of the entries at some positions do not depend on the row. -/
theorem names_of_mapM_entry {table : Table} {i : Nat} {positions : List Nat}
    {entries : List (String × Value)} (h : positions.mapM (table.entry i) = .ok entries) :
    positions.map (fun position => table.columns[position]?.map (·.name)) =
      entries.map (some ·.1) := by
  have hforall := mapM_ok_iff.mp h
  clear h
  induction hforall with
  | nil => rfl
  | cons hentry _ ih => rw [List.map_cons, List.map_cons, name_entry hentry, ih]

/-- All rows of a selection have the same columns. -/
theorem columns_select {table : Table} {projection : Projection} {condition : Predicate}
    {rows : List Row} (h : table.select projection condition = .ok rows) :
    ∃ columns, ∀ row ∈ rows, row.columns = columns := by
  unfold select at h
  obtain ⟨positions, -, h⟩ := bind_ok_iff.mp h
  obtain ⟨mask, -, h⟩ := bind_ok_iff.mp h
  refine ⟨Row.named (positions.filterMap fun position => table.columns[position]?.map (·.name)), ?_⟩
  intro row hrow
  obtain ⟨i, -, hread⟩ := exists_of_mem_mapM h hrow
  obtain ⟨entries, hentries, hcollect⟩ := bind_ok_iff.mp hread
  cases hcollect
  have hnames : positions.filterMap (fun position => table.columns[position]?.map (·.name)) =
      entries.map (·.1) := by
    have hread := congrArg (List.filterMap id) (names_of_mapM_entry hentries)
    simpa [List.filterMap_map, Function.comp_def] using hread
  rw [Row.columns_ofList, hnames]

end Table

namespace Table.Holds

variable {table : Table} {rows : List (List Value)}

/-- An entry of an answer's row is the name and the value of a column. -/
theorem entry_eq (h : table.Holds rows) {i : Nat} (hi : i < rows.length) {position : Nat}
    {field : Field} (hfield : table.schema.fields[position]? = some field) :
    ∃ value, rows[i][position]? = some value ∧
      table.entry i position = .ok (field.name, value) := by
  obtain ⟨value, hvalue, -⟩ := h.stored.exists_value (List.getElem_mem hi) hfield
  obtain ⟨column, hcolumn, rfl⟩ := h.stored.exists_column hfield
  have hcell := h.stored.getElem?_values hcolumn i
  rw [List.getElem?_eq_getElem hi, Option.bind_some, hvalue] at hcell
  refine ⟨value, hvalue, ?_⟩
  simp [entry, hcolumn, hcell, Column.field]

/-- An entry at the position where a name is found has that name, and the row's value for it. -/
theorem entry_position_eq (h : table.Holds rows) {i : Nat} (hi : i < rows.length) {name : String}
    {position : Nat} (hposition : table.schema.position? name = some position) :
    ∃ value, table.schema.value? name rows[i] = some value ∧
      table.entry i position = .ok (name, value) := by
  obtain ⟨field, hlocate⟩ := Schema.position?_eq_some_iff.mp hposition
  obtain ⟨hfield, hname⟩ := Schema.locate?_eq_some hlocate
  obtain ⟨value, hvalue, hentry⟩ := h.entry_eq hi hfield
  exact ⟨value, by simp [Schema.value?, hposition, hvalue], hname ▸ hentry⟩

/-- A column that was read before has its value among the entries already. -/
theorem get?_ofList_known (h : table.Holds rows) {i : Nat} (hi : i < rows.length)
    {found : List Nat} (hfound : ∀ position ∈ found, ∃ name, table.schema.position? name = some position)
    {before : List (String × Value)} (hbefore : found.mapM (table.entry i) = .ok before)
    {name : String} {position : Nat} (hposition : table.schema.position? name = some position)
    (hknown : position ∈ found) :
    (Row.ofList before).get? name = table.schema.value? name rows[i] := by
  have hagree : ∀ entry ∈ before, table.schema.value? entry.1 rows[i] = some entry.2 := by
    intro entry hentry
    obtain ⟨p, hp, hread⟩ := exists_of_mem_mapM hbefore hentry
    obtain ⟨other, hother⟩ := hfound p hp
    obtain ⟨value, hvalue, hread'⟩ := h.entry_position_eq hi hother
    cases hread.symm.trans hread'
    exact hvalue
  have hin : name ∈ before.map (·.1) := by
    obtain ⟨value, -, hentry⟩ := h.entry_position_eq hi hposition
    obtain ⟨entry, hmem, hread⟩ := exists_mem_of_mapM hbefore hknown
    cases hread.symm.trans hentry
    exact List.mem_map_of_mem hmem
  exact Row.get?_ofList (table.schema.value? · rows[i]) hagree hin

/-- Reading at the positions that names are resolved to collects the named columns, those of the
positions that were found before standing first. -/
theorem resolveDistinct_eq (h : table.Holds rows) (names : List String) (found : List Nat)
    (hfound : ∀ position ∈ found, ∃ name, table.schema.position? name = some position) :
    (names.all (· ∈ table.schema.columnNames) = true ∧
        ∃ positions, table.resolveDistinct found names = .ok positions ∧
          ∀ (i : Nat) (hi : i < rows.length) (before : List (String × Value)),
            found.mapM (table.entry i) = .ok before →
            ∃ entries, positions.mapM (table.entry i) = .ok entries ∧
              Row.ofList entries = Row.ofList (before ++
                names.filterMap fun name => (table.schema.value? name rows[i]).map (name, ·))) ∨
      (names.all (· ∈ table.schema.columnNames) = false ∧
        ∃ cause, table.resolveDistinct found names = .error cause ∧ cause.kind = .schema) := by
  induction names generalizing found with
  | nil => exact .inl ⟨rfl, found, rfl, fun i hi before hbefore => ⟨before, hbefore, by simp⟩⟩
  | cons name names ih =>
    rcases table.locate_eq name with ⟨⟨field, position⟩, hlocate, hok⟩ | ⟨hlocate, herr⟩
    · have hposition : table.schema.position? name = some position :=
        Schema.position?_eq_some_iff.mpr ⟨field, hlocate⟩
      have hmem : name ∈ table.schema.columnNames := by
        by_contra hnot
        rw [Schema.locate?_eq_none.mpr hnot] at hlocate
        cases hlocate
      -- positions are found by names only
      have hfound' : ∀ p ∈ if position ∈ found then found else found ++ [position],
          ∃ name, table.schema.position? name = some p := by
        intro p hp
        split at hp
        · exact hfound p hp
        · rcases List.mem_append.mp hp with hp | hp
          · exact hfound p hp
          · exact ⟨name, by rw [hposition, List.mem_singleton.mp hp]⟩
      simp only [resolveDistinct, hok, bind, Except.bind, List.all_cons, hmem, decide_true,
        Bool.true_and]
      rcases ih _ hfound' with ⟨hall, positions, hpositions, hread⟩ | hrefused
      · refine .inl ⟨hall, positions, hpositions, fun i hi before hbefore => ?_⟩
        obtain ⟨value, hvalue, hentry⟩ := h.entry_position_eq hi hposition
        rw [List.filterMap_cons, hvalue]
        by_cases hknown : position ∈ found
        · -- the column was named before, so the row has its value already
          have hread' := hread i hi before (by rwa [if_pos hknown])
          have hget := (h.get?_ofList_known hi hfound hbefore hposition hknown).trans hvalue
          rwa [Option.map_some, Row.ofList_append_cons hget]
        · -- the column is new, so its entry stands behind those before
          have happend : (found ++ [position]).mapM (table.entry i) =
              .ok (before ++ [(name, value)]) := by
            rw [List.mapM_append, hbefore]
            simp [hentry, bind, Except.bind, pure, Except.pure]
          have hread' := hread i hi _ (by rwa [if_neg hknown])
          simpa using hread'
      · exact .inr hrefused
    · refine .inr ⟨?_, .columnNotFound name table.name, ?_, rfl⟩
      · simp [Schema.locate?_eq_none.mp hlocate]
      · simp only [resolveDistinct, herr, bind, Except.bind]

/-- Reading at the positions of a projection collects its columns. -/
theorem projected_eq (h : table.Holds rows) (projection : Projection) :
    (projection.fits table.schema = true ∧
        ∃ positions, table.projected projection = .ok positions ∧
          ∀ (i : Nat) (hi : i < rows.length), ∃ entries,
            positions.mapM (table.entry i) = .ok entries ∧
              Row.ofList entries = table.schema.collect rows[i] projection) ∨
      (projection.fits table.schema = false ∧
        ∃ cause, table.projected projection = .error cause ∧ cause.kind = .schema) := by
  cases projection with
  | all =>
    refine .inl ⟨rfl, List.range table.columns.length, rfl, fun i hi => ?_⟩
    refine ⟨table.schema.columnNames.zip rows[i], ?_, rfl⟩
    -- all columns in order are the names of the schema beside the values of the row
    have hlen : table.columns.length = (table.schema.columnNames.zip rows[i]).length := by
      rw [List.length_zip, h.stored.width _ (List.getElem_mem hi), h.stored.length_columns]
      simp [Schema.columnNames]
    rw [hlen]
    refine mapM_range_ok fun position hposition => ?_
    rw [← hlen, h.stored.length_columns] at hposition
    obtain ⟨value, hvalue, hentry⟩ := h.entry_eq hi (List.getElem?_eq_getElem hposition)
    obtain ⟨_, rfl⟩ := List.getElem?_eq_some_iff.mp hvalue
    rw [hentry]
    simp [Schema.columnNames]
  | columns names =>
    rcases h.resolveDistinct_eq names [] (by simp) with
      ⟨hfits, positions, hok, hentries⟩ | hrefused
    · refine .inl ⟨hfits, positions, hok, fun i hi => ?_⟩
      exact hentries i hi [] rfl
    · exact .inr hrefused

/-- A selection answers with the rows of which the condition holds, each collected into the columns
of the projection. It fails exactly if one of the two does not fit the schema. -/
theorem select_eq (h : table.Holds rows) (projection : Projection) (condition : Predicate) :
    ((projection.fits table.schema && condition.fits table.schema) = true ∧
        table.select projection condition =
          .ok ((rows.filter (condition.holds table.schema)).map
            (table.schema.collect · projection))) ∨
      ((projection.fits table.schema && condition.fits table.schema) = false ∧
        ∃ cause, table.select projection condition = .error cause ∧ cause.kind = .schema) := by
  unfold select
  rcases h.projected_eq projection with ⟨hfits, positions, hok, hread⟩ | ⟨hfits, cause, herr, hkind⟩
  · rcases h.satisfying_eq condition with ⟨hcond, hmask⟩ | ⟨hcond, cause, herr, hkind⟩
    · refine .inl ⟨by simp [hfits, hcond], ?_⟩
      simp only [hok, hmask, bind, Except.bind]
      -- what the selection makes of the row at a position
      let collected (row : Option (List Value)) : Row :=
        (row.map (table.schema.collect · projection)).getD Row.empty
      have hstep : ∀ i ∈ Mask.rows (rows.map fun row => condition.holds table.schema row),
          (positions.mapM (table.entry i)).bind (fun entries => pure (Row.ofList entries)) =
            .ok (collected rows[i]?) := by
        intro i hi
        have hlt : i < rows.length := by simpa using Mask.lt_of_mem_rows hi
        obtain ⟨entries, hentries, hcollect⟩ := hread i hlt
        rw [hentries, List.getElem?_eq_getElem hlt]
        exact congrArg Except.ok hcollect
      -- row by row, the meant positions give the rows of which the condition holds
      refine (mapM_ok_of_forall hstep).trans (congrArg Except.ok ?_)
      have hrows := Mask.map_getElem?_rows (fun row => condition.holds table.schema row) rows
      rw [← Function.comp_def collected, ← List.map_map, hrows, List.map_map]
      rfl
    · refine .inr ⟨by simp [hcond], cause, ?_, hkind⟩
      simp only [hok, herr, bind, Except.bind]
  · refine .inr ⟨by simp [hfits], cause, ?_, hkind⟩
    simp only [herr, bind, Except.bind]

/-- If both fit, then it answers. -/
theorem select_ok (h : table.Holds rows) {projection : Projection} {condition : Predicate}
    (hprojection : projection.fits table.schema = true)
    (hfits : condition.fits table.schema = true) :
    table.select projection condition =
      .ok ((rows.filter (condition.holds table.schema)).map
        (table.schema.collect · projection)) := by
  rcases h.select_eq projection condition with ⟨-, hok⟩ | ⟨hnot, -⟩
  · exact hok
  · rw [hprojection, hfits] at hnot
    cases hnot

end Table.Holds

end TableStore
