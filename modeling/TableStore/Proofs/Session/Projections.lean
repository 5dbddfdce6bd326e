import TableStore.Proofs.Session.Replies

/-!
# Columns named more than once

A row is made up by giving values to columns, and a selection is told by name which columns its rows
have. Both take the same name more than once, and both keep the column where it is named first. What a
row drops by comparing names, a selection drops by comparing positions, before any row is read; as the
names of columns differ, this comes to the same. So a selection of columns is the selection of all
columns with the named ones kept.

* `Row.Collects` — what a row tells of the values that columns were given; `Row.collects_ofList`.
* `Table.resolveDistinct_eraseDups`, `Table.select_eraseDups` — naming a column again changes nothing in
  a selection.
* `Schema.collect_columns` — the named columns of a stored row are those of the complete row.
* `Table.Holds.select_columns` — a selection of columns keeps them from the selection of all.
* `Catalog.projections_restrict` — this for every table that comes of requests.
-/

namespace TableStore

open Json (Layout)

/-! ## What a row tells -/

namespace Row

/-- What a row tells of the values that columns were given, one after the other. Each column stands where
it was named first and has the value that it was given last; one that was never named has none. Going
through the row gives the columns with their values in this order, and so do the members of its JSON
text. -/
structure Collects (row : Row) (given : List (String × Value)) : Prop where
  columns_eq : row.columns = (given.map (·.1)).eraseDups
  get?_iff : ∀ column value, row.get? column = some value ↔
    ∃ before after, given = before ++ (column, value) :: after ∧ column ∉ after.map (·.1)
  get?_none_iff : ∀ column, row.get? column = none ↔ column ∉ given.map (·.1)
  entries_eq : row.columns.map (fun column => (row.get? column).map (column, ·)) =
    row.entries.map some
  members_eq : ∀ layout ∈ [Layout.compact, .indented],
    Json.ofText? (Json.write layout row.json) =
      some (.object (row.entries.map fun entry => (entry.1, entry.2.json)))

/-- However values are given to columns, the row tells them. -/
theorem collects_ofList (given : List (String × Value)) : (ofList given).Collects given where
  columns_eq := by rw [columns_ofList, named_eq]
  get?_iff _ _ := get?_ofList_eq_some_iff
  get?_none_iff column := by
    rw [get?_eq_none_iff, columns_ofList, named_eq, List.mem_eraseDups]
  entries_eq := map_entries (built_ofList given).nodup_columns
  members_eq layout hlayout := by
    rw [← json_eq]
    exact Json.ofText?_write (Layout.isBlank_of_mem hlayout) (valid_json _)

end Row

/-! ## Names that are resolved to positions -/

namespace Table

variable {table : Table} {found positions : List Nat} {names : List String}

theorem resolveDistinct_append (table : Table) (found : List Nat) (names more : List String) :
    table.resolveDistinct found (names ++ more) =
      table.resolveDistinct found names >>= fun positions => table.resolveDistinct positions more := by
  induction names generalizing found with
  | nil => rfl
  | cons name names ih =>
    rw [List.cons_append, resolveDistinct, resolveDistinct]
    cases table.locate name with
    | error cause => rfl
    | ok located => exact ih _

/-- The positions that were found stay, and those of the names are among them. -/
theorem mem_of_resolveDistinct (h : table.resolveDistinct found names = .ok positions) :
    found ⊆ positions ∧ ∀ name ∈ names, ∃ field position,
      table.locate name = .ok (field, position) ∧ position ∈ positions := by
  induction names generalizing found with
  | nil =>
    cases h
    exact ⟨List.Subset.refl positions, nofun⟩
  | cons name names ih =>
    -- what is found is only ever added to, so what holds after the first name holds at the end
    obtain ⟨⟨field, position⟩, hlocate, hrest⟩ := bind_ok_iff.mp h
    obtain ⟨hfound, hnames⟩ := ih hrest
    refine ⟨fun p hp => hfound ?_, List.forall_mem_cons.mpr ⟨?_, hnames⟩⟩
    · split
      · exact hp
      · exact List.mem_append_left _ hp
    · refine ⟨field, position, hlocate, hfound ?_⟩
      split
      · assumption
      · exact List.mem_append_right _ (List.mem_singleton_self position)

/-- A name that is repeated finds its position among those found before, so it may be left out. -/
theorem resolveDistinct_eraseDups (table : Table) (names : List String) :
    table.resolveDistinct [] names.eraseDups = table.resolveDistinct [] names := by
  -- from the end: what the last name adds depends on the names before it
  induction names using List.reverseRecOn with
  | nil => rfl
  | append_singleton names name ih =>
    rw [eraseDups_concat, resolveDistinct_append]
    split
    · rename_i hname
      rw [ih]
      cases hresolve : table.resolveDistinct [] names with
      | error cause => rfl
      | ok positions =>
        -- the name was resolved before, to a position that is among those found
        obtain ⟨-, hnames⟩ := mem_of_resolveDistinct hresolve
        obtain ⟨field, position, hlocate, hposition⟩ := hnames name hname
        simp only [resolveDistinct, hlocate, hposition, bind, Except.bind, ↓reduceIte]
    · rw [resolveDistinct_append, ih]

/-- Naming a column again changes nothing in a selection, whatever it answers with. -/
theorem select_eraseDups (table : Table) (names : List String) (condition : Predicate) :
    table.select (.columns names.eraseDups) condition = table.select (.columns names) condition := by
  have hprojected : table.projected (.columns names.eraseDups) = table.projected (.columns names) :=
    table.resolveDistinct_eraseDups names
  rw [select, select, hprojected]

/-- A selection fails with its condition if the projection is resolved. -/
theorem select_of_satisfying_error {projection : Projection} {condition : Predicate} {cause : Error}
    (hprojected : table.projected projection = .ok positions)
    (herr : table.satisfying condition = .error cause) :
    table.select projection condition = .error cause := by
  simp only [select, hprojected, herr, bind, Except.bind]

end Table

/-! ## Named columns of a stored row -/

namespace Schema

variable {schema : Schema} {row : List Value} {names : List String} {name : String}

theorem map_fst_zip (hwidth : row.length = schema.fields.length) :
    (schema.columnNames.zip row).map (·.1) = schema.columnNames :=
  List.map_fst_zip (by rw [columnNames, List.length_map, hwidth])

/-- A complete row has all columns. -/
theorem columns_collect_all (hnodup : schema.columnNames.Nodup)
    (hwidth : row.length = schema.fields.length) :
    (schema.collect row .all).columns = schema.columnNames := by
  have hkeys := map_fst_zip hwidth
  rw [collect, Row.ofList_eq (hkeys.symm ▸ hnodup), Row.columns, hkeys]

/-- A complete row has in each column the value that is stored there. -/
theorem get?_collect_all (hnodup : schema.columnNames.Nodup)
    (hwidth : row.length = schema.fields.length) (hname : name ∈ schema.columnNames) :
    (schema.collect row .all).get? name = schema.value? name row := by
  refine Row.get?_ofList (schema.value? · row) (fun entry hentry => ?_)
    ((map_fst_zip hwidth).symm ▸ hname)
  -- the name of an entry is found at the position of the entry, for no other column has it
  obtain ⟨position, hposition⟩ := List.getElem?_of_mem hentry
  obtain ⟨hcolumn, hvalue⟩ := List.getElem?_zip_eq_some.mp hposition
  rw [value?, position?_of_nodup hnodup hcolumn, Option.bind_some, hvalue]

/-- The named columns of a stored row are those of the complete row. -/
theorem collect_columns (hnodup : schema.columnNames.Nodup)
    (hwidth : row.length = schema.fields.length)
    (hnames : ∀ name ∈ names, name ∈ schema.columnNames) :
    schema.collect row (.columns names) = (schema.collect row .all).restrict names.eraseDups := by
  -- the same names are collected on both sides, so only the values have to agree
  rw [← Row.ofList_restrict]
  refine congrArg Row.ofList (List.filterMap_congr fun name hname => ?_)
  rw [get?_collect_all hnodup hwidth (hnames name hname)]

-- two columns of one name: the complete row has the last value, and the name is that of the first column
example :
    let schema : Schema := ⟨[⟨"a", .integer⟩, ⟨"a", .integer⟩], none⟩
    let row : List Value := [.integer 1, .integer 2]
    schema.collect row (.columns ["a"]) ≠ (schema.collect row .all).restrict ["a"] := by
  decide

end Schema

namespace Table.Holds

variable {table : Table} {rows : List (List Value)} {names : List String} {positions : List Nat}
  {condition : Predicate} {selected : List Row}

/-- Only columns of the table are resolved. -/
theorem fits_of_projected (h : table.Holds rows) {projection : Projection}
    (hprojected : table.projected projection = .ok positions) :
    projection.fits table.schema = true := by
  rcases h.projected_eq projection with ⟨hfits, -⟩ | ⟨-, cause, herr, -⟩
  · exact hfits
  · cases hprojected.symm.trans herr

theorem mem_columnNames_of_projected (h : table.Holds rows)
    (hprojected : table.projected (.columns names) = .ok positions) :
    ∀ name ∈ names, name ∈ table.schema.columnNames := by
  simpa [Projection.fits] using h.fits_of_projected hprojected

/-- A selection of columns keeps them from the selection of all, and fails with it. -/
theorem select_columns (h : table.Holds rows) (hnodup : table.schema.columnNames.Nodup)
    (hprojected : table.projected (.columns names) = .ok positions) (condition : Predicate) :
    table.select (.columns names) condition =
      (table.select .all condition).map (·.map (·.restrict names.eraseDups)) := by
  have hfits := h.fits_of_projected hprojected
  have hnames := h.mem_columnNames_of_projected hprojected
  rcases h.satisfying_eq condition with ⟨hcondition, -⟩ | ⟨-, cause, herr, -⟩
  · rw [h.select_ok hfits hcondition, h.select_ok rfl hcondition, Except.map, List.map_map]
    refine congrArg Except.ok (List.map_congr_left fun row hrow => ?_)
    exact Schema.collect_columns hnodup (h.stored.width row (List.mem_of_mem_filter hrow)) hnames
  · -- neither of the two gets as far as reading a row
    have hall : table.projected .all = .ok (List.range table.columns.length) := rfl
    rw [select_of_satisfying_error hprojected herr, select_of_satisfying_error hall herr]
    rfl

/-- The rows of a selection of all columns have all of them. -/
theorem columns_select_all (h : table.Holds rows) (hnodup : table.schema.columnNames.Nodup)
    (hselect : table.select .all condition = .ok selected) :
    ∀ row ∈ selected, row.columns = table.schema.columnNames := by
  rcases h.select_eq .all condition with ⟨-, hok⟩ | ⟨-, cause, herr, -⟩
  · cases hselect.symm.trans hok
    intro row hrow
    obtain ⟨stored, hstored, rfl⟩ := List.mem_map.mp hrow
    exact Schema.columns_collect_all hnodup
      (h.stored.width stored (List.mem_of_mem_filter hstored))
  · cases hselect.symm.trans herr

/-- The rows of a selection of columns have just these, each where it is named first. -/
theorem columns_select_columns (h : table.Holds rows) (hnodup : table.schema.columnNames.Nodup)
    (hprojected : table.projected (.columns names) = .ok positions)
    (hselect : table.select (.columns names) condition = .ok selected) :
    ∀ row ∈ selected, row.columns = names.eraseDups := by
  have hnames := h.mem_columnNames_of_projected hprojected
  rw [h.select_columns hnodup hprojected] at hselect
  cases hall : table.select .all condition with
  | error cause =>
    rw [hall] at hselect
    cases hselect
  | ok complete =>
    rw [hall] at hselect
    cases hselect
    -- nothing is lost on the way, for a complete row has all the columns that are named
    intro row hrow
    obtain ⟨full, hfull, rfl⟩ := List.mem_map.mp hrow
    refine Row.columns_restrict fun name hname => ?_
    rw [h.columns_select_all hnodup hall full hfull]
    exact hnames name (List.mem_eraseDups.mp hname)

end Table.Holds

namespace Catalog

/-- However values are given to columns, the row that comes of it has each column where it was named
first, with the value that it was given last. So in a selection from any table names may be repeated
without effect; and in every table that comes of requests, if the names of its columns differ, a
selection of columns has the rows of the selection of all columns under the same condition, in the same
order, each with just the named columns. If the condition is refused, then both are, for the same
cause. -/
theorem projections_restrict :
    (∀ given : List (String × Value), (Row.ofList given).Collects given) ∧
    (∀ (table : Table) (names : List String) (condition : Predicate),
      table.select (.columns names.eraseDups) condition =
        table.select (.columns names) condition) ∧
    ∀ (name : String) (commands : List Command), ∀ table ∈ ((empty name).run commands).tables,
      ∀ (fields : List Field) (key : Option String), Schema.make fields key = .ok table.schema →
      ∀ (names : List String) (positions : List Nat),
        table.projected (.columns names) = .ok positions →
      ∀ condition : Predicate,
        table.select (.columns names) condition =
          (table.select .all condition).map (·.map (·.restrict names.eraseDups)) ∧
        ∀ rows, table.select (.columns names) condition = .ok rows →
          ∀ row ∈ rows, row.columns = names.eraseDups := by
  refine ⟨Row.collects_ofList, Table.select_eraseDups, ?_⟩
  intro name commands table htable fields key hschema names positions hprojected condition
  obtain ⟨rows, hrows⟩ := (sound_run name commands).tables table htable
  obtain ⟨hmade, hdiffer, -⟩ := Schema.make_ok_iff.mp hschema
  have hnodup : table.schema.columnNames.Nodup := by rwa [hmade]
  exact ⟨hrows.holds.select_columns hnodup hprojected condition,
    fun selected hselect => hrows.holds.columns_select_columns hnodup hprojected hselect⟩

/-- A title that is named before the key and again after it, and a row that is not selected. -/
theorem projections_restrict_repeated :
    let schema : Schema := ⟨[⟨"id", .integer⟩, ⟨"title", .text⟩], some "id"⟩
    let catalog := (empty "main").run
      [.create "books" schema,
       .call "books" (.insert none [[.integer 1, .text "Dune"], [.integer 2, .text "Emma"]])]
    let late : Predicate := .test "id" .greater (.integer 1)
    ∃ table ∈ catalog.tables, Schema.make schema.fields schema.primaryKey = .ok table.schema ∧
      table.projected (.columns ["title", "id", "title"]) = .ok [1, 0] ∧
      table.select .all late = .ok [⟨[("id", .integer 2), ("title", .text "Emma")]⟩] ∧
      table.select (.columns ["title", "id", "title"]) late =
        .ok [⟨[("title", .text "Emma"), ("id", .integer 2)]⟩] := by
  intro schema catalog late
  obtain ⟨table, htables, hschema, hprojected, hall⟩ :
      ∃ table, catalog.tables = [table] ∧
        Schema.make schema.fields schema.primaryKey = .ok table.schema ∧
        table.projected (.columns ["title", "id", "title"]) = .ok [1, 0] ∧
        table.select .all late = .ok [⟨[("id", .integer 2), ("title", .text "Emma")]⟩] :=
    ⟨_, rfl, rfl, rfl, rfl⟩
  have htable : table ∈ catalog.tables := by
    rw [htables]
    exact List.mem_singleton_self table
  obtain ⟨-, -, hrestrict⟩ := projections_restrict
  obtain ⟨hselect, -⟩ := hrestrict "main" _ table htable _ _ hschema _ _ hprojected late
  refine ⟨table, htable, hschema, hprojected, hall, ?_⟩
  rw [hselect, hall]
  decide

end Catalog

end TableStore
