import TableStore.Proofs.Storage.Catalog

/-!
# Primary keys tell rows apart

The check that keeps the keys of a table different and the condition of a statement use one notion of
equality. So the key column of a table that comes of requests holds each value once, and asking for
one value of the key yields one row at most.

* `Predicate.holds_equal` — a row fulfils an equation exactly if it has the literal as its value.
* `Table.Represents.values_nodup`, `Table.Represents.length_select_le` — the two halves for a table
  that stands for rows with different keys.
* `Catalog.key_unique` — both for every table of every catalog that comes of requests.
-/

namespace TableStore

/-- Equality of values is equality. -/
theorem Comparison.holds_equal {left right : Value} :
    Comparison.equal.holds left right = .ok true ↔ left = right := by
  cases left <;> cases right <;> simp [holds, accepts]

/-- A row fulfils an equation exactly if it has the literal as its value. -/
theorem Predicate.holds_equal {schema : Schema} {row : List Value} {column : String}
    {literal : Value} :
    (Predicate.test column .equal literal).holds schema row = true ↔
      schema.value? column row = some literal := by
  cases hvalue : schema.value? column row with
  | none => simp [holds, hvalue]
  | some value =>
    rw [Option.some.injEq, ← Comparison.holds_equal]
    cases hanswer : Comparison.equal.holds value literal <;> simp [holds, hvalue, hanswer]

namespace Table.Represents

variable {table : Table} {rows : List (List Value)} {key : String} {position : Nat}

theorem values_nodup (h : table.Represents ⟨table.schema, rows⟩)
    (hkey : table.schema.primaryKey = some key)
    (hposition : table.schema.position? key = some position) {column : Column}
    (hcolumn : table.columns[position]? = some column) : column.values.Nodup := by
  have hkeys : (table.schema.keys rows).Nodup := h.keys
  rw [Schema.keys_eq hkey hposition] at hkeys
  -- the column holds what the rows have at its position
  refine List.Nodup.of_map some ?_
  rw [h.holds.stored.values_eq hcolumn]
  exact hkeys

theorem length_filter_equal_le (h : table.Represents ⟨table.schema, rows⟩)
    (hkey : table.schema.primaryKey = some key)
    (hposition : table.schema.position? key = some position) (literal : Value) :
    (rows.filter ((Predicate.test key .equal literal).holds table.schema)).length ≤ 1 := by
  have hkeys : (table.schema.keys rows).Nodup := h.keys
  rw [Schema.keys_eq hkey hposition] at hkeys
  calc (rows.filter ((Predicate.test key .equal literal).holds table.schema)).length
      = rows.countP fun row => row[position]? == some literal := by
        rw [← List.countP_eq_length_filter]
        refine List.countP_congr fun row _ => ?_
        rw [Predicate.holds_equal, Schema.value?, hposition, Option.bind_some, beq_iff_eq]
    _ = (rows.map (·[position]?)).count (some literal) := by
        rw [List.count, List.countP_map]
        rfl
    _ ≤ 1 := List.nodup_iff_count_le_one.mp hkeys (some literal)

/-- A selection by a value of the key finds a row or none. -/
theorem length_select_le (h : table.Represents ⟨table.schema, rows⟩)
    (hkey : table.schema.primaryKey = some key) {field : Field}
    (hlocate : table.schema.locate? key = some (field, position)) {literal : Value}
    (htype : literal.type = field.type) {projection : Projection}
    (hfits : projection.fits table.schema = true) :
    ∃ selected, table.select projection (.test key .equal literal) = .ok selected ∧
      selected.length ≤ 1 := by
  have hcondition : (Predicate.test key .equal literal).fits table.schema = true := by
    simp [Predicate.fits, Schema.type?, hlocate, htype, Comparison.isOrdering]
  rcases h.holds.select_eq projection (.test key .equal literal) with ⟨-, hok⟩ | ⟨hnot, -⟩
  · refine ⟨_, hok, ?_⟩
    rw [List.length_map]
    exact h.length_filter_equal_le hkey (Schema.position?_eq_some_iff.mpr ⟨field, hlocate⟩) literal
  · rw [hfits, hcondition] at hnot
    cases hnot

end Table.Represents

/-- Whatever a catalog has been asked for, with schemas of any kind: the column that a table's primary
key names holds pairwise different values, one for each row, and for each value of its type a
selection of the rows with this key succeeds and yields one row at most. -/
theorem Catalog.key_unique (name : String) (commands : List Command) {table : Table}
    (htable : table ∈ ((empty name).run commands).tables) {key : String}
    (hkey : table.schema.primaryKey = some key) (hnames : key ∈ table.schema.columnNames) :
    ∃ position column, table.schema.position? key = some position ∧
      table.columns[position]? = some column ∧ column.length = table.rowCount ∧
      column.values.Nodup ∧
      ∀ value : Value, value.type = column.type →
        ∀ projection : Projection, projection.fits table.schema = true →
          ∃ rows, table.select projection (.test key .equal value) = .ok rows ∧
            rows.length ≤ 1 := by
  obtain ⟨rows, hrows⟩ := (sound_run name commands).tables table htable
  cases hlocate : table.schema.locate? key with
  | none => exact absurd hnames (Schema.locate?_eq_none.mp hlocate)
  | some located =>
    obtain ⟨field, position⟩ := located
    have hposition := Schema.position?_eq_some_iff.mpr ⟨field, hlocate⟩
    have hstored := hrows.holds.stored
    obtain ⟨column, hcolumn, hfield⟩ := hstored.exists_column (Schema.locate?_eq_some hlocate).1
    refine ⟨position, column, hposition, hcolumn, ?_, ?_, ?_⟩
    · rw [hstored.length_values hcolumn, hrows.holds.count]
    · exact hrows.values_nodup hkey hposition hcolumn
    · intro value htype projection hfits
      have htype' : value.type = field.type := by
        rw [htype, ← hfield]
        rfl
      exact hrows.length_select_le hkey hlocate htype' hfits

/-- A table with a primary key, after an insertion and one that is refused because of its key. -/
theorem Catalog.key_unique_refused_insertion :
    let schema : Schema := ⟨[⟨"id", .integer⟩, ⟨"name", .text⟩], some "id"⟩
    let catalog := (empty "main").run
      [.create "t" schema,
       .call "t" (.insert none [[.integer 1, .text "a"], [.integer 2, .text "b"]]),
       .call "t" (.insert none [[.integer 2, .text "c"]])]
    ∃ table ∈ catalog.tables, table.schema.primaryKey = some "id" ∧
      "id" ∈ table.schema.columnNames ∧ table.rowCount = 2 ∧
      ∃ position column, table.schema.position? "id" = some position ∧
        table.columns[position]? = some column ∧ column.length = 2 ∧ column.values.Nodup := by
  intro schema catalog
  obtain ⟨table, htables, hkey, hnames, hcount⟩ : ∃ table, catalog.tables = [table] ∧
      table.schema.primaryKey = some "id" ∧ "id" ∈ table.schema.columnNames ∧
      table.rowCount = 2 :=
    ⟨_, rfl, rfl, by decide, rfl⟩
  have htable : table ∈ catalog.tables := by
    rw [htables]
    exact List.mem_singleton_self table
  obtain ⟨position, column, hposition, hcolumn, hlength, hnodup, -⟩ :=
    key_unique "main" _ htable hkey hnames
  rw [hcount] at hlength
  exact ⟨table, htable, hkey, hnames, hcount, position, column, hposition, hcolumn, hlength, hnodup⟩

end TableStore
