import Mathlib.Data.List.Basic
import Mathlib.Data.List.Forall2
import Mathlib.Data.Option.Basic
import TableStore.Proofs.Traversal
import TableStore.Storage.Table.Basic

/-!
# The rows behind the columns

A table stores no rows: a row is what the columns hold at one position, and nothing but the checks
of the operations keeps the columns in step. This module says when columns in step hold a given
list of rows, and what the operations of a single column do to that list.

* `Table.rows?` — the rows, read position by position from the columns.
* `Stored fields columns rows` — the columns have the given names and types and hold the rows.
* `Table.Holds` — a table's columns hold the rows, and its counter counts them.
* `Table.Holds.rows?_eq` — the rows that a table holds are the ones read from it.
* `Table.Holds.unique` — name, schema and rows determine a table.
-/

namespace TableStore

/-! ## Reading rows -/

/-- The rows of a table, read position by position from its columns; there are none if some column
lacks a value for some row. -/
def Table.rows? (table : Table) : Option (List (List Value)) :=
  (List.range table.rowCount).mapM fun row => table.columns.mapM (·.get? row)

/-- The name and type of a stored column. -/
def Column.field (column : Column) : Field :=
  ⟨column.name, column.type⟩

/-- A column is determined by its name, its type and the values it stands for. -/
theorem Column.eq_of_values {a b : Column} (hfield : a.field = b.field)
    (hvalues : a.values = b.values) : a = b := by
  obtain ⟨name, type, cells, tied⟩ := a
  obtain ⟨name', type', cells', tied'⟩ := b
  obtain ⟨rfl, rfl⟩ : name = name' ∧ type = type' := by simpa [field] using hfield
  have hcells : cells = cells' := Cells.eq_of_values (tied.trans tied'.symm) hvalues
  subst hcells
  rfl

/-! ## Columns in step -/

/-- The columns have the names and types of the fields, and hold at each position the values that
the rows have there. -/
structure Stored (fields : List Field) (columns : List Column) (rows : List (List Value)) :
    Prop where
  fields_eq : columns.map Column.field = fields
  width : ∀ row ∈ rows, row.length = fields.length
  values_eq : ∀ {position : Nat} {column : Column}, columns[position]? = some column →
    column.values.map some = rows.map (·[position]?)

namespace Stored

variable {fields : List Field} {columns : List Column} {rows : List (List Value)}

theorem length_columns (h : Stored fields columns rows) : columns.length = fields.length := by
  rw [← h.fields_eq, List.length_map]

/-- The field at a column's position describes it. -/
theorem field_eq (h : Stored fields columns rows) {position : Nat} {column : Column}
    (hcolumn : columns[position]? = some column) : fields[position]? = some column.field := by
  rw [← h.fields_eq, List.getElem?_map, hcolumn, Option.map_some]

/-- There is a column for each field. -/
theorem exists_column (h : Stored fields columns rows) {position : Nat} {field : Field}
    (hfield : fields[position]? = some field) :
    ∃ column, columns[position]? = some column ∧ column.field = field := by
  rw [← h.fields_eq, List.getElem?_map] at hfield
  exact Option.map_eq_some_iff.mp hfield

theorem length_values (h : Stored fields columns rows) {position : Nat} {column : Column}
    (hcolumn : columns[position]? = some column) : column.length = rows.length := by
  have hlen := congrArg List.length (h.values_eq hcolumn)
  simpa using hlen

/-- A column's value in a row is the row's value at the column's position. -/
theorem getElem?_values (h : Stored fields columns rows) {position : Nat} {column : Column}
    (hcolumn : columns[position]? = some column) (row : Nat) :
    column.get? row = rows[row]?.bind (·[position]?) := by
  have hrow := congrArg (·[row]?) (h.values_eq hcolumn)
  simp only [List.getElem?_map] at hrow
  rw [Column.get?_eq_getElem?]
  cases hv : column.values[row]? <;> cases hr : rows[row]? <;> simp_all

/-- Each row has the types of the fields. -/
theorem types_eq (h : Stored fields columns rows) {row : List Value} (hrow : row ∈ rows) :
    row.map Value.type = fields.map Field.type := by
  obtain ⟨i, hi⟩ := List.getElem?_of_mem hrow
  refine List.ext_getElem (by simp [h.width row hrow]) fun position hp hq => ?_
  rw [List.length_map] at hp hq
  -- the value comes from the column at its position, which has the type of the field
  obtain ⟨column, hcolumn, hfield⟩ := h.exists_column (List.getElem?_eq_getElem hq)
  have hcell := h.getElem?_values hcolumn i
  rw [hi, Option.bind_some, List.getElem?_eq_getElem hp, Column.get?_eq_getElem?] at hcell
  have htype := Column.type_of_mem_values (List.mem_of_getElem? hcell)
  rw [List.getElem_map, List.getElem_map, htype, ← hfield]
  rfl

/-- Each row has a value of a field's type at the field's position. -/
theorem exists_value (h : Stored fields columns rows) {row : List Value} (hrow : row ∈ rows)
    {position : Nat} {field : Field} (hfield : fields[position]? = some field) :
    ∃ value, row[position]? = some value ∧ value.type = field.type := by
  have htype := congrArg (·[position]?) (h.types_eq hrow)
  simp only [List.getElem?_map, hfield, Option.map_some] at htype
  exact Option.map_eq_some_iff.mp htype

/-- The rows determine the columns. -/
theorem unique {columns' : List Column} (h : Stored fields columns rows)
    (h' : Stored fields columns' rows) : columns = columns' := by
  refine List.ext_getElem (by rw [h.length_columns, h'.length_columns]) fun position hp hq => ?_
  have hcolumn := List.getElem?_eq_getElem hp
  have hcolumn' := List.getElem?_eq_getElem hq
  refine Column.eq_of_values ?_ ?_
  · exact Option.some.inj ((h.field_eq hcolumn).symm.trans (h'.field_eq hcolumn'))
  · have hvalues := (h.values_eq hcolumn).trans (h'.values_eq hcolumn').symm
    exact (Option.some_injective Value).list_map hvalues

end Stored

/-! ## A step on each column -/

/-- If a step succeeds on every column, with a known effect on its values, then it succeeds on all
columns one by one, with that effect on each. -/
theorem Table.eachColumn_ok {α : Type} {step : Column → α → Except Error Column}
    (effect : α → List Value → List Value) {columns : List Column} {xs : List α}
    (h : List.Forall₂ (fun column x => ∃ after, step column x = .ok after ∧
      after.field = column.field ∧ after.values = effect x column.values) columns xs) :
    ∃ columns', Table.eachColumn step columns xs = .ok () columns' ∧
      columns'.map Column.field = columns.map Column.field ∧
      ∀ {position : Nat} {after : Column}, columns'[position]? = some after →
        ∃ column x, columns[position]? = some column ∧ xs[position]? = some x ∧
          after.values = effect x column.values := by
  induction h with
  | nil => exact ⟨[], rfl, rfl, by simp⟩
  | @cons column x columns xs hstep _ ih =>
    obtain ⟨after, hok, hfield, hvalues⟩ := hstep
    obtain ⟨columns', hrest, hfields, heach⟩ := ih
    refine ⟨after :: columns', ?_, by simp [hfield, hfields], ?_⟩
    · simp only [Table.eachColumn, hok, hrest]
    · intro position found hfound
      cases position with
      | zero =>
        obtain rfl : after = found := by simpa using hfound
        exact ⟨column, x, rfl, rfl, hvalues⟩
      | succ position => exact heach (by simpa using hfound)

/-! ## Tables -/

/-- The columns of a table hold the rows, and the counter is their number. -/
structure Table.Holds (table : Table) (rows : List (List Value)) : Prop where
  stored : Stored table.schema.fields table.columns rows
  count : table.rowCount = rows.length

namespace Table

variable {table : Table} {rows : List (List Value)}

/-- A table without rows holds none. -/
theorem holds_empty (name : String) (schema : Schema) : (Table.empty name schema).Holds [] where
  stored :=
    { fields_eq := by simp [Table.empty, Column.field, Column.empty, Function.comp_def]
      width := by simp
      values_eq := by
        intro position column hcolumn
        obtain ⟨field, -, rfl⟩ : ∃ field ∈ schema.fields, Column.empty field.name field.type = column :=
          List.mem_map.mp (List.mem_of_getElem? hcolumn)
        rw [Column.values_empty, List.map_nil, List.map_nil] }
  count := rfl

namespace Holds

/-- A cell is the value of a row at a position. -/
theorem cell?_eq (h : table.Holds rows) (row position : Nat) :
    table.cell? row position = rows[row]?.bind (·[position]?) := by
  unfold cell?
  cases hcolumn : table.columns[position]? with
  | some column => exact h.stored.getElem?_values hcolumn row
  | none =>
    -- no column stands there, and the rows end before it
    have hout : table.schema.fields.length ≤ position := by
      rw [← h.stored.length_columns]
      exact List.getElem?_eq_none_iff.mp hcolumn
    cases hrow : rows[row]? with
    | none => rfl
    | some values =>
      have hwidth := h.stored.width values (List.mem_of_getElem? hrow)
      simp [hwidth, hout]

/-- The rows that a table holds are the ones read from its columns. -/
theorem rows?_eq (h : table.Holds rows) : table.rows? = some rows := by
  have hrow : ∀ (i : Nat) (hi : i < rows.length),
      table.columns.mapM (·.get? i) = some rows[i] := by
    intro i hi
    have hlen : table.columns.length = rows[i].length := by
      rw [h.stored.length_columns, h.stored.width _ (List.getElem_mem hi)]
    -- the columns of the table stand beside the values of the row
    rw [mapM_some_iff, List.forall₂_iff_get]
    refine ⟨hlen, fun position hp hq => ?_⟩
    rw [List.get_eq_getElem, List.get_eq_getElem,
      h.stored.getElem?_values (List.getElem?_eq_getElem hp), List.getElem?_eq_getElem hi,
      Option.bind_some]
    exact List.getElem?_eq_getElem hq
  unfold rows?
  rw [h.count]
  exact mapM_range_some hrow

/-- Name, schema and rows determine a table. -/
theorem unique {table' : Table} (h : table.Holds rows) (h' : table'.Holds rows)
    (hname : table.name = table'.name) (hschema : table.schema = table'.schema) :
    table = table' := by
  obtain ⟨name, schema, columns, rowCount⟩ := table
  obtain ⟨name', schema', columns', rowCount'⟩ := table'
  obtain rfl : name = name' := hname
  obtain rfl : schema = schema' := hschema
  obtain rfl : columns = columns' := h.stored.unique h'.stored
  obtain rfl : rowCount = rowCount' := h.count.trans h'.count.symm
  rfl

end Holds

end Table

end TableStore
