import TableStore.Error
import TableStore.Storage.Cells

/-!
# Stored columns

A table stores its values column by column. A column keeps the values of its type in cells; seen from
outside it is a list of values.

* `Column` — a name, a type and cells of that type; `Column.values` is the list it stands for.
* `Column.push`, `Column.set`, `Column.remove` — add a value at the end, replace the value of a row,
  take out the rows that a mask means. A refused step leaves the column as it was.
-/

namespace TableStore

/-- A stored column: its name, its type and its values from the first row to the last. -/
structure Column where
  name : String
  type : ValueType
  cells : Cells
  tied : cells.type = type

namespace Column

/-- A column without rows. -/
def empty (name : String) (type : ValueType) : Column :=
  ⟨name, type, .empty type, Cells.type_empty type⟩

/-- The number of rows. -/
def length (column : Column) : Nat :=
  column.cells.length

/-- The value of a row. -/
def get? (column : Column) (row : Nat) : Option Value :=
  column.cells.get? row

/-- The values from the first row to the last. -/
def values (column : Column) : List Value :=
  column.cells.values

/-- Adds a value behind the last row. Its type is compared with the column's, and then the cells have
to take it. -/
def push (column : Column) (value : Value) : Except Error Column :=
  if value.type ≠ column.type then .error (.wrongType value column.name column.type)
  else
    match h : column.cells.push? value with
    | some cells => .ok ⟨column.name, column.type, cells, (Cells.type_push? h).trans column.tied⟩
    | none => .error .storageMismatch

/-- Replaces the value of a row. A row that does not exist is reported before a wrong type. -/
def set (column : Column) (row : Nat) (value : Value) : Except Error Column :=
  if column.length ≤ row then .error (.rowOutOfBounds row column.name)
  else if value.type ≠ column.type then .error (.wrongType value column.name column.type)
  else
    match h : column.cells.set? row value with
    | some cells => .ok ⟨column.name, column.type, cells, (Cells.type_set? h).trans column.tied⟩
    | none => .error .storageMismatch

/-- Takes out the rows that the mask means; the mask covers the column exactly. -/
def remove (column : Column) (mask : Mask) : Except Error Column :=
  if mask.length = column.length then
    .ok ⟨column.name, column.type, column.cells.leave mask,
      (Cells.type_leave mask column.cells).trans column.tied⟩
  else
    .error (.wrongMaskLength mask.length column.name column.length)

/-! ## The list that a column stands for -/

@[simp] theorem values_empty (name : String) (type : ValueType) : (empty name type).values = [] :=
  Cells.values_empty type

@[simp] theorem length_values (column : Column) : column.values.length = column.length :=
  Cells.length_values column.cells

theorem get?_eq_getElem? (column : Column) (row : Nat) : column.get? row = column.values[row]? :=
  Cells.get?_eq_getElem? column.cells row

/-- Every value of a column has its type. -/
theorem type_of_mem_values {column : Column} {value : Value} (h : value ∈ column.values) :
    value.type = column.type :=
  (Cells.type_of_mem_values h).trans column.tied

/-- A value of the column's type goes to the end, and any other value is refused. The cells are of
the column's type, so they take what the column takes. -/
theorem push_eq (column : Column) (value : Value) :
    (∃ after, column.push value = .ok after ∧ value.type = column.type ∧
        after.name = column.name ∧ after.type = column.type ∧
        after.values = column.values ++ [value]) ∨
      (column.push value = .error (.wrongType value column.name column.type) ∧
        value.type ≠ column.type) := by
  unfold push
  split
  · rename_i htype
    exact .inr ⟨rfl, htype⟩
  · rename_i htype
    have htype : value.type = column.type := Decidable.of_not_not htype
    obtain ⟨cells, hpush, hvalues⟩ := Cells.exists_push? (htype.trans column.tied.symm)
    split
    · rename_i after hafter
      rw [hpush] at hafter
      cases hafter
      exact .inl ⟨_, rfl, htype, rfl, rfl, hvalues⟩
    · rename_i hnone
      rw [hpush] at hnone
      cases hnone

/-- A value of the column's type takes the place of the row's value. A row that does not exist and a
value of another type are refused, and the row is looked at first. -/
theorem set_eq (column : Column) (row : Nat) (value : Value) :
    (∃ after, column.set row value = .ok after ∧ row < column.length ∧
        value.type = column.type ∧ after.name = column.name ∧ after.type = column.type ∧
        after.values = column.values.set row value) ∨
      (column.set row value = .error (.rowOutOfBounds row column.name) ∧ column.length ≤ row) ∨
      (column.set row value = .error (.wrongType value column.name column.type) ∧
        row < column.length ∧ value.type ≠ column.type) := by
  unfold set
  split
  · rename_i hrow
    exact .inr (.inl ⟨rfl, hrow⟩)
  rename_i hrow
  have hrow : row < column.length := Nat.lt_of_not_le hrow
  split
  · rename_i htype
    exact .inr (.inr ⟨rfl, hrow, htype⟩)
  · rename_i htype
    have htype : value.type = column.type := Decidable.of_not_not htype
    obtain ⟨cells, hset, hvalues⟩ := Cells.exists_set? (htype.trans column.tied.symm) row
    split
    · rename_i after hafter
      rw [hset] at hafter
      cases hafter
      exact .inl ⟨_, rfl, hrow, htype, rfl, rfl, hvalues⟩
    · rename_i hnone
      rw [hset] at hnone
      cases hnone

/-- A mask of the column's length leaves the values of the other rows, and any other mask is
refused. -/
theorem remove_eq (column : Column) (mask : Mask) :
    (∃ after, column.remove mask = .ok after ∧ mask.length = column.length ∧
        after.name = column.name ∧ after.type = column.type ∧
        after.values = mask.leave column.values) ∨
      (column.remove mask =
          .error (.wrongMaskLength mask.length column.name column.length) ∧
        mask.length ≠ column.length) := by
  unfold remove
  split
  · rename_i h
    exact .inl ⟨_, rfl, h, rfl, rfl, Cells.values_leave mask column.cells⟩
  · rename_i h
    exact .inr ⟨rfl, h⟩

end Column

end TableStore
