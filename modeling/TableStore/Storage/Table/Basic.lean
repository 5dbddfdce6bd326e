import TableStore.Storage.Column
import TableStore.Storage.Predicate

/-!
# Tables

A table stores its rows column by column, in the order in which they were inserted. An operation
that changes a table checks everything before it stores anything; it yields the table as it stands
afterwards also when it fails, so that "a failed operation changes nothing" is a law of the
operations and not of their type.

* `Table` — a table; `Table.empty` has no rows.
* `Table.Change` — the answer or the cause of failure of an operation, and the table afterwards.
* `Table.satisfying` — the rows of which a predicate holds, as a mask.
-/

namespace TableStore

/-- A named table: its schema, its stored columns and the number of its rows. -/
structure Table where
  name : String
  schema : Schema
  columns : List Column
  rowCount : Nat

namespace Table

/-- What an operation yields: an answer or a cause, and the table afterwards in both cases. -/
abbrev Change (α : Type) := EStateM.Result Error Table α

/-- A table without rows. -/
def empty (name : String) (schema : Schema) : Table :=
  ⟨name, schema, schema.fields.map fun field => Column.empty field.name field.type, 0⟩

/-- The value of a row in the column at a position. -/
def cell? (table : Table) (row position : Nat) : Option Value :=
  table.columns[position]?.bind (·.get? row)

/-- The column of a name, with its position. -/
def locate (table : Table) (name : String) : Except Error (Field × Nat) :=
  match table.schema.locate? name with
  | some located => .ok located
  | none => .error (.columnNotFound name table.name)

/-- The rows of which a predicate holds. -/
def satisfying (table : Table) (predicate : Predicate) : Except Error Mask :=
  match predicate.column? with
  | none => .ok (List.replicate table.rowCount true)
  | some name => do
    let (field, position) ← table.locate name
    predicate.check field
    (List.range table.rowCount).mapM fun row => predicate.evaluate (table.cell? row position)

/-- The failure of storing a primary key twice. -/
def keyTaken (table : Table) (value : Value) : Error :=
  .duplicateKey (table.schema.primaryKey.getD "") table.name value

/-- Applies a step to each column with its argument, in order. The first refusal ends it: the
columns before it have been changed, and the others have not. -/
def eachColumn {α : Type} (step : Column → α → Except Error Column) :
    List Column → List α → EStateM.Result Error (List Column) Unit
  | column :: columns, x :: xs =>
    match step column x with
    | .error cause => .error cause (column :: columns)
    | .ok column' =>
      match eachColumn step columns xs with
      | .error cause columns' => .error cause (column' :: columns')
      | .ok () columns' => .ok () (column' :: columns')
  | columns, _ => .ok () columns

end Table

end TableStore
