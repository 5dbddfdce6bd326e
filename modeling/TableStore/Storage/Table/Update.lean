import TableStore.Storage.Table.Basic

/-!
# Updating rows

An update assigns values to columns in every row that satisfies a predicate. Assignments are carried
out in order, so the last one to a column counts. An assignment to the primary key is refused if it
would give two rows the same key.

* `Assignment` — a column and the value it gets.
* `Table.collidingKey?` — the primary key that an update would store twice.
* `Table.update` — the update; it answers with the number of rows.
-/

namespace TableStore

/-- A column and the value it gets. -/
structure Assignment where
  column : String
  value : Value
  deriving DecidableEq, Repr

namespace Table

/-- The position of an assignment's column, whose type the value has. -/
def resolveAssignment (table : Table) (assignment : Assignment) : Except Error (Nat × Value) := do
  let (field, position) ← table.locate assignment.column
  if assignment.value.type ≠ field.type then
    throw (.wrongType assignment.value field.name field.type)
  return (position, assignment.value)

/-- The primary key that an update of the meant rows would store twice: there is more than one of
them, or there is one and another row has the key. Of several assignments to the key the last one
counts. -/
def collidingKey? (table : Table) (assignments : List (Nat × Value)) (mask : Mask) :
    Option Value := do
  let position ← table.schema.keyPosition?
  let (_, key) ← assignments.reverse.find? (·.1 == position)
  let taken := mask.others.rows.any fun row => table.cell? row position == some key
  match mask.rows.length with
  | 0 => none
  | 1 => if taken then some key else none
  | _ => some key

/-- Writes a value into a row of the column at a position. Where no column stands, the row has
nothing to be replaced. -/
def write (position : Nat) (value : Value) (row : Nat) (columns : List Column) :
    EStateM.Result Error (List Column) Unit :=
  match columns[position]? with
  | none => .error (.missingRow row) columns
  | some column =>
    match column.set row value with
    | .error cause => .error cause columns
    | .ok column' => .ok () (columns.set position column')

/-- Carries out assignments one by one, each in all the rows. -/
def writeAll (assignments : List (Nat × Value)) (rows : List Nat) :
    EStateM Error (List Column) Unit :=
  assignments.forM fun (position, value) => rows.forM (write position value)

/-- Assigns values in every row that satisfies a predicate, and answers with the number of rows. -/
def update (table : Table) (assignments : List Assignment) (predicate : Predicate) : Change Nat :=
  let checked : Except Error (List (Nat × Value) × Mask) := do
    let resolved ← assignments.mapM table.resolveAssignment
    let mask ← table.satisfying predicate
    match table.collidingKey? resolved mask with
    | some key => throw (table.keyTaken key)
    | none => return (resolved, mask)
  match checked with
  | .error cause => .error cause table
  | .ok (resolved, mask) =>
    match (writeAll resolved mask.rows).run table.columns with
    | .error cause columns => .error cause { table with columns }
    | .ok () columns => .ok mask.rows.length { table with columns }

end Table

end TableStore
