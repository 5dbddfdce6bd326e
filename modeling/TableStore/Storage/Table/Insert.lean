import TableStore.Storage.Table.Basic

/-!
# Inserting rows

An insertion gives tuples of values, matched with a list of columns or with all columns in schema
order. The columns are resolved first, then each tuple is checked and arranged in schema order, then
the primary keys are compared, and only then the rows are stored.

* `Table.targets` — the columns that the values of a tuple go to.
* `Table.arrange` — a tuple as a row in schema order.
* `Table.repeatedKey?` — the first new primary key that is stored already or comes twice.
* `Table.insert` — the insertion; it answers with the number of rows.
-/

namespace TableStore.Table

/-- Resolves column names one by one; `found` are the columns named before. -/
def resolve (table : Table) (found : List (Field × Nat)) :
    List String → Except Error (List (Field × Nat))
  | [] => .ok found
  | name :: names => do
    let located ← table.locate name
    if located ∈ found then throw (.columnRepeated name)
    table.resolve (found ++ [located]) names

/-- The columns that the values of a tuple go to, with their positions. A list of columns names each
column of the schema exactly once; without one, the values go to all columns in order. -/
def targets (table : Table) (columns : Option (List String)) :
    Except Error (List (Field × Nat)) :=
  match columns with
  | none => .ok table.schema.fields.zipIdx
  | some names => do
    let found ← table.resolve [] names
    match table.schema.fields.zipIdx.find? fun located => located ∉ found with
    | some (field, _) => throw (.columnMissing field.name table.name)
    | none => return found

/-- Checks the types of a tuple's values against the columns they go to, in the tuple's order. -/
def checkTypes : List (Value × Field × Nat) → Except Error Unit
  | [] => .ok ()
  | (value, field, _) :: rest =>
    if value.type ≠ field.type then .error (.wrongType value field.name field.type)
    else checkTypes rest

/-- A tuple as a row in schema order. -/
def arrange (table : Table) (targets : List (Field × Nat)) (tuple : List Value) :
    Except Error (List Value) := do
  if tuple.length ≠ targets.length then throw (.wrongArity tuple.length targets.length)
  let placed := tuple.zip targets
  checkTypes placed
  table.schema.fields.zipIdx.mapM fun (_, position) =>
    match placed.find? fun (_, _, target) => target == position with
    | some (value, _) => .ok value
    | none => .error .incompleteRow

/-- The first new primary key, in the order of the rows, that is stored already or comes twice. -/
def repeatedKey? (table : Table) (rows : List (List Value)) : Option Value :=
  match table.schema.keyPosition? with
  | none => none
  | some position =>
    let stored := (List.range table.rowCount).filterMap fun row => table.cell? row position
    firstRepeat? stored (rows.filterMap (·[position]?))

/-- Stores complete rows behind the others. -/
def store : List (List Value) → Table → Change Unit
  | [], table => .ok () table
  | row :: rows, table =>
    match eachColumn Column.push table.columns row with
    | .error cause columns => .error cause { table with columns }
    | .ok () columns => store rows { table with columns, rowCount := table.rowCount + 1 }

/-- Inserts a row for each tuple, and answers with their number. -/
def insert (table : Table) (columns : Option (List String)) (tuples : List (List Value)) :
    Change Nat :=
  let checked : Except Error (List (List Value)) := do
    let targets ← table.targets columns
    let rows ← tuples.mapM (table.arrange targets)
    match table.repeatedKey? rows with
    | some key => throw (table.keyTaken key)
    | none => return rows
  match checked with
  | .error cause => .error cause table
  | .ok rows =>
    match store rows table with
    | .error cause table' => .error cause table'
    | .ok () table' => .ok rows.length table'

end TableStore.Table
