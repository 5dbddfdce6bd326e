import TableStore.Data.Row
import TableStore.Storage.Table.Basic

/-!
# Selecting rows

A selection reads the rows that satisfy a predicate, in stored order, and keeps the columns of a
projection. A column that the projection names more than once stands at its first place only.

* `Projection` — all columns, or a list of names.
* `Table.select` — the selected rows.
-/

namespace TableStore

/-- The columns that a selection keeps. -/
inductive Projection where
  /-- All columns in schema order. -/
  | all
  | columns (names : List String)
  deriving DecidableEq, Repr

namespace Table

/-- Resolves column names one by one; `found` are the positions of those named before. -/
def resolveDistinct (table : Table) (found : List Nat) : List String → Except Error (List Nat)
  | [] => .ok found
  | name :: names => do
    let (_, position) ← table.locate name
    table.resolveDistinct (if position ∈ found then found else found ++ [position]) names

/-- The positions of the columns that a projection keeps. -/
def projected (table : Table) : Projection → Except Error (List Nat)
  | .all => .ok (List.range table.columns.length)
  | .columns names => table.resolveDistinct [] names

/-- A column's name and its value in a row. -/
def entry (table : Table) (row position : Nat) : Except Error (String × Value) :=
  match table.columns[position]?.bind fun column => (column.get? row).map (column.name, ·) with
  | some found => .ok found
  | none => .error (.missingRow row)

/-- The rows that satisfy a predicate, in stored order, with the columns of a projection. The
projection is resolved before the predicate. -/
def select (table : Table) (projection : Projection) (predicate : Predicate) :
    Except Error (List Row) := do
  let positions ← table.projected projection
  let mask ← table.satisfying predicate
  mask.rows.mapM fun row => do
    let entries ← positions.mapM (table.entry row)
    return Row.ofList entries

end Table

end TableStore
