import TableStore.Storage.Table.Basic

/-!
# Deleting rows

* `Table.delete` — takes out every row that satisfies a predicate, and answers with their number.
-/

namespace TableStore.Table

/-- Takes out every row that satisfies a predicate, and answers with their number. -/
def delete (table : Table) (predicate : Predicate) : Change Nat :=
  match table.satisfying predicate with
  | .error cause => .error cause table
  | .ok mask =>
    let deleted := mask.rows.length
    if deleted = 0 then .ok 0 table
    else
      match eachColumn Column.remove table.columns (table.columns.map fun _ => mask) with
      | .error cause columns => .error cause { table with columns }
      | .ok () columns => .ok deleted { table with columns, rowCount := table.rowCount - deleted }

end TableStore.Table
