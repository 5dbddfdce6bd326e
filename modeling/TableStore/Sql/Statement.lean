import TableStore.Storage.Table.Select
import TableStore.Storage.Table.Update

/-!
# Statements

What a text asks for once it is read.

* `Sql.Statement` — a statement.
* `Sql.Statement.title` — the words that name its kind.
* `Sql.Statement.table` — the table it is about.
-/

namespace TableStore.Sql

/-- A column of a table to be created. -/
structure Declaration where
  field : Field
  /-- Whether the column is marked as the primary key. -/
  isKey : Bool
  deriving DecidableEq, Repr

/-- The second table of a selection, and the columns it is joined on. -/
structure Join where
  table : String
  left : String
  right : String
  deriving DecidableEq, Repr

/-- A statement. A condition that is left out holds of every row. -/
inductive Statement where
  | createTable (table : String) (declarations : List Declaration)
  | dropTable (table : String)
  | insert (table : String) (columns : Option (List String)) (tuples : List (List Value))
  | select (projection : Projection) (table : String) (join : Option Join) (condition : Predicate)
  | update (table : String) (assignments : List Assignment) (condition : Predicate)
  | delete (table : String) (condition : Predicate)
  deriving DecidableEq, Repr

namespace Statement

/-- The words that name a statement's kind. -/
def title : Statement → String
  | .createTable .. => "CREATE TABLE"
  | .dropTable .. => "DROP TABLE"
  | .insert .. => "INSERT"
  | .select .. => "SELECT"
  | .update .. => "UPDATE"
  | .delete .. => "DELETE"

/-- The table a statement is about; of a join, the first. -/
def table : Statement → String
  | .createTable table _ | .dropTable table | .insert table _ _ | .select _ table _ _
  | .update table _ _ | .delete table _ => table

end Statement

end TableStore.Sql
