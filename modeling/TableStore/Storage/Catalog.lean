import TableStore.Storage.Table.Basic

/-!
# Catalogs

A catalog holds tables by name, in the order of their names. Names are compared by code points.

* `Catalog` — a catalog; `Catalog.empty` holds no table.
* `Catalog.create`, `Catalog.drop` — add a table without rows, take out a table.
* `Catalog.find`, `Catalog.alter` — read a table, change a table.
-/

namespace TableStore

/-- A named collection of tables, in the order of their names. -/
structure Catalog where
  name : String
  tables : List Table

namespace Catalog

/-- A catalog without tables. -/
def empty (name : String) : Catalog :=
  ⟨name, []⟩

/-- The names of the tables, in increasing order. -/
def tableNames (catalog : Catalog) : List String :=
  catalog.tables.map (·.name)

/-- The table of a name. -/
def find? (catalog : Catalog) (name : String) : Option Table :=
  catalog.tables.find? (·.name == name)

/-- The table of a name, or the failure that there is none. -/
def find (catalog : Catalog) (name : String) : Except Error Table :=
  match catalog.find? name with
  | some table => .ok table
  | none => .error (.tableNotFound name)

/-- Puts a table in front of the first one with a greater name. -/
def place (table : Table) : List Table → List Table
  | [] => [table]
  | other :: rest =>
    if table.name < other.name then table :: other :: rest else other :: place table rest

/-- Adds a table without rows. -/
def create (catalog : Catalog) (name : String) (schema : Schema) : Except Error Catalog :=
  match catalog.find? name with
  | some _ => .error (.tableExists name)
  | none => .ok { catalog with tables := place (Table.empty name schema) catalog.tables }

/-- Takes out the table of a name. -/
def drop (catalog : Catalog) (name : String) : Except Error Catalog :=
  match catalog.find? name with
  | some _ => .ok { catalog with tables := catalog.tables.filter (·.name != name) }
  | none => .error (.tableNotFound name)

/-- Puts a table in the place of the one of its name. -/
def replace (catalog : Catalog) (table : Table) : Catalog :=
  { catalog with
    tables := catalog.tables.map fun other => if other.name = table.name then table else other }

/-- Changes the table of a name. The table takes its place again as the change leaves it, whether
the change succeeds or fails. -/
def alter {α : Type} (catalog : Catalog) (name : String) (change : Table → Table.Change α) :
    EStateM.Result Error Catalog α :=
  match catalog.find? name with
  | none => .error (.tableNotFound name) catalog
  | some table =>
    match change table with
    | .ok answer table' => .ok answer (catalog.replace table')
    | .error cause table' => .error cause (catalog.replace table')

end Catalog

end TableStore
