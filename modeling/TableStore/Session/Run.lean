import TableStore.Session.Event
import TableStore.Session.Reply
import TableStore.Sql.Grammar
import TableStore.Storage.Catalog
import TableStore.Storage.Table.Delete
import TableStore.Storage.Table.Insert

/-!
# Running statements

A text is read as one statement, which is run on a catalog. Whatever happens, there is a reply;
events tell what happened on the way, also on the way to a failure.

* `Session` — a catalog and the events so far.
* `Sql.Statement.run` — runs a statement.
* `Catalog.execute` — reads a text and runs it; `Step` is what comes of it.
-/

namespace TableStore

/-- A catalog, and the events since the session began. -/
structure Session where
  catalog : Catalog
  events : List Event

namespace Session

/-- A part of running a statement. What it has changed stays changed if it fails. -/
abbrev Action (α : Type) := EStateM Error Session α

/-- Adds an event. -/
def emit (event : Event) : Action Unit :=
  modify fun session => { session with events := session.events ++ [event] }

/-- The table of a name. -/
def find (name : String) : Action Table := do
  ofExcept ((← get).catalog.find name)

/-- Changes the table of a name. -/
def alter {α : Type} (name : String) (change : Table → Table.Change α) : Action α :=
  fun session =>
    match session.catalog.alter name change with
    | .ok answer catalog => .ok answer { session with catalog }
    | .error cause catalog => .error cause { session with catalog }

/-- Adds a table with the declared columns. Of several columns that are marked as the primary key
the last one is it, and an event tells of each that another one replaces. -/
def createTable (name : String) (declarations : List Sql.Declaration) : Action Reply := do
  let keys := (declarations.filter (·.isKey)).map (·.field.name)
  (keys.zip keys.tail).forM fun (ignored, kept) => emit (.keyReplaced name ignored kept)
  let schema ← ofExcept (Schema.make (declarations.map (·.field)) keys.getLast?)
  let session ← get
  let catalog ← ofExcept (session.catalog.create name schema)
  emit (.creatingTable catalog.name name)
  modify fun session => { session with catalog }
  return .done

/-- Takes out a table. -/
def dropTable (name : String) : Action Reply := do
  let session ← get
  let catalog ← ofExcept (session.catalog.drop name)
  modify fun session => { session with catalog }
  emit (.droppedTable catalog.name name)
  return .done

/-- Selects rows of a table. A second table is not read, and need not exist. -/
def select (projection : Projection) (name : String) (join : Option Sql.Join)
    (condition : Predicate) : Action Reply := do
  let table ← find name
  if let some second := join then emit (.joinIgnored name second.table)
  return .selected (← ofExcept (table.select projection condition))

end Session

/-- Runs a statement. -/
def Sql.Statement.run : Statement → Session.Action Reply
  | .createTable table declarations => Session.createTable table declarations
  | .dropTable table => Session.dropTable table
  | .insert table columns tuples => do
    return .inserted (← Session.alter table fun t => t.insert columns tuples)
  | .select projection table join condition => Session.select projection table join condition
  | .update table assignments condition => do
    return .affected (← Session.alter table fun t => t.update assignments condition) "updated"
  | .delete table condition => do
    return .affected (← Session.alter table fun t => t.delete condition) "deleted"

/-- What comes of a text: the catalog afterwards, the reply, and the events. -/
structure Step where
  catalog : Catalog
  reply : Reply
  events : List Event

/-- Reads a text as one statement and runs it. -/
def Catalog.execute (catalog : Catalog) (text : String) : Step :=
  match Sql.Statement.ofText text with
  | .error cause => ⟨catalog, .ofError (.malformed cause), [.rejected cause]⟩
  | .ok statement =>
    match statement.run.run ⟨catalog, [.executing statement.title]⟩ with
    | .ok reply session => ⟨session.catalog, reply, session.events⟩
    | .error cause session => ⟨session.catalog, .ofError cause, session.events⟩

end TableStore
