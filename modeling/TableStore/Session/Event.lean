import TableStore.Error

/-!
# Events

What happens while a statement is read and run, for a log.

* `Event` — an event; `Event.level`, `Event.message` and `Event.fields` are what a log shows.
-/

namespace TableStore

/-- Something that happens while a statement is read and run. -/
inductive Event where
  /-- The text is no statement. -/
  | rejected (cause : Sql.SyntaxError)
  /-- A statement of the kind with this title is about to run. -/
  | executing (title : String)
  | creatingTable (catalog table : String)
  | droppedTable (catalog table : String)
  /-- Of two columns that are marked as the primary key, the later one is kept. -/
  | keyReplaced (table ignored kept : String)
  /-- A selection names a second table, which is not read. -/
  | joinIgnored (table joined : String)
  deriving DecidableEq, Repr

namespace Event

/-- How much attention an event deserves. -/
inductive Level where
  | debug
  | info
  | warn
  deriving DecidableEq, Repr

/-- The name of a level. -/
def Level.label : Level → String
  | .debug => "DEBUG"
  | .info => "INFO"
  | .warn => "WARN"

/-- The level of an event. -/
def level : Event → Level
  | .rejected _ | .executing _ => .debug
  | .creatingTable .. | .droppedTable .. => .info
  | .keyReplaced .. | .joinIgnored .. => .warn

/-- The message of an event. -/
def message : Event → String
  | .rejected _ => "rejected statement"
  | .executing _ => "executing statement"
  | .creatingTable .. => "creating table"
  | .droppedTable .. => "dropped table"
  | .keyReplaced .. => "multiple PRIMARY KEY columns, keeping the last one"
  | .joinIgnored .. => "INNER JOIN is not executed; reading the FROM table only"

/-- The details of an event, by name and in order. -/
def fields : Event → List (String × String)
  | .rejected cause => [("error", (Error.malformed cause).message)]
  | .executing title => [("kind", title)]
  | .creatingTable catalog table => [("catalog", catalog), ("table", table)]
  | .droppedTable catalog table => [("catalog", catalog), ("table", table)]
  | .keyReplaced table ignored kept => [("table", table), ("ignored", ignored), ("kept", kept)]
  | .joinIgnored table joined => [("table", table), ("joined", joined)]

end Event

end TableStore
