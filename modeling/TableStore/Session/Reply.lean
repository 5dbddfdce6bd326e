import TableStore.Data.Row
import TableStore.Error
import TableStore.Json.Layout

/-!
# Replies

The answer to a statement, in one form for every kind of statement and for failures.

* `Reply` — an answer; `Reply.ofFailure` is the answer to a statement that failed.
* `Value.json`, `Row.json`, `Reply.json` — values, rows and replies as JSON trees. A value is a bare
  number, text or truth value, and a part that a reply does not have is left out.
-/

namespace TableStore

/-- The answer to a statement. -/
structure Reply where
  success : Bool
  rows : Option (List Row)
  rowsAffected : Option Nat
  message : Option String
  deriving DecidableEq, Repr

namespace Reply

/-- The message of a statement that succeeded. -/
def okMessage : String := "RESULT OK"

/-- The message for a text that is no statement, whatever the cause. -/
def malformedMessage : String := "ERROR: invalid or unsupported syntax"

/-- A statement succeeded. -/
def done : Reply :=
  ⟨true, none, none, some okMessage⟩

/-- Rows were inserted. -/
def inserted (count : Nat) : Reply :=
  ⟨true, none, some count, some okMessage⟩

/-- Rows were selected. -/
def selected (rows : List Row) : Reply :=
  ⟨true, some rows, none, some okMessage⟩

/-- Rows were changed in the way that `verb` says. -/
def affected (count : Nat) (verb : String) : Reply :=
  ⟨true, none, some count, some (okMessage ++ ": " ++ toString count ++ " rows " ++ verb)⟩

/-- A request was refused. -/
def refused (message : String) : Reply :=
  ⟨false, none, none, some message⟩

/-- A statement failed. The cause is told, except why a text is no statement. -/
def ofFailure (failure : Failure) : Reply :=
  if failure.kind = .malformed then refused malformedMessage
  else refused ("ERROR: " ++ failure.message)

/-- A statement failed. -/
def ofError (error : Error) : Reply :=
  ofFailure error.failure

end Reply

/-! ## JSON -/

/-- A value as JSON. -/
def Value.json : Value → Json String
  | .integer n => .number (Decimal.write n)
  | .text s => .text s
  | .boolean b => .boolean b

/-- A row as JSON: a member for each column, in order. -/
def Row.json (row : Row) : Json String :=
  .object (row.entries.map fun (column, value) => (column, value.json))

/-- A reply as JSON: a member for each part that is present. -/
def Reply.json (reply : Reply) : Json String :=
  .object <|
    [("success", .boolean reply.success)] ++
    (reply.rows.map fun rows => ("rows", Json.array (rows.map Row.json))).toList ++
    (reply.rowsAffected.map fun count => ("rowsAffected", Json.number (toString count))).toList ++
    (reply.message.map fun message => ("message", Json.text message)).toList

end TableStore
