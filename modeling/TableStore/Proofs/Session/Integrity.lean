import TableStore.Proofs.Session.Requests

/-!
# Stored columns fit together

The operations check again and again that the stored columns fit together: that a row has a value in
every column, that a mask is as long as a column, that cells can take a value of the column's type.
In a catalog that requests and texts lead to, each of these checks succeeds. The columns of a table
have the names and types of its schema and are as long as its counter says, so that no request and no
text fails because they do not fit, and no reply ever tells of it.

* `Table.Intact` — the columns of a table fit together and fit its schema.
* `Catalog.Input`, `Catalog.acceptAll` — what a catalog may be given, requests and texts in any
  order.
* `Reply.kind_of_message` — a reply tells of columns that do not fit only if this is the cause.
* `Catalog.storage_intact` — the tables after any inputs, and what does not come of the next one.
-/

namespace TableStore

/-- There is one stored column for each column of the schema, with its name and type. Each is as long
as the counter says and holds values of its type only. -/
structure Table.Intact (table : Table) : Prop where
  fields_eq : table.columns.map Column.field = table.schema.fields
  length_eq : ∀ column ∈ table.columns, column.values.length = table.rowCount
  type_eq : ∀ column ∈ table.columns, ∀ value ∈ column.values, value.type = column.type

/-- Columns that hold rows fit together. -/
theorem Table.Holds.intact {table : Table} {rows : List (List Value)} (h : table.Holds rows) :
    table.Intact where
  fields_eq := h.stored.fields_eq
  length_eq := by
    intro column hcolumn
    obtain ⟨position, hposition⟩ := List.getElem?_of_mem hcolumn
    rw [Column.length_values, h.stored.length_values hposition, h.count]
  type_eq := by
    intro column _ value hvalue
    exact Column.type_of_mem_values hvalue

/-! ## What replies tell -/

/-- How the messages begin that tell of columns which do not fit together. -/
def Failure.runtimeOpenings : List (List Char) :=
  [['i', 'n', 'c'], ['r', 'o', 'w'], ['d', 'e', 'l'], ['i', 'n', 't']]

/-- The beginning of a message shows whether it tells of columns that do not fit together, whatever
names, values and numbers it goes on with. -/
theorem Error.opening_mem_iff (cause : Error) :
    cause.message.toList.take 3 ∈ Failure.runtimeOpenings ↔ cause.kind = .runtime := by
  cases cause <;>
    simp [message, failure, Failure.message, kind, String.toList_append, Failure.runtimeOpenings]

namespace Reply

/-- A reply tells of columns that do not fit together only if this is the cause. -/
theorem kind_of_message {cause internal : Error} (hinternal : internal.kind = .runtime)
    (h : (ofError cause).message = some ("ERROR: " ++ internal.message)) :
    cause.kind = .runtime := by
  have hcancel : ∀ detail, "ERROR: " ++ detail = "ERROR: " ++ internal.message →
      detail = internal.message := by
    intro detail hsame
    simpa using hsame
  unfold ofError ofFailure at h
  split at h
  · -- the message for a text that is no statement tells of no cause
    have hmessage := hcancel "invalid or unsupported syntax" (Option.some.inj h)
    have hopening := internal.opening_mem_iff.mpr hinternal
    rw [← hmessage] at hopening
    exact absurd hopening (by decide)
  · have hmessage : cause.message = internal.message := hcancel cause.message (Option.some.inj h)
    rw [← cause.opening_mem_iff, hmessage]
    exact internal.opening_mem_iff.mpr hinternal

/-- The reply to a statement that succeeded tells of no failure. -/
theorem message_reply_ne (statement : Sql.Statement) (answer : Answer) (detail : String) :
    (statement.reply answer).message ≠ some ("ERROR: " ++ detail) := by
  intro h
  -- the messages differ in their first letters already
  have hlist := congrArg (Option.map fun message => message.toList.head?) h
  unfold Sql.Statement.reply at hlist
  split at hlist <;> simp [done, inserted, selected, affected, okMessage] at hlist

end Reply

/-! ## Requests and texts in any order -/

namespace Catalog

/-- What a catalog may be given. -/
inductive Input where
  | request (command : Command)
  | text (text : String)
  deriving DecidableEq, Repr

/-- The catalog after an input, whether it succeeds or fails. -/
def accept (catalog : Catalog) : Input → Catalog
  | .request command => (catalog.perform command).after
  | .text text => (catalog.execute text).catalog

/-- The catalog after inputs, one after the other. -/
def acceptAll (catalog : Catalog) (inputs : List Input) : Catalog :=
  inputs.foldl accept catalog

theorem Sound.accept {catalog : Catalog} (h : catalog.Sound) (input : Input) :
    (catalog.accept input).Sound := by
  cases input with
  | request command => exact (h.perform command).sound h
  | text text => exact h.execute text

/-- What one input preserves, any number of them does. -/
theorem Sound.acceptAll {catalog : Catalog} (h : catalog.Sound) (inputs : List Input) :
    (catalog.acceptAll inputs).Sound := by
  induction inputs generalizing catalog with
  | nil => exact h
  | cons input inputs ih => exact ih (h.accept input)

/-- No request to a sound catalog fails because columns do not fit together. -/
theorem Sound.kind_of_perform {catalog after : Catalog} (h : catalog.Sound) {command : Command}
    {cause : Error} (hperform : catalog.perform command = .error cause after) :
    cause.kind ≠ .runtime := by
  have heffect := h.perform command
  rw [hperform] at heffect
  cases heffect with
  | refuses _ hkind => exact hkind

/-- No reply to a text tells that the columns of a sound catalog do not fit together. -/
theorem Sound.message_ne {catalog : Catalog} (h : catalog.Sound) (text : String) {internal : Error}
    (hinternal : internal.kind = .runtime) :
    (catalog.execute text).reply.message ≠ some ("ERROR: " ++ internal.message) := by
  intro hmessage
  rcases h.execute_effect text with
    ⟨cause, hkind, hreply, -⟩ | ⟨statement, command, answer, -, -, hreply, -⟩
  · rw [hreply] at hmessage
    exact hkind (Reply.kind_of_message hinternal hmessage)
  · rw [hreply] at hmessage
    exact Reply.message_reply_ne statement answer internal.message hmessage

/-- Whatever requests, with schemas of any kind, and whatever texts a catalog is given: the columns of
each table fit together and fit its schema, no further request fails because they do not, and the
reply to no further text tells that they do not. -/
theorem storage_intact (name : String) (inputs : List Input) :
    let catalog : Catalog := (empty name).acceptAll inputs
    (∀ table ∈ catalog.tables, table.Intact) ∧
    (∀ command cause after, catalog.perform command = .error cause after → cause.kind ≠ .runtime) ∧
    (∀ text, ∀ internal : Error, internal.kind = .runtime →
      (catalog.execute text).reply.message ≠ some ("ERROR: " ++ internal.message)) := by
  intro catalog
  have hsound : catalog.Sound := (sound_empty name).acceptAll inputs
  refine ⟨?_, ?_, ?_⟩
  · intro table htable
    obtain ⟨rows, hrows⟩ := hsound.tables table htable
    exact hrows.holds.intact
  · intro command cause after hperform
    exact hsound.kind_of_perform hperform
  · intro text internal hinternal
    exact hsound.message_ne text hinternal

end Catalog

end TableStore
