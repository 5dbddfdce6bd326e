import TableStore.Storage.Table.Select
import TableStore.Storage.Table.Update

/-!
# Tables as lists of rows

What a table is to those who use it: complete rows under a schema, in the order in which they were
inserted. Nothing is said here about columns, positions in storage or masks, and an operation is one
condition on its arguments and one new list of rows.

* `RowTable` — a schema and a list of rows; each row has a value for each column, in schema order.
* `RowTable.insert`, `RowTable.select`, `RowTable.update`, `RowTable.delete` — the operations. A
  refused one yields the kind of its failure and leaves the rows as they are.
* `Schema.keys` — the primary keys of rows; `RowTable.commit` takes over new rows only if their keys
  differ.
* `Table.Call` — an operation with its arguments; `Answer` — what it answers with.
* `RowTable.kind_of_perform` — an operation fails because of the schema or of a key, and for no other
  reason.
* `RowTable.mem_perform` — no operation makes up values of its own.
-/

namespace TableStore

/-- An operation on a table, with its arguments. -/
inductive Table.Call where
  | insert (columns : Option (List String)) (tuples : List (List Value))
  | select (projection : Projection) (condition : Predicate)
  | update (assignments : List Assignment) (condition : Predicate)
  | delete (condition : Predicate)
  deriving DecidableEq, Repr

/-- What an operation answers with. -/
inductive Answer where
  /-- Nothing but that it is done. -/
  | done
  /-- The number of rows that were inserted, changed or taken out. -/
  | count (rows : Nat)
  /-- The rows that were asked for. -/
  | rows (rows : List Row)
  deriving DecidableEq, Repr

/-! ## Rows under a schema -/

namespace Schema

/-- The type of the first column of a name. -/
def type? (schema : Schema) (column : String) : Option ValueType :=
  (schema.locate? column).map (·.1.type)

/-- The value that a row has in the first column of a name. -/
def value? (schema : Schema) (column : String) (row : List Value) : Option Value :=
  (schema.position? column).bind (row[·]?)

/-- The primary keys of rows; none are asked for if the schema has no key column. -/
def keys (schema : Schema) (rows : List (List Value)) : List (Option Value) :=
  match schema.keyPosition? with
  | none => []
  | some position => rows.map (·[position]?)

/-- The positions that the values of a tuple go to, one after the other. A list of columns has to
name each column of the schema exactly once; without one, the values come in schema order. -/
def order? (schema : Schema) : Option (List String) → Option (List Nat)
  | none => some (List.range schema.fields.length)
  | some names =>
    (names.mapM schema.position?).filter (·.isPerm (List.range schema.fields.length))

/-- Whether a tuple has one value for each position, of the type of the column there. -/
def accepts (schema : Schema) (order : List Nat) (tuple : List Value) : Bool :=
  tuple.map Value.type == order.filterMap fun position => (schema.fields[position]?).map Field.type

end Schema

/-- A tuple in schema order: position by position, the value that goes there. -/
def arranged (order : List Nat) (tuple : List Value) : List Value :=
  (List.range order.length).filterMap fun position => (order.zip tuple).lookup position

/-- Whether an assigned value has the type of its column. -/
def Assignment.fits (schema : Schema) (assignment : Assignment) : Bool :=
  schema.type? assignment.column == some assignment.value.type

/-- A row after assignments, carried out in order. -/
def Schema.assign (schema : Schema) (assignments : List Assignment) (row : List Value) :
    List Value :=
  assignments.foldl (fun row assignment =>
    match schema.position? assignment.column with
    | some position => row.set position assignment.value
    | none => row) row

/-! ## Conditions and projections -/

/-- Whether a condition makes sense for a schema: the column exists and has the type of the literal,
and it has an order if the comparison needs one. -/
def Predicate.fits (schema : Schema) : Predicate → Bool
  | .always => true
  | .test column op literal =>
    schema.type? column == some literal.type && (!op.isOrdering || literal.type.isOrdered)

/-- Whether a condition holds of a row. -/
def Predicate.holds (schema : Schema) (row : List Value) : Predicate → Bool
  | .always => true
  | .test column op literal =>
    match schema.value? column row with
    | none => false
    | some value =>
      match op.holds value literal with
      | .ok holds => holds
      | .error _ => false

/-- Whether every column of a projection exists. -/
def Projection.fits (schema : Schema) : Projection → Bool
  | .all => true
  | .columns names => names.all (· ∈ schema.columnNames)

/-- The requested columns of a row, collected one by one. -/
def Schema.collect (schema : Schema) (row : List Value) : Projection → Row
  | .all => Row.ofList (schema.columnNames.zip row)
  | .columns names =>
    Row.ofList (names.filterMap fun name => (schema.value? name row).map (name, ·))

/-! ## Operations -/

/-- A table as the list of its rows. -/
structure RowTable where
  schema : Schema
  rows : List (List Value)
  deriving DecidableEq, Repr

namespace RowTable

/-- A table without rows. -/
def empty (schema : Schema) : RowTable :=
  ⟨schema, []⟩

/-- What an operation yields: an answer or the kind of its failure, and the table afterwards. -/
abbrev Outcome := Except Failure.Kind Answer × RowTable

/-- The operation fails, and nothing changes. -/
def refuse (table : RowTable) (kind : Failure.Kind) : Outcome :=
  (.error kind, table)

/-- Takes over new rows, `count` of which the operation has touched, unless two of them have the
same primary key. -/
def commit (table : RowTable) (rows : List (List Value)) (count : Nat) : Outcome :=
  if (table.schema.keys rows).Nodup then (.ok (.count count), { table with rows })
  else table.refuse .constraint

/-- Appends the tuples, each in schema order. -/
def insert (table : RowTable) (columns : Option (List String)) (tuples : List (List Value)) :
    Outcome :=
  match table.schema.order? columns with
  | none => table.refuse .schema
  | some order =>
    if tuples.all (table.schema.accepts order) then
      table.commit (table.rows ++ tuples.map (arranged order)) tuples.length
    else table.refuse .schema

/-- The rows of which a condition holds, with the columns of a projection. -/
def select (table : RowTable) (projection : Projection) (condition : Predicate) : Outcome :=
  if projection.fits table.schema && condition.fits table.schema then
    let selected := table.rows.filter (condition.holds table.schema)
    (.ok (.rows (selected.map (table.schema.collect · projection))), table)
  else table.refuse .schema

/-- Carries out the assignments in the rows of which a condition holds. -/
def update (table : RowTable) (assignments : List Assignment) (condition : Predicate) : Outcome :=
  if assignments.all (·.fits table.schema) && condition.fits table.schema then
    let holds := fun row => condition.holds table.schema row
    table.commit
      (table.rows.map fun row => if holds row then table.schema.assign assignments row else row)
      (table.rows.countP holds)
  else table.refuse .schema

/-- Keeps the rows of which a condition does not hold. -/
def delete (table : RowTable) (condition : Predicate) : Outcome :=
  if condition.fits table.schema then
    let holds := fun row => condition.holds table.schema row
    (.ok (.count (table.rows.countP holds)),
      { table with rows := table.rows.filter fun row => !holds row })
  else table.refuse .schema

/-- Carries out an operation. -/
def perform (table : RowTable) : Table.Call → Outcome
  | .insert columns tuples => table.insert columns tuples
  | .select projection condition => table.select projection condition
  | .update assignments condition => table.update assignments condition
  | .delete condition => table.delete condition

end RowTable

/-! ## Kinds of failure -/

namespace RowTable

variable {table : RowTable} {kind : Failure.Kind}

theorem kind_of_commit {rows : List (List Value)} {count : Nat}
    (h : (table.commit rows count).1 = .error kind) : kind = .constraint := by
  unfold commit refuse at h
  split at h
  · cases h
  · cases h
    rfl

/-- An operation fails because of the schema or of a key. -/
theorem kind_of_perform {call : Table.Call} (h : (table.perform call).1 = .error kind) :
    kind = .schema ∨ kind = .constraint := by
  -- what is not taken over by a commit is refused because of the schema
  have hrefused : (table.refuse .schema).1 = .error kind → kind = .schema := by
    intro hrefuse
    cases hrefuse
    rfl
  cases call with
  | insert columns tuples =>
    simp only [perform, insert] at h
    split at h
    · exact .inl (hrefused h)
    · split at h
      · exact .inr (kind_of_commit h)
      · exact .inl (hrefused h)
  | select projection condition =>
    simp only [perform, select] at h
    split at h
    · cases h
    · exact .inl (hrefused h)
  | update assignments condition =>
    simp only [perform, update] at h
    split at h
    · exact .inr (kind_of_commit h)
    · exact .inl (hrefused h)
  | delete condition =>
    simp only [perform, delete] at h
    split at h
    · cases h
    · exact .inl (hrefused h)

end RowTable

/-! ## Where values come from -/

/-- The values that an operation may store. -/
def Table.Call.values : Table.Call → List Value
  | .insert _ tuples => tuples.flatten
  | .update assignments _ => assignments.map (·.value)
  | .select .. | .delete _ => []

theorem mem_of_mem_arranged {order : List Nat} {tuple : List Value} {value : Value}
    (h : value ∈ arranged order tuple) : value ∈ tuple := by
  obtain ⟨position, -, hlookup⟩ := List.mem_filterMap.mp h
  obtain ⟨before, after, hzip, -⟩ := List.lookup_eq_some_iff.mp hlookup
  have hmem : (position, value) ∈ order.zip tuple := by
    rw [hzip]
    exact List.mem_append_right before List.mem_cons_self
  exact (List.of_mem_zip hmem).2

theorem Schema.mem_of_mem_assign {schema : Schema} {assignments : List Assignment}
    {row : List Value} {value : Value} (h : value ∈ schema.assign assignments row) :
    value ∈ row ∨ value ∈ assignments.map (·.value) := by
  induction assignments generalizing row with
  | nil => exact .inl h
  | cons assignment assignments ih =>
    rw [assign, List.foldl_cons] at h
    rw [List.map_cons, List.mem_cons]
    rcases ih h with hrow | hrest
    · split at hrow
      · rcases List.mem_or_eq_of_mem_set hrow with hrow | rfl
        · exact .inl hrow
        · exact .inr (.inl rfl)
      · exact .inl hrow
    · exact .inr (.inr hrest)

namespace RowTable

variable {table : RowTable} {row : List Value} {value : Value}

theorem mem_commit {rows : List (List Value)} {count : Nat}
    (h : row ∈ (table.commit rows count).2.rows) : row ∈ rows ∨ row ∈ table.rows := by
  unfold commit at h
  split at h
  · exact .inl h
  · exact .inr h

/-- A value that a table holds after an operation was in it before, or came with the operation. -/
theorem mem_perform {call : Table.Call} (h : row ∈ (table.perform call).2.rows)
    (hvalue : value ∈ row) : (∃ old ∈ table.rows, value ∈ old) ∨ value ∈ call.values := by
  cases call with
  | insert columns tuples =>
    simp only [perform, insert] at h
    split at h
    · exact .inl ⟨row, h, hvalue⟩
    · rename_i order horder
      split at h
      · -- either the keys differ and the new rows are taken over, or nothing changes
        rcases mem_commit h with hnew | hold
        · rcases List.mem_append.mp hnew with hold | hnew
          · exact .inl ⟨row, hold, hvalue⟩
          · obtain ⟨tuple, htuple, rfl⟩ := List.mem_map.mp hnew
            exact .inr (List.mem_flatten.mpr ⟨tuple, htuple, mem_of_mem_arranged hvalue⟩)
        · exact .inl ⟨row, hold, hvalue⟩
      · exact .inl ⟨row, h, hvalue⟩
  | select projection condition =>
    simp only [perform, select] at h
    split at h <;> exact .inl ⟨row, h, hvalue⟩
  | update assignments condition =>
    simp only [perform, update] at h
    split at h
    · rcases mem_commit h with hnew | hold
      · obtain ⟨old, hold, rfl⟩ := List.mem_map.mp hnew
        split at hvalue
        · rcases Schema.mem_of_mem_assign hvalue with hrow | hassigned
          · exact .inl ⟨old, hold, hrow⟩
          · exact .inr hassigned
        · exact .inl ⟨old, hold, hvalue⟩
      · exact .inl ⟨row, hold, hvalue⟩
    · exact .inl ⟨row, h, hvalue⟩
  | delete condition =>
    simp only [perform, delete] at h
    split at h
    · exact .inl ⟨row, (List.mem_filter.mp h).1, hvalue⟩
    · exact .inl ⟨row, h, hvalue⟩

end RowTable

end TableStore
