import TableStore.Proofs.Storage.Delete
import TableStore.Proofs.Storage.Insert
import TableStore.Proofs.Storage.Select
import TableStore.Proofs.Storage.Update

/-!
# A table behaves as its list of rows

Cell by cell a table does what the list of its rows does, whatever it is asked for and however long
it is used. The invariant is that the columns hold the rows and that the primary keys of the rows
differ; an empty table has it, and each operation keeps it.

* `Table.perform` — an operation on a table, with the table afterwards.
* `Table.Represents` — the invariant: the table stands for a list of rows with different keys.
* `Table.Represents.perform` — one operation on both sides gives the same answer or the same kind of
  failure, and keeps the invariant. A failure leaves the table as it was.
* `Table.trace_eq` — so does any number of operations, from an empty table on.
-/

namespace TableStore

/-! ## Operations and runs of a table -/

namespace Table

/-- The answer or the cause of failure of an operation. -/
def Change.answer {α : Type} : Change α → Except Error α
  | .ok answer _ => .ok answer
  | .error cause _ => .error cause

/-- The table after an operation. -/
def Change.after {α : Type} : Change α → Table
  | .ok _ table | .error _ table => table

/-- An operation with its answer in another form. -/
def Change.map {α β : Type} (f : α → β) : Change α → Change β
  | .ok answer table => .ok (f answer) table
  | .error cause table => .error cause table

/-- Carries out an operation. -/
def perform (table : Table) : Call → Change Answer
  | .insert columns tuples => Change.map .count (table.insert columns tuples)
  | .select projection condition =>
    match table.select projection condition with
    | .ok rows => .ok (.rows rows) table
    | .error cause => .error cause table
  | .update assignments condition => Change.map .count (table.update assignments condition)
  | .delete condition => Change.map .count (table.delete condition)

/-- The answers to operations carried out one after the other, and the tables after each. -/
def trace (table : Table) : List Call → List (Except Error Answer × Table)
  | [] => []
  | call :: calls =>
    ((table.perform call).answer, (table.perform call).after) ::
      trace (table.perform call).after calls

end Table

/-- The outcomes of operations carried out one after the other. -/
def RowTable.trace (table : RowTable) : List Table.Call → List RowTable.Outcome
  | [] => []
  | call :: calls => table.perform call :: trace (table.perform call).2 calls

/-! ## The invariant -/

/-- A table stands for a list of rows with different primary keys. -/
structure Table.Represents (table : Table) (reference : RowTable) : Prop where
  schema_eq : table.schema = reference.schema
  holds : table.Holds reference.rows
  keys : (reference.schema.keys reference.rows).Nodup

namespace Table

variable {table : Table} {reference : RowTable}

theorem represents_empty (name : String) (schema : Schema) :
    (empty name schema).Represents (.empty schema) where
  schema_eq := rfl
  holds := holds_empty name schema
  keys := by
    unfold Schema.keys RowTable.empty
    cases schema.keyPosition? <;> exact List.nodup_nil

/-- How an operation on a table goes together with the one on its rows: both succeed with one answer
and go on together under the same schema, or both fail for the same kind of cause and change
nothing. -/
inductive Agrees (table : Table) (reference : RowTable) :
    Change Answer → RowTable.Outcome → Prop where
  | succeeds (answer : Answer) {after : Table} {rows : List (List Value)}
      (hname : after.name = table.name) (hschema : after.schema = table.schema)
      (hafter : after.Represents { reference with rows }) :
      Agrees table reference (.ok answer after) (.ok answer, { reference with rows })
  | refuses {cause : Error} {kind : Failure.Kind} (hkind : cause.kind = kind) :
      Agrees table reference (.error cause table) (.error kind, reference)

namespace Represents

theorem insert (h : table.Represents reference) (columns : Option (List String))
    (tuples : List (List Value)) :
    Agrees table reference (table.perform (.insert columns tuples))
      (reference.insert columns tuples) := by
  have heq := h.schema_eq
  unfold perform RowTable.insert RowTable.commit
  rcases h.holds.insert_eq (heq ▸ h.keys) columns tuples with
    ⟨order, horder, haccepts, hnodup, after, hok, hname, hschema, hholds⟩ |
      ⟨order, horder, haccepts, hnodup, key, -, herr⟩ | ⟨hnot, cause, herr, hkind⟩
  · -- the rows are appended on both sides
    rw [heq] at horder haccepts hnodup
    simp only [horder, haccepts, hnodup, ↓reduceIte, hok, Change.map]
    exact .succeeds _ hname hschema ⟨hschema.trans heq, hholds, hnodup⟩
  · rw [heq] at horder haccepts hnodup
    simp only [horder, haccepts, hnodup, ↓reduceIte, herr, Change.map]
    exact .refuses rfl
  · -- refused before the keys are compared
    rw [heq] at hnot
    simp only [herr, Change.map]
    cases horder : reference.schema.order? columns with
    | none => exact .refuses hkind
    | some order =>
      simp only [hnot order horder, Bool.false_eq_true, ↓reduceIte]
      exact .refuses hkind

theorem select (h : table.Represents reference) (projection : Projection) (condition : Predicate) :
    Agrees table reference (table.perform (.select projection condition))
      (reference.select projection condition) := by
  have heq := h.schema_eq
  unfold perform RowTable.select
  rcases h.holds.select_eq projection condition with ⟨hfits, hok⟩ | ⟨hfits, cause, herr, hkind⟩
  · rw [heq] at hfits hok
    simp only [hfits, ↓reduceIte, hok]
    exact .succeeds _ rfl rfl h
  · rw [heq] at hfits
    simp only [hfits, Bool.false_eq_true, ↓reduceIte, herr]
    exact .refuses hkind

theorem update (h : table.Represents reference) (assignments : List Assignment)
    (condition : Predicate) :
    Agrees table reference (table.perform (.update assignments condition))
      (reference.update assignments condition) := by
  have heq := h.schema_eq
  unfold perform RowTable.update RowTable.commit
  rcases h.holds.update_eq (heq ▸ h.keys) assignments condition with
    ⟨hfits, hnodup, after, hok, hname, hschema, hholds⟩ | ⟨hfits, hnodup, key, herr⟩ |
      ⟨hfits, cause, herr, hkind⟩
  · rw [heq] at hfits hnodup hholds hok
    simp only [hfits, hnodup, ↓reduceIte, hok, Change.map]
    exact .succeeds _ hname hschema ⟨hschema.trans heq, hholds, hnodup⟩
  · rw [heq] at hfits hnodup
    simp only [hfits, hnodup, ↓reduceIte, herr, Change.map]
    exact .refuses rfl
  · rw [heq] at hfits
    simp only [hfits, Bool.false_eq_true, ↓reduceIte, herr, Change.map]
    exact .refuses hkind

theorem delete (h : table.Represents reference) (condition : Predicate) :
    Agrees table reference (table.perform (.delete condition)) (reference.delete condition) := by
  have heq := h.schema_eq
  unfold perform RowTable.delete
  rcases h.holds.delete_eq condition with
    ⟨hfits, after, hok, hname, hschema, hholds⟩ | ⟨hfits, cause, herr, hkind⟩
  · rw [heq] at hfits hholds hok
    simp only [hfits, ↓reduceIte, hok, Change.map]
    have hkeys := Schema.nodup_keys_of_sublist h.keys
      (List.filter_sublist (p := fun row => !condition.holds reference.schema row))
    exact .succeeds _ hname hschema ⟨hschema.trans heq, hholds, hkeys⟩
  · rw [heq] at hfits
    simp only [hfits, Bool.false_eq_true, ↓reduceIte, herr, Change.map]
    exact .refuses hkind

/-- One operation on both sides. -/
theorem perform (h : table.Represents reference) (call : Call) :
    Agrees table reference (table.perform call) (reference.perform call) := by
  cases call with
  | insert columns tuples => exact h.insert columns tuples
  | select projection condition => exact h.select projection condition
  | update assignments condition => exact h.update assignments condition
  | delete condition => exact h.delete condition

end Represents

/-! ## Runs -/

namespace Agrees

variable {change : Change Answer} {outcome : RowTable.Outcome}

theorem answer_eq (h : Agrees table reference change outcome) :
    change.answer.mapError Error.kind = outcome.1 := by
  cases h with
  | succeeds => rfl
  | refuses hkind => exact congrArg Except.error hkind

theorem represents (h : Agrees table reference change outcome)
    (hbefore : table.Represents reference) : change.after.Represents outcome.2 := by
  cases h with
  | succeeds answer hname hschema hafter => exact hafter
  | refuses => exact hbefore

end Agrees

/-- What one operation preserves, any number of them does. -/
theorem Represents.trace (h : table.Represents reference) (calls : List Call) :
    List.Forall₂ (fun step outcome => step.1.mapError Error.kind = outcome.1 ∧
      step.2.Represents outcome.2) (table.trace calls) (reference.trace calls) := by
  induction calls generalizing table reference with
  | nil => exact .nil
  | cons call calls ih =>
    have hstep := h.perform call
    exact .cons ⟨hstep.answer_eq, hstep.represents h⟩ (ih (hstep.represents h))

/-- Whatever operations are carried out on an empty table under whatever schema, the answers, the
kinds of failures and the rows after each operation are those of the list of rows. The rows are read
position by position from the columns, none of which is longer than they are. -/
theorem trace_eq (name : String) (schema : Schema) (calls : List Call) :
    ((empty name schema).trace calls).map
        (fun step => (step.1.mapError Error.kind, step.2.rows?)) =
      ((RowTable.empty schema).trace calls).map (fun outcome => (outcome.1, some outcome.2.rows)) ∧
    ∀ step ∈ (empty name schema).trace calls, ∀ column ∈ step.2.columns,
      column.length = step.2.rowCount := by
  have hrun := (represents_empty name schema).trace calls
  constructor
  · rw [← List.forall₂_eq_eq_eq, List.forall₂_map_left_iff, List.forall₂_map_right_iff]
    refine hrun.imp fun step outcome hstep => ?_
    rw [hstep.1, hstep.2.holds.rows?_eq]
  · -- no column is longer than the counter says
    intro step hmem column hcolumn
    obtain ⟨outcome, -, -, hrepresents⟩ := exists_of_mem_forall₂ hrun.flip hmem
    obtain ⟨position, hposition⟩ := List.getElem?_of_mem hcolumn
    rw [hrepresents.holds.stored.length_values hposition, hrepresents.holds.count]

end Table

end TableStore
