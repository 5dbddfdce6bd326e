import TableStore.Proofs.Session.Requests

/-!
# A statement changes its table or nothing

An operation changes a table column by column, and each of these changes could be refused halfway. In
a catalog that texts lead to none is, so that a text which fails has changed nothing, and one which
succeeds has changed nothing but the table that its statement names.

* `Catalog.Effect.select_eq`, `Catalog.Effect.call_keeps` — what a selection, and what any operation
  on a table leaves as it was.
* `Catalog.execute_atomic` — what stays as it was, for each kind of statement and for failures.
-/

namespace TableStore

theorem Table.after_select {table after : Table} {answer : Answer} {projection : Projection}
    {condition : Predicate}
    (h : table.perform (.select projection condition) = .ok answer after) : after = table := by
  unfold perform at h
  cases hselect : table.select projection condition with
  | error cause => simp [hselect] at h
  | ok rows =>
    simp only [hselect, EStateM.Result.ok.injEq] at h
    exact h.2.symm

namespace Catalog

variable {catalog after : Catalog} {name : String} {answer : Answer}

theorem Effect.select_eq {projection : Projection} {condition : Predicate}
    (heffect : Effect catalog (.call name (.select projection condition)) (.ok answer after))
    (h : catalog.Sound) : after = catalog := by
  cases heffect with
  | calls _ _ hfound hperform =>
    rw [Table.after_select hperform]
    exact h.replace_self (find?_eq_some hfound).1

theorem Effect.call_keeps {operation : Table.Call}
    (heffect : Effect catalog (.call name operation) (.ok answer after)) :
    ∃ table table', catalog.find? name = some table ∧ after.find? name = some table' ∧
      table'.name = table.name ∧ table'.schema = table.schema := by
  cases heffect with
  | calls _ _ hfound _ hname hschema =>
    exact ⟨_, _, hfound, find?_replace hfound hname, hname, hschema⟩

/-- After any texts, a text that fails leaves the catalog as it was. One that succeeds is a statement;
the tables of other names stay as they were, a selection leaves all tables as they were, and an
insertion, an update and a deletion keep the name and the schema of their table. -/
theorem execute_atomic (name : String) (history : List String) (text : String) :
    let before : Catalog := (empty name).executeAll history
    let step : Step := before.execute text
    (step.reply.success = false → step.catalog = before) ∧
    (step.reply.success = true →
      ∃ statement, Sql.Statement.ofText text = .ok statement ∧
        step.catalog.tables.filter (·.name != statement.table) =
          before.tables.filter (·.name != statement.table) ∧
        (statement.title = "SELECT" → step.catalog = before) ∧
        (statement.title ∈ ["INSERT", "UPDATE", "DELETE"] →
          ∃ table after, before.find? statement.table = some table ∧
            step.catalog.find? statement.table = some after ∧
            after.name = table.name ∧ after.schema = table.schema)) := by
  intro before step
  have hsound : before.Sound := sound_executeAll name history
  rcases hsound.execute_cases text with
    ⟨hfailure, hsame⟩ | ⟨statement, command, answer, hread, hcommand, hreply, heffect⟩
  · -- a failure: nothing has changed
    refine ⟨fun _ => hsame, fun hsuccess => ?_⟩
    rw [show step.reply.success = false from hfailure] at hsuccess
    cases hsuccess
  · -- an answer: what has changed is the effect of the statement's request
    refine ⟨fun hfailure => ?_, fun _ => ⟨statement, hread, ?_, ?_, ?_⟩⟩
    · rw [show step.reply = statement.reply answer from hreply,
        Sql.Statement.success_reply] at hfailure
      cases hfailure
    · have hothers := heffect.others
      rwa [Sql.Statement.table_command hcommand] at hothers
    · intro htitle
      cases statement with
      | select projection table join condition =>
        cases hcommand
        exact heffect.select_eq hsound
      | createTable | dropTable | insert | update | delete =>
        simp [Sql.Statement.title] at htitle
    · intro htitle
      cases statement with
      | insert | update | delete =>
        cases hcommand
        exact heffect.call_keeps
      | createTable | dropTable | select =>
        simp [Sql.Statement.title] at htitle

end Catalog

end TableStore
