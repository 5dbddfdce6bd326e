import TableStore.Proofs.Session.Requests
import TableStore.Proofs.Sql.Texts

/-!
# What texts can store

Texts store only what texts can spell: names that are words, integers that are not negative, texts
that lack a kind of quote. And the only tables that they create have a column at least and a schema
that the checked way makes.

* `Sql.Statement.literate_of_command`, `Sql.Statement.declared_of_command` — what the request of a
  statement can bring in.
* `Table.Written` — what holds of a table that texts have filled.
* `Catalog.written_executeAll` — it holds of every table that texts lead to.
-/

namespace TableStore

/-! ## What a statement can bring in -/

namespace Sql

/-- A table that texts can create. -/
structure Declarable (name : String) (schema : Schema) : Prop where
  name_spellable : Spellable ⟨.identifier, name⟩
  fields_ne_nil : schema.fields ≠ []
  fields_spellable : ∀ field ∈ schema.fields, Spellable ⟨.identifier, field.name⟩
  schema_eq : Schema.make schema.fields schema.primaryKey = .ok schema

variable {tokens : List Token} {statement : Statement}

theorem literate_of_literals {phrase : List Token} {values : List Value}
    (hspellable : ∀ token ∈ phrase, Spellable token)
    (h : Enclosed (Listed Literal) phrase values) : ∀ value ∈ values, Literate value := by
  intro value hvalue
  obtain ⟨part, hpart, hlisted⟩ := exists_of_enclosed h
  obtain ⟨single, hsingle, hliteral⟩ := exists_of_mem_listed hlisted hvalue
  cases hliteral with
  | @token token value hdenotes =>
    have hmem := hsingle token (List.mem_singleton_self token)
    exact ⟨token, hspellable token (hpart token hmem), hdenotes⟩

/-- The values that come with a statement's request are literals of the statement. -/
theorem Statement.literate_of_command {name : String} {operation : Table.Call}
    (hspellable : ∀ token ∈ tokens, Spellable token) (hderives : Derives tokens statement)
    (hcommand : statement.command = .ok (.call name operation)) :
    ∀ value ∈ operation.values, Literate value := by
  cases hderives with
  | createTable table hcolumns =>
    obtain ⟨schema, -, hcall⟩ := createTable_command hcommand
    cases hcall
  | dropTable table => cases hcommand
  | @insert table names rows columns tuples hnames hrows =>
    cases hcommand
    intro value hvalue
    obtain ⟨tuple, htuple, hmem⟩ := List.mem_flatten.mp hvalue
    -- the value stands in one of the tuples
    obtain ⟨part, hpart, henclosed⟩ := exists_of_mem_listed hrows htuple
    refine literate_of_literals (fun token htoken => hspellable token ?_) henclosed value hmem
    simp [hpart token htoken]
  | @update table changes restriction assignments condition hchanges hrestriction =>
    cases hcommand
    intro value hvalue
    obtain ⟨assignment, hassignment, rfl⟩ := List.mem_map.mp hvalue
    obtain ⟨part, hpart, hassigns⟩ := exists_of_mem_listed hchanges hassignment
    cases hassigns with
    | @equals column token value hdenotes =>
      have hmem := hpart token (by simp)
      exact ⟨token, hspellable token (by simp [hmem]), hdenotes⟩
  | select | delete =>
    cases hcommand
    intro value hvalue
    cases hvalue

/-- The table that a statement creates has the declared columns. -/
theorem Statement.declarable_of_command {name : String} {schema : Schema}
    (hspellable : ∀ token ∈ tokens, Spellable token) (hderives : Derives tokens statement)
    (hcommand : statement.command = .ok (.create name schema)) : Declarable name schema := by
  cases hderives with
  | @createTable table phrase declarations hcolumns =>
    -- the declared columns have made a schema, or there would be no request
    obtain ⟨made, hmade, hcreate⟩ := createTable_command hcommand
    cases hcreate
    obtain ⟨part, hpart, hlisted⟩ := exists_of_enclosed hcolumns
    obtain ⟨rfl, -⟩ := Schema.make_ok_iff.mp hmade
    refine ⟨hspellable _ (by simp), ?_, ?_, hmade⟩
    · simpa using ne_nil_of_listed hlisted
    · intro field hfield
      obtain ⟨declaration, hdeclaration, rfl⟩ := List.mem_map.mp hfield
      obtain ⟨single, hsingle, hdeclares⟩ := exists_of_mem_listed hlisted hdeclaration
      -- a column's name is a token of its declaration
      have hname : ⟨.identifier, declaration.field.name⟩ ∈ single := by
        cases hdeclares <;> simp
      exact hspellable _ (by simp [hpart _ (hsingle _ hname)])
  | dropTable | insert | select | update | delete => cases hcommand

end Sql

/-! ## Tables that texts have filled -/

/-- Texts can create the table, and can spell the values in it. -/
structure Table.Written (table : Table) : Prop where
  declarable : Sql.Declarable table.name table.schema
  rows : ∃ rows, table.Represents ⟨table.schema, rows⟩ ∧
    ∀ row ∈ rows, ∀ value ∈ row, Sql.Literate value

/-- What a request preserves that brings in only what texts can spell. -/
theorem Catalog.Effect.written {catalog : Catalog} {command : Command} {change : Change}
    (heffect : Effect catalog command change) (h : ∀ table ∈ catalog.tables, table.Written)
    (hcreate : ∀ name schema, command = .create name schema → Sql.Declarable name schema)
    (hcall : ∀ name operation, command = .call name operation →
      ∀ value ∈ operation.values, Sql.Literate value) :
    ∀ table ∈ change.after.tables, table.Written := by
  cases heffect with
  | refuses => exact h
  | @creates name schema hnew =>
    intro table htable
    rcases mem_place.mp htable with rfl | htable
    · exact ⟨hcreate name schema rfl, [], Table.represents_empty name schema, by simp⟩
    · exact h table htable
  | drops => exact fun table htable => h table (List.mem_of_mem_filter htable)
  | @calls name table after rows operation answer hfound hperform hname hschema =>
    have hliterate := hcall name operation rfl
    have hafter : after.Written := by
      obtain ⟨hdeclarable, rows, hrepresents, hvalues⟩ := h table (find?_eq_some hfound).1
      have hagrees := hrepresents.perform operation
      rw [hperform] at hagrees
      generalize houtcome : RowTable.perform ⟨table.schema, rows⟩ operation = outcome at hagrees
      cases hagrees with
      | @succeeds _ _ rows' _ _ hafter =>
        refine ⟨by rwa [hname, hschema], rows', by rwa [hschema], fun row hrow value hvalue => ?_⟩
        -- the value was in the table before, or came with the operation
        have hmem : row ∈ (RowTable.perform ⟨table.schema, rows⟩ operation).2.rows := by
          rwa [houtcome]
        rcases RowTable.mem_perform hmem hvalue with ⟨old, hold, hvalue⟩ | hnew
        · exact hvalues old hold value hvalue
        · exact hliterate value hnew
    -- the other tables stay as they were
    intro other hother
    obtain ⟨before, hbefore, rfl⟩ := List.mem_map.mp hother
    split
    · exact hafter
    · exact h before hbefore

/-- What one text preserves. -/
theorem Catalog.Sound.written_execute {catalog : Catalog} (hsound : catalog.Sound)
    (h : ∀ table ∈ catalog.tables, table.Written) (text : String) :
    ∀ table ∈ (catalog.execute text).catalog.tables, table.Written := by
  rcases hsound.execute_cases text with
    ⟨-, hsame⟩ | ⟨statement, command, answer, hread, hcommand, -, heffect⟩
  · rw [hsame]
    exact h
  · obtain ⟨tokens, hspelled, hsentence⟩ := Sql.Statement.ofText_ok_iff.mp hread
    have hspellable := Sql.spellable_of_spelled hspelled
    -- a semicolon at the end does not matter
    obtain ⟨phrase, hphrase, hderives⟩ : ∃ phrase, (∀ token ∈ phrase, Sql.Spellable token) ∧
        Sql.Derives phrase statement := by
      cases hsentence with
      | bare hderives => exact ⟨tokens, hspellable, hderives⟩
      | ended mark hderives =>
        exact ⟨_, fun token htoken => hspellable token (by simp [htoken]), hderives⟩
    refine heffect.written h (fun name schema heq => ?_) fun name operation heq => ?_
    · exact Sql.Statement.declarable_of_command hphrase hderives (heq ▸ hcommand)
    · exact Sql.Statement.literate_of_command hphrase hderives (heq ▸ hcommand)

/-- Every table that texts lead to has been filled by them. -/
theorem Catalog.written_executeAll (name : String) (texts : List String) :
    ∀ table ∈ ((empty name).executeAll texts).tables, table.Written := by
  have hrun : ∀ (texts : List String) {catalog : Catalog}, catalog.Sound →
      (∀ table ∈ catalog.tables, table.Written) →
      ∀ table ∈ (catalog.executeAll texts).tables, table.Written := by
    intro texts
    induction texts with
    | nil => exact fun _ h => h
    | cons text texts ih =>
      exact fun hsound h => ih (hsound.execute text) (hsound.written_execute h text)
  exact hrun texts (sound_empty name) (by simp [empty])

end TableStore
