import TableStore.Proofs.Session.Contents
import TableStore.Proofs.Sql.Phrases
import TableStore.Proofs.Storage.Rebuild

/-!
# Dumping a catalog

A catalog can be written as a script: for each table in the order of the names a statement that
creates it, and one that inserts all its rows if it has any. Of a catalog that texts lead to the
script can be run, and running it on an empty catalog gives the same tables again.

* `Catalog.dump` — the script.
* `Table.derives_creation`, `Table.derives_insertion` — the lines of the script have the tokens of the
  statements that they are meant to be.
* `Table.execute_creation`, `Table.execute_insertion` — what the lines of a table do.
* `Catalog.dump_rebuilds` — what the script does.
-/

namespace TableStore

/-! ## The script -/

namespace Table

/-- The declarations of a table's columns. -/
def declarations (table : Table) : List Sql.Declaration :=
  table.schema.fields.map fun field => ⟨field, table.schema.primaryKey == some field.name⟩

/-- The statement that creates a table. -/
def creation (table : Table) : List Sql.Token :=
  ⟨.keyword, "CREATE"⟩ :: ⟨.keyword, "TABLE"⟩ :: ⟨.identifier, table.name⟩ ::
    Sql.parens (Sql.commas Sql.Declaration.tokens table.declarations)

/-- The statement that inserts rows into a table. -/
def insertion (table : Table) (rows : List (List Value)) : List Sql.Token :=
  ⟨.keyword, "INSERT"⟩ :: ⟨.keyword, "INTO"⟩ :: ⟨.identifier, table.name⟩ ::
    ⟨.keyword, "VALUES"⟩ ::
      Sql.commas (fun row => Sql.parens (Sql.commas (fun value => [Sql.literal value]) row)) rows

/-- The lines that write a table: its creation, and the insertion of its rows if it has any. -/
def dump (table : Table) : List String :=
  match table.rows? with
  | none | some [] => [Sql.line table.creation]
  | some rows => [Sql.line table.creation, Sql.line (table.insertion rows)]

end Table

/-- The script that writes a catalog, table by table. -/
def Catalog.dump (catalog : Catalog) : List String :=
  catalog.tables.flatMap Table.dump

/-! ## The lines of a table as statements -/

/-- In different names, filtering for one of them leaves it alone. -/
theorem getLast?_filter_key {names : List String} {key : Option String} (hnames : names.Nodup)
    (hkey : ∀ name, key = some name → name ∈ names) :
    (names.filter fun name => key == some name).getLast? = key := by
  cases key with
  | none => simp
  | some key =>
    -- the names differ, so the key stands among them once
    have hone : names.filter (· == key) = [key] := by
      rw [List.filter_beq, List.count_eq_one_of_mem hnames (hkey key rfl), List.replicate_one]
    have hsame : (fun name => some key == some name) = (· == key) := by
      funext name
      simp [eq_comm]
    rw [hsame, hone, List.getLast?_singleton]

namespace Table

variable {table : Table} {rows : List (List Value)}

/-- The declarations of a table make its schema again. -/
theorem schema_declarations (h : Sql.Declarable table.name table.schema) :
    Sql.Declaration.schema table.declarations = .ok table.schema := by
  obtain ⟨-, hnodup, hkey⟩ := Schema.make_ok_iff.mp h.schema_eq
  have hfields : table.declarations.map (·.field) = table.schema.fields := by
    simp [declarations, Function.comp_def]
  -- only the column of the key is marked, so the last marked one is it
  have hmarked : ((table.declarations.filter (·.isKey)).map (·.field.name)).getLast? =
      table.schema.primaryKey := by
    rw [← getLast?_filter_key hnodup hkey, List.filter_map]
    unfold declarations
    rw [List.filter_map, List.map_map]
    rfl
  unfold Sql.Declaration.schema
  rw [hfields, hmarked]
  exact h.schema_eq

theorem derives_creation (h : table.schema.fields ≠ []) :
    Sql.Derives table.creation (.createTable table.name table.declarations) := by
  have hne : table.declarations ≠ [] := by simpa [declarations] using h
  have hlisted := Sql.listed_commas (fun declaration _ => Sql.declares_tokens declaration) hne
  exact .createTable table.name (.item "(" ")" hlisted)

theorem derives_insertion (hrows : rows ≠ []) (hwidth : ∀ row ∈ rows, row ≠ [])
    (hvalues : ∀ row ∈ rows, ∀ value ∈ row, Sql.Literate value) :
    Sql.Derives (table.insertion rows) (.insert table.name none rows) := by
  -- each row is a list of literals between parentheses
  have htuple : ∀ row ∈ rows, Sql.Enclosed (Sql.Listed Sql.Literal)
      (Sql.parens (Sql.commas (fun value => [Sql.literal value]) row)) row := by
    intro row hrow
    have hliteral : ∀ value ∈ row, Sql.Literal [Sql.literal value] value := by
      intro value hvalue
      exact .token (Sql.denotes_literal (hvalues row hrow value hvalue)).1
    exact .item "(" ")" (Sql.listed_commas hliteral (hwidth row hrow))
  exact .insert table.name .none (Sql.listed_commas htuple hrows)

theorem spellable_creation (h : Sql.Declarable table.name table.schema) :
    ∀ token ∈ table.creation, Sql.Spellable token := by
  have hcolumns : ∀ token ∈ Sql.parens (Sql.commas Sql.Declaration.tokens table.declarations),
      Sql.Spellable token := by
    refine Sql.spellable_parens (Sql.spellable_commas fun declaration hdeclaration => ?_)
    obtain ⟨field, hfield, rfl⟩ := List.mem_map.mp hdeclaration
    exact Sql.spellable_tokens (h.fields_spellable field hfield)
  have hcreate : Sql.Spellable ⟨.keyword, "CREATE"⟩ := Sql.spellable_keyword (by decide)
  have htable : Sql.Spellable ⟨.keyword, "TABLE"⟩ := Sql.spellable_keyword (by decide)
  unfold creation
  simp only [List.mem_cons, forall_eq_or_imp]
  exact ⟨hcreate, htable, h.name_spellable, hcolumns⟩

theorem spellable_insertion (h : Sql.Spellable ⟨.identifier, table.name⟩)
    (hvalues : ∀ row ∈ rows, ∀ value ∈ row, Sql.Literate value) :
    ∀ token ∈ table.insertion rows, Sql.Spellable token := by
  have htuples : ∀ token ∈ Sql.commas
      (fun row => Sql.parens (Sql.commas (fun value => [Sql.literal value]) row)) rows,
      Sql.Spellable token := by
    refine Sql.spellable_commas fun row hrow => Sql.spellable_parens ?_
    refine Sql.spellable_commas fun value hvalue token htoken => ?_
    rw [List.mem_singleton.mp htoken]
    exact (Sql.denotes_literal (hvalues row hrow value hvalue)).2
  have hinsert : Sql.Spellable ⟨.keyword, "INSERT"⟩ := Sql.spellable_keyword (by decide)
  have hinto : Sql.Spellable ⟨.keyword, "INTO"⟩ := Sql.spellable_keyword (by decide)
  have hvalues : Sql.Spellable ⟨.keyword, "VALUES"⟩ := Sql.spellable_keyword (by decide)
  unfold insertion
  simp only [List.mem_cons, forall_eq_or_imp]
  exact ⟨hinsert, hinto, h, hvalues, htuples⟩

end Table

/-! ## Running the lines of a table -/

namespace Catalog

/-- What comes of a line of a statement whose request is answered. -/
theorem Sound.execute_line {catalog after : Catalog} {tokens : List Sql.Token}
    {statement : Sql.Statement} {command : Command} {answer : Answer} (h : catalog.Sound)
    (hspellable : ∀ token ∈ tokens, Sql.Spellable token) (hderives : Sql.Derives tokens statement)
    (hcommand : statement.command = .ok command)
    (hperform : catalog.perform command = .ok answer after) :
    (catalog.execute (Sql.line tokens)).reply.success = true ∧
      (catalog.execute (Sql.line tokens)).catalog = after := by
  -- the line is read as the statement, and the statement makes the request
  have hread := Sql.ofText_line hspellable (.bare hderives)
  have heq := h.execute_eq (Sql.line tokens)
  simp only [hread, Sql.Statement.outcome, hcommand, hperform, Prod.mk.injEq] at heq
  obtain ⟨hafter, hreply⟩ := heq
  rw [hreply]
  exact ⟨statement.success_reply answer, hafter⟩

end Catalog

namespace Table

variable {table : Table} {fresh : String} {before : List Table}

/-- Creating a table whose name is greater than all others puts it behind them, without rows. -/
theorem execute_creation (h : Sql.Declarable table.name table.schema)
    (hsound : (⟨fresh, before⟩ : Catalog).Sound)
    (hlast : ∀ other ∈ before, other.name < table.name) :
    let step := (⟨fresh, before⟩ : Catalog).execute (Sql.line table.creation)
    step.reply.success = true ∧
      step.catalog = ⟨fresh, before ++ [empty table.name table.schema]⟩ := by
  have hcommand : (Sql.Statement.createTable table.name table.declarations).command =
      .ok (.create table.name table.schema) := by
    simp only [Sql.Statement.command, schema_declarations h, Except.map]
  have hperform : (⟨fresh, before⟩ : Catalog).perform (.create table.name table.schema) =
      .ok .done ⟨fresh, before ++ [empty table.name table.schema]⟩ := by
    simp only [Catalog.perform, Catalog.create_last hlast table.schema]
  exact hsound.execute_line (spellable_creation h) (derives_creation h.fields_ne_nil) hcommand
    hperform

/-- Inserting the rows of a table into the empty one gives the table. -/
theorem execute_insertion {rows : List (List Value)}
    (h : Sql.Declarable table.name table.schema) (hrows : table.Represents ⟨table.schema, rows⟩)
    (hne : rows ≠ []) (hvalues : ∀ row ∈ rows, ∀ value ∈ row, Sql.Literate value)
    (hsound : (⟨fresh, before ++ [empty table.name table.schema]⟩ : Catalog).Sound)
    (hlast : ∀ other ∈ before, other.name < table.name) :
    let step := (⟨fresh, before ++ [empty table.name table.schema]⟩ : Catalog).execute
      (Sql.line (table.insertion rows))
    step.reply.success = true ∧ step.catalog = ⟨fresh, before ++ [table]⟩ := by
  -- a row is as wide as the schema, which has a column at least
  have hwidth : ∀ row ∈ rows, row ≠ [] := by
    rintro row hrow rfl
    have hlen := hrows.holds.stored.width [] hrow
    exact h.fields_ne_nil (List.length_eq_zero_iff.mp hlen.symm)
  exact hsound.execute_line (spellable_insertion h.name_spellable hvalues)
    (derives_insertion hne hwidth hvalues) rfl (Catalog.perform_insert_last hlast hrows)

/-- The lines of a table put it behind the tables of smaller names. -/
theorem Written.executeAll_dump (h : table.Written) (hsound : (⟨fresh, before⟩ : Catalog).Sound)
    (hlast : ∀ other ∈ before, other.name < table.name) :
    (∀ reply ∈ (⟨fresh, before⟩ : Catalog).replies table.dump, reply.success = true) ∧
      (⟨fresh, before⟩ : Catalog).executeAll table.dump = ⟨fresh, before ++ [table]⟩ := by
  obtain ⟨rows, hrows, hvalues⟩ := h.rows
  obtain ⟨hcreated, hempty⟩ := execute_creation h.declarable hsound hlast
  have hsound' := hsound.execute (Sql.line table.creation)
  rw [hempty] at hsound'
  unfold dump
  rw [hrows.holds.rows?_eq]
  -- without rows the creation is the only line
  cases rows with
  | nil =>
    refine ⟨by simpa [Catalog.replies] using hcreated, ?_⟩
    rw [← hrows.eq_empty] at hempty
    exact hempty
  | cons row rows =>
    obtain ⟨hinserted, hfilled⟩ := execute_insertion h.declarable hrows (List.cons_ne_nil row rows)
      hvalues hsound' hlast
    rw [← hempty] at hinserted hfilled
    exact ⟨by simpa [Catalog.replies] using ⟨hcreated, hinserted⟩, hfilled⟩

end Table

/-! ## Running the script -/

namespace Catalog

/-- Running the lines of tables with growing names puts them one behind the other. -/
theorem executeAll_flatMap_dump {fresh : String} {before tables : List Table}
    (hsound : (⟨fresh, before⟩ : Catalog).Sound)
    (hordered : (before ++ tables).Pairwise (·.name < ·.name))
    (hwritten : ∀ table ∈ tables, table.Written) :
    (∀ reply ∈ (⟨fresh, before⟩ : Catalog).replies (tables.flatMap Table.dump),
        reply.success = true) ∧
      (⟨fresh, before⟩ : Catalog).executeAll (tables.flatMap Table.dump) =
        ⟨fresh, before ++ tables⟩ := by
  induction tables generalizing before with
  | nil => exact ⟨by simp [replies], by simp [executeAll]⟩
  | cons table tables ih =>
    have hlast : ∀ other ∈ before, other.name < table.name := by
      intro other hother
      exact (List.pairwise_append.mp hordered).2.2 other hother table List.mem_cons_self
    obtain ⟨hsuccess, hafter⟩ :=
      (hwritten table List.mem_cons_self).executeAll_dump hsound hlast
    -- the lines of the first table, and then those of the others behind it
    have hsound' : (⟨fresh, before ++ [table]⟩ : Catalog).Sound := by
      rw [← hafter]
      exact hsound.executeAll table.dump
    rw [List.append_cons] at hordered
    obtain ⟨hrest, hall⟩ := ih hsound' hordered fun other hother =>
      hwritten other (List.mem_cons_of_mem table hother)
    rw [List.flatMap_cons, replies_append, executeAll_append, hafter]
    refine ⟨fun reply hreply => ?_, by rw [hall, ← List.append_cons]⟩
    rcases List.mem_append.mp hreply with hfirst | hmore
    · exact hsuccess reply hfirst
    · exact hrest reply hmore

/-- After any texts, the script of the catalog runs on an empty catalog without failure and gives all
tables again, with their names, schemas and rows. Each text in them is spelled in a quote that it does
not contain. -/
theorem dump_rebuilds (name fresh : String) (history : List String) :
    let catalog : Catalog := (empty name).executeAll history
    (∀ reply ∈ (empty fresh).replies catalog.dump, reply.success = true) ∧
    (empty fresh).executeAll catalog.dump = { catalog with name := fresh } ∧
    ∀ table ∈ catalog.tables, ∃ rows, table.rows? = some rows ∧
      ∀ row ∈ rows, ∀ s, Value.text s ∈ row → Sql.quoteOf s ∉ s.toList := by
  intro catalog
  have hwritten := written_executeAll name history
  obtain ⟨hsuccess, hafter⟩ :=
    executeAll_flatMap_dump (sound_empty fresh) (sound_executeAll name history).ordered hwritten
  refine ⟨hsuccess, hafter, fun table htable => ?_⟩
  obtain ⟨rows, hrows, hvalues⟩ := (hwritten table htable).rows
  refine ⟨rows, hrows.holds.rows?_eq, fun row hrow s hs => ?_⟩
  exact Sql.quoteOf_not_mem (Sql.exists_quote_of_literate (hvalues row hrow _ hs))

example : Table.dump ⟨"a", ⟨[⟨"id", .integer⟩, ⟨"note", .text⟩], some "id"⟩,
      [⟨"id", .integer, .integers #[7, 12], rfl⟩,
        ⟨"note", .text, .texts #["it's", "so"], rfl⟩], 2⟩ =
    ["CREATE TABLE a ( id INTEGER PRIMARY KEY , note TEXT ) ",
      "INSERT INTO a VALUES ( 7 , \"it's\" ) , ( 12 , 'so' ) "] := by
  decide

end Catalog

end TableStore
