import TableStore.Proofs.Session.Atomicity
import TableStore.Proofs.Storage.Entries

/-!
# Statements about different tables commute

What a statement does and what is replied to it depend on the entry of its table alone, whether there
is a table under the name or not, and no other entry is changed. So it does not matter which of two
statements about different tables is run first, and neither does it for two selections.

* `Sql.Statement.act` — what a statement makes of its entry, without a catalog.
* `Catalog.Sound.execute_entry` — running a text is acting on the entry of its statement's table.
* `Catalog.Sound.execute_comm_of_keeps` — two statements commute if neither changes what the other one
  looks at.
* `Catalog.execute_comm` — statements about different tables, and selections, commute.
-/

namespace TableStore

open Sql (Statement)

/-! ## A statement and its entry -/

/-- What a statement makes of the entry of its table, and the reply to it. -/
def Sql.Statement.act (statement : Statement) (entry : Option Table) : Reply × Option Table :=
  match statement.command with
  | .error cause => (.ofError cause, entry)
  | .ok command =>
    match command.act entry with
    | (.ok answer, after) => (statement.reply answer, after)
    | (.error cause, after) => (.ofError cause, after)

namespace Catalog

variable {catalog : Catalog} {text first second : String} {statement s₁ s₂ : Statement}

/-- Running a text is acting on the entry of its statement's table, and on no other. -/
theorem Sound.execute_entry (h : catalog.Sound) (hread : Statement.ofText text = .ok statement) :
    (catalog.execute text).reply = (statement.act (catalog.find? statement.table)).1 ∧
    ∀ name, (catalog.execute text).catalog.find? name =
      if name = statement.table then (statement.act (catalog.find? statement.table)).2
      else catalog.find? name := by
  have heq := h.execute_eq text
  simp only [hread, Statement.outcome] at heq
  unfold Statement.act
  cases hcommand : statement.command with
  | error cause =>
    -- no request is made
    simp only [hcommand, Prod.mk.injEq] at heq
    rw [heq.1]
    refine ⟨heq.2, fun name => ?_⟩
    split
    · rename_i hname
      rw [hname]
    · rfl
  | ok command =>
    obtain ⟨hanswer, hentries⟩ := h.perform_entry command
    rw [Statement.table_command hcommand] at hanswer hentries
    simp only [hcommand] at heq ⊢
    -- the request's answer tells which reply there is
    generalize command.act (catalog.find? statement.table) = acted at hanswer hentries
    obtain ⟨answer, entry⟩ := acted
    cases hperform : catalog.perform command with
    | ok given after =>
      simp only [hperform, Prod.mk.injEq] at heq hanswer hentries
      obtain rfl : .ok given = answer := hanswer
      exact ⟨heq.2, heq.1 ▸ hentries⟩
    | error cause after =>
      simp only [hperform, Prod.mk.injEq] at heq hanswer hentries
      obtain rfl : .error cause = answer := hanswer
      exact ⟨heq.2, heq.1 ▸ hentries⟩

/-- No text gives the catalog another name. -/
theorem Sound.name_execute (h : catalog.Sound) (text : String) :
    (catalog.execute text).catalog.name = catalog.name := by
  rcases h.execute_cases text with ⟨-, hsame⟩ | ⟨_, _, _, -, -, -, heffect⟩
  · rw [hsame]
  · exact heffect.name_eq

/-- A selection changes nothing, whether it succeeds or fails. -/
theorem Sound.catalog_execute_select (h : catalog.Sound)
    (hread : Statement.ofText text = .ok statement) (htitle : statement.title = "SELECT") :
    (catalog.execute text).catalog = catalog := by
  rcases h.execute_cases text with ⟨-, hsame⟩ | ⟨found, command, answer, hfound, hcommand, -, heffect⟩
  · exact hsame
  · obtain rfl : statement = found := by
      rw [hread] at hfound
      exact Except.ok.inj hfound
    cases statement with
    | select projection table join condition =>
      cases hcommand
      exact heffect.select_eq h
    | createTable | dropTable | insert | update | delete =>
      simp [Statement.title] at htitle

/-! ## Two statements -/

/-- Two statements commute if neither changes the entry that the other one acts on, unless they leave
that entry as it is. -/
theorem Sound.execute_comm_of_keeps (h : catalog.Sound)
    (hfirst : Statement.ofText first = .ok s₁) (hsecond : Statement.ofText second = .ok s₂)
    (hkeeps₁ : (catalog.execute first).catalog.find? s₂.table = catalog.find? s₂.table)
    (hkeeps₂ : (catalog.execute second).catalog.find? s₁.table = catalog.find? s₁.table) :
    let one := catalog.execute first
    let two := catalog.execute second
    (one.catalog.execute second).reply = two.reply ∧
      (two.catalog.execute first).reply = one.reply ∧
      (one.catalog.execute second).catalog = (two.catalog.execute first).catalog := by
  intro one two
  have hone : one.catalog.Sound := h.execute first
  have htwo : two.catalog.Sound := h.execute second
  -- what each statement does at first, and what it does behind the other one
  obtain ⟨hreply₁, hentries₁⟩ := h.execute_entry hfirst
  obtain ⟨hreply₂, hentries₂⟩ := h.execute_entry hsecond
  obtain ⟨hreply₂', hentries₂'⟩ := hone.execute_entry hsecond
  obtain ⟨hreply₁', hentries₁'⟩ := htwo.execute_entry hfirst
  rw [show one.catalog.find? s₂.table = catalog.find? s₂.table from hkeeps₁] at hreply₂' hentries₂'
  rw [show two.catalog.find? s₁.table = catalog.find? s₁.table from hkeeps₂] at hreply₁' hentries₁'
  refine ⟨hreply₂'.trans hreply₂.symm, hreply₁'.trans hreply₁.symm, ?_⟩
  refine (hone.execute second).ext (htwo.execute first) ?_ fun name => ?_
  · rw [hone.name_execute, htwo.name_execute, h.name_execute, h.name_execute]
  · rw [hentries₂', hentries₁']
    have hfind₁ := hentries₁ name
    have hfind₂ := hentries₂ name
    have hown₁ := hentries₁ s₂.table
    have hown₂ := hentries₂ s₁.table
    grind

/-- After any texts, two statements about different tables, or two selections, can be run in either
order: each gets the same reply, and the catalogs that they lead to are the same. -/
theorem execute_comm (name : String) (history : List String)
    (hfirst : Statement.ofText first = .ok s₁) (hsecond : Statement.ofText second = .ok s₂)
    (h : s₁.table ≠ s₂.table ∨ s₁.title = "SELECT" ∧ s₂.title = "SELECT") :
    let catalog : Catalog := (empty name).executeAll history
    let one := catalog.execute first
    let two := catalog.execute second
    (one.catalog.execute second).reply = two.reply ∧
      (two.catalog.execute first).reply = one.reply ∧
      (one.catalog.execute second).catalog = (two.catalog.execute first).catalog := by
  intro catalog
  have hsound : catalog.Sound := sound_executeAll name history
  rcases h with htables | ⟨htitle₁, htitle₂⟩
  · -- each statement changes the entry of its own table only
    refine hsound.execute_comm_of_keeps hfirst hsecond ?_ ?_
    · rw [(hsound.execute_entry hfirst).2, if_neg htables.symm]
    · rw [(hsound.execute_entry hsecond).2, if_neg htables]
  · refine hsound.execute_comm_of_keeps hfirst hsecond ?_ ?_
    · rw [hsound.catalog_execute_select hfirst htitle₁]
    · rw [hsound.catalog_execute_select hsecond htitle₂]

/-- A table that is created and another one that is filled, in either order. -/
theorem execute_comm_creation_insertion :
    let catalog : Catalog := (empty "main").executeAll ["CREATE TABLE t (a INTEGER)"]
    let one := catalog.execute "CREATE TABLE u (b TEXT)"
    let two := catalog.execute "INSERT INTO t VALUES (1), (2)"
    Statement.ofText "CREATE TABLE u (b TEXT)" = .ok (.createTable "u" [⟨⟨"b", .text⟩, false⟩]) ∧
      Statement.ofText "INSERT INTO t VALUES (1), (2)" =
        .ok (.insert "t" none [[.integer 1], [.integer 2]]) ∧
      (one.catalog.execute "INSERT INTO t VALUES (1), (2)").reply = .inserted 2 ∧
      (two.catalog.execute "CREATE TABLE u (b TEXT)").reply = .done ∧
      (one.catalog.execute "INSERT INTO t VALUES (1), (2)").catalog =
        (two.catalog.execute "CREATE TABLE u (b TEXT)").catalog := by
  have hcreate : Statement.ofText "CREATE TABLE u (b TEXT)" =
      .ok (.createTable "u" [⟨⟨"b", .text⟩, false⟩]) := by
    decide +kernel
  have hinsert : Statement.ofText "INSERT INTO t VALUES (1), (2)" =
      .ok (.insert "t" none [[.integer 1], [.integer 2]]) := by
    decide +kernel
  have hdone : (((empty "main").executeAll ["CREATE TABLE t (a INTEGER)"]).execute
      "CREATE TABLE u (b TEXT)").reply = .done := by
    decide +kernel
  have hinserted : (((empty "main").executeAll ["CREATE TABLE t (a INTEGER)"]).execute
      "INSERT INTO t VALUES (1), (2)").reply = .inserted 2 := by
    decide +kernel
  obtain ⟨hsecond, hfirst, hcatalog⟩ := execute_comm "main" ["CREATE TABLE t (a INTEGER)"]
    hcreate hinsert (.inl (by decide))
  exact ⟨hcreate, hinsert, hsecond.trans hinserted, hfirst.trans hdone, hcatalog⟩

end Catalog

end TableStore
