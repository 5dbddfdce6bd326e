import Mathlib.Algebra.GroupWithZero.Nat
import TableStore.Proofs.Session.Commutation
import TableStore.Proofs.Session.Contents
import TableStore.Proofs.Sql.Phrases
import TableStore.Proofs.Storage.Counts

/-!
# Replies add up

The replies to texts tell how many rows there are. Since a table was created, what its insertions have
reported less what its deletions have reported is the number of its rows, which its counter says and
a selection of all rows yields. No other statement changes the number.

* `Journal` — texts that have been run, with the replies to them; `Journal.sinceCreation`,
  `Journal.reported` — the part that concerns the rows of a table, and the sums in it.
* `Catalog.Balanced` — the counters agree with a journal; `Catalog.Sound.balanced_execute` says that
  they go on to agree.
* `Sql.ofText_everything` — a selection of all rows can be written down for any name.
* `Catalog.rows_reported` — the whole of it, after any texts.
-/

namespace TableStore

open Sql (Statement)

/-! ## Journals -/

/-- Texts that have been run one after the other, each with the reply to it. -/
abbrev Journal := List (String × Reply)

namespace Journal

/-- Whether a text was a statement of a kind about a table, and has succeeded. -/
def tells (title table : String) (entry : String × Reply) : Bool :=
  entry.2.success &&
    match Statement.ofText entry.1 with
    | .ok statement => statement.title == title && statement.table == table
    | .error _ => false

/-- The entries since a table was created for the last time. -/
def sinceCreation (table : String) (journal : Journal) : Journal :=
  (journal.reverse.takeWhile fun entry => !tells "CREATE TABLE" table entry).reverse

/-- The sum of the rows that the successful statements of a kind about a table have reported. -/
def reported (title table : String) (journal : Journal) : Nat :=
  ((journal.filter (tells title table)).filterMap (·.2.rowsAffected)).sum

variable {title table text : String} {journal : Journal} {entry : String × Reply}

theorem sinceCreation_concat (table : String) (journal : Journal) (entry : String × Reply) :
    sinceCreation table (journal ++ [entry]) =
      if tells "CREATE TABLE" table entry then [] else sinceCreation table journal ++ [entry] := by
  unfold sinceCreation
  rw [List.reverse_concat, List.takeWhile_cons]
  split <;> simp_all

theorem reported_append (title table : String) (journal more : Journal) :
    reported title table (journal ++ more) =
      reported title table journal + reported title table more := by
  simp [reported]

/-- An entry that tells nothing of a table leaves the sums of it as they are. -/
theorem reported_concat_of_silent (hsilent : ∀ title, tells title table entry = false) :
    reported title table (sinceCreation table (journal ++ [entry])) =
      reported title table (sinceCreation table journal) := by
  rw [sinceCreation_concat, hsilent, if_neg Bool.false_ne_true, reported_append]
  simp [reported, hsilent]

/-- A statement that has failed tells of nothing. -/
theorem tells_of_failure (h : entry.2.success = false) : tells title table entry = false := by
  simp [tells, h]

/-- A statement tells of no table but its own. -/
theorem tells_of_ne {statement : Statement} (hread : Statement.ofText entry.1 = .ok statement)
    (hne : table ≠ statement.table) : tells title table entry = false := by
  simp [tells, hread, hne.symm]

/-- A creation that has succeeded tells so. -/
theorem tells_creation {statement : Statement} {schema : Schema}
    (hread : Statement.ofText text = .ok statement)
    (hcommand : statement.command = .ok (.create table schema)) (answer : Answer) :
    tells "CREATE TABLE" table (text, statement.reply answer) = true := by
  have htable : statement.table = table := (Statement.table_command hcommand).symm
  have htitle : statement.title = "CREATE TABLE" := by
    cases statement <;> first | rfl | cases hcommand
  simp [tells, hread, htitle, htable, Statement.success_reply]

/-- The reply to an operation reports the rows that come in or go out by it. -/
theorem reported_call {statement : Statement} {name : String} {operation : Table.Call}
    (hread : Statement.ofText text = .ok statement)
    (hcommand : statement.command = .ok (.call name operation)) (answer : Answer) :
    let entry := (text, statement.reply answer)
    tells "CREATE TABLE" statement.table entry = false ∧
      reported "INSERT" statement.table [entry] = operation.entering answer ∧
      reported "DELETE" statement.table [entry] = operation.leaving answer := by
  intro entry
  cases statement with
  | createTable table declarations =>
    obtain ⟨_, -, hcreate⟩ := Statement.createTable_command hcommand
    cases hcreate
  | dropTable table => cases hcommand
  | insert | select | update | delete =>
    -- only one of the two kinds is the statement's own, and the answer is what it reports
    cases hcommand
    cases answer <;>
      simp [entry, tells, reported, hread, Statement.title, Statement.table,
        Table.Call.entering, Table.Call.leaving, Statement.reply, Reply.done, Reply.inserted,
        Reply.affected, Reply.selected]

end Journal

/-! ## Runs -/

namespace Catalog

variable {catalog : Catalog}

/-- The texts that are run on a catalog, with the replies to them. -/
def journal (catalog : Catalog) (texts : List String) : Journal :=
  texts.zip (catalog.replies texts)

theorem journal_concat (catalog : Catalog) (texts : List String) (text : String) :
    catalog.journal (texts ++ [text]) =
      catalog.journal texts ++ [(text, ((catalog.executeAll texts).execute text).reply)] := by
  unfold journal
  rw [replies_append, List.zip_append (catalog.length_replies texts).symm]
  rfl

/-- The counter of each table is what has been inserted less what has been deleted, according to the
replies since the table was created. -/
def Balanced (catalog : Catalog) (journal : Journal) : Prop :=
  ∀ table ∈ catalog.tables,
    table.rowCount + (journal.sinceCreation table.name).reported "DELETE" table.name =
      (journal.sinceCreation table.name).reported "INSERT" table.name

/-- A text adds to the journal what it changes in the counters. -/
theorem Sound.balanced_execute (h : catalog.Sound) {journal : Journal}
    (hbalanced : catalog.Balanced journal) (text : String) :
    (catalog.execute text).catalog.Balanced (journal ++ [(text, (catalog.execute text).reply)]) := by
  have hafter := h.execute text
  intro table htable
  rcases h.execute_cases text with
    ⟨hfailure, hsame⟩ | ⟨statement, command, answer, hread, hcommand, hreply, heffect⟩
  · -- a failure changes no counter and tells of none
    rw [hsame] at htable
    have hsilent : ∀ title, Journal.tells title table.name (text, (catalog.execute text).reply) =
        false :=
      fun _ => Journal.tells_of_failure hfailure
    rw [Journal.reported_concat_of_silent hsilent, Journal.reported_concat_of_silent hsilent]
    exact hbalanced table htable
  by_cases hown : table.name = statement.table
  swap
  · -- a table of another name has been there before
    rw [hafter.mem_iff, (h.execute_entry hread).2, if_neg hown, ← h.mem_iff] at htable
    have hsilent : ∀ title, Journal.tells title table.name (text, (catalog.execute text).reply) =
        false :=
      fun _ => Journal.tells_of_ne hread hown
    rw [Journal.reported_concat_of_silent hsilent, Journal.reported_concat_of_silent hsilent]
    exact hbalanced table htable
  have hfound := hafter.mem_iff.mp htable
  rw [hown, ← Statement.table_command hcommand] at hfound
  rw [hreply, Journal.sinceCreation_concat]
  rcases heffect.own_table hfound with
    ⟨schema, hcreate, hempty⟩ | ⟨before, operation, hcall, hbefore, hperform⟩
  · -- the table has just been created, and the journal starts again
    rw [hcreate] at hcommand
    rw [if_pos (Journal.tells_creation hread hcommand answer), hempty]
    rfl
  · rw [hcall] at hcommand
    obtain ⟨hmem, hname⟩ := find?_eq_some hbefore
    obtain ⟨rows, hrows⟩ := h.tables before hmem
    have hcount := hrows.rowCount_perform hperform
    have hold := hbalanced before hmem
    rw [hname] at hold
    obtain ⟨htells, hinsert, hdelete⟩ := Journal.reported_call hread hcommand answer
    rw [← hown] at htells hinsert hdelete
    rw [htells, if_neg Bool.false_ne_true, Journal.reported_append, Journal.reported_append,
      hinsert, hdelete]
    omega

/-- The counters agree with the replies after any texts. -/
theorem balanced_executeAll (name : String) (texts : List String) :
    ((empty name).executeAll texts).Balanced ((empty name).journal texts) := by
  -- by induction on the texts from the last one on
  induction texts using List.reverseRecOn with
  | nil => exact fun table htable => nomatch htable
  | append_singleton texts text ih =>
    rw [journal_concat, executeAll_append]
    exact (sound_executeAll name texts).balanced_execute ih text

/-! ## Selections of all rows -/

end Catalog

/-- A selection of all rows can be written down for any name. -/
theorem Sql.ofText_everything {table : String} (h : Spellable ⟨.identifier, table⟩) :
    Statement.ofText ("SELECT * FROM " ++ table) = .ok (.select .all table none .always) := by
  have hselect : Spellable ⟨.keyword, "SELECT"⟩ := spellable_keyword (by decide)
  have hfrom : Spellable ⟨.keyword, "FROM"⟩ := spellable_keyword (by decide)
  have hnone : ∀ c ∈ ([] : List Char), Text.isBlank c = true := by simp
  have hblank : ∀ c ∈ [' '], Text.isBlank c = true := List.forall_mem_singleton.mpr rfl
  refine Statement.ofText_ok_iff.mpr ⟨_, ?_, .bare (.select table (.all "*") .none .always)⟩
  -- four tokens with a blank between each two of them
  have hname : Spelled (' ' :: table.toList) [⟨.identifier, table⟩] := by
    have hspelled := @Spelled.token _ _ [] _ _ hblank (lexeme_spelling h) (by simp [Stops])
      (.done hnone)
    simpa [Token.spelling] using hspelled
  have hword := Spelled.token hblank (lexeme_spelling hfrom)
    (stops_of_blank (by rintro c ⟨⟩; decide)) hname
  have hasterisk : Lexeme ⟨.asterisk, "*"⟩ ['*'] :=
    .mark (show ('*', .asterisk) ∈ marks by decide)
  have hmark := Spelled.token hblank hasterisk trivial hword
  have hall := Spelled.token hnone (lexeme_spelling hselect)
    (stops_of_blank (by rintro c ⟨⟩; decide)) hmark
  rw [String.toList_append]
  exact hall

namespace Catalog

variable {catalog : Catalog} {table : Table} {text : String}

/-- A selection of all rows succeeds and yields as many as the counter of the table says. -/
theorem Sound.execute_everything (h : catalog.Sound) (htable : table ∈ catalog.tables)
    {join : Option Sql.Join}
    (hread : Statement.ofText text = .ok (.select .all table.name join .always)) :
    (catalog.execute text).reply.success = true ∧
      ∃ rows, (catalog.execute text).reply.rows = some rows ∧ rows.length = table.rowCount := by
  obtain ⟨reference, hrows⟩ := h.tables table htable
  obtain ⟨rows, hperform, hlength⟩ := hrows.select_everything
  have hreply : (catalog.execute text).reply = .selected rows := by
    rw [(h.execute_entry hread).1, Statement.table, h.mem_iff.mp htable]
    simp only [Statement.act, Statement.command, Command.act, hperform, Table.Change.answer,
      Statement.reply]
  rw [hreply]
  exact ⟨rfl, rows, rfl, hlength⟩

/-! ## What a reply holds, and what keeps the counter -/

/-- A reply holds rows if it is the one to a selection that has succeeded, and a number of rows if it
is the one to an insertion, an update or a deletion that has. -/
theorem Sound.parts_execute (h : catalog.Sound) (text : String) :
    let reply := (catalog.execute text).reply
    (reply.rows.isSome = true ↔ reply.success = true ∧
      ∃ statement, Statement.ofText text = .ok statement ∧ statement.title = "SELECT") ∧
    (reply.rowsAffected.isSome = true ↔ reply.success = true ∧
      ∃ statement, Statement.ofText text = .ok statement ∧
        statement.title ∈ ["INSERT", "UPDATE", "DELETE"]) := by
  intro reply
  rcases h.execute_effect text with
    ⟨cause, -, hreply, -⟩ | ⟨statement, command, answer, hread, hcommand, hreply, heffect⟩
  · -- the reply to a failure holds a message only
    have hfailed : reply = .ofError cause := hreply
    have hparts : (Reply.ofError cause).rows = none ∧ (Reply.ofError cause).rowsAffected = none := by
      unfold Reply.ofError Reply.ofFailure
      split <;> exact ⟨rfl, rfl⟩
    simp [hfailed, Reply.success_ofError, hparts]
  · have hanswered : reply = statement.reply answer := hreply
    simp only [hanswered, hread, Statement.success_reply, true_and, Except.ok.injEq,
      exists_eq_left']
    generalize (catalog.execute text).catalog = after at heffect
    -- the kind of the statement tells what its request answers with
    cases statement with
    | createTable => simp [Statement.title, Statement.reply, Reply.done]
    | dropTable => simp [Statement.title, Statement.reply, Reply.done]
    | select =>
      cases hcommand
      cases heffect with
      | calls _ _ _ hperform =>
        obtain ⟨rows, rfl⟩ := Table.answer_of_perform hperform
        simp [Statement.title, Statement.reply, Reply.selected]
    | insert | update | delete =>
      cases hcommand
      cases heffect with
      | calls _ _ _ hperform =>
        obtain ⟨rows, rfl⟩ := Table.answer_of_perform hperform
        simp [Statement.title, Statement.reply, Reply.inserted, Reply.affected]

/-- Failures, selections, updates and statements about other tables keep the counter of a table. -/
theorem Sound.rowCount_execute (h : catalog.Sound) (htable : table ∈ catalog.tables)
    (hkeeps : (catalog.execute text).reply.success = false ∨
      ∃ statement, Statement.ofText text = .ok statement ∧
        (statement.title ∈ ["SELECT", "UPDATE"] ∨ statement.table ≠ table.name)) :
    ∃ after, (catalog.execute text).catalog.find? table.name = some after ∧
      after.rowCount = table.rowCount := by
  have hfound := h.mem_iff.mp htable
  rcases h.execute_cases text with
    ⟨-, hsame⟩ | ⟨statement, command, answer, hread, hcommand, hreply, heffect⟩
  · rw [hsame]
    exact ⟨table, hfound, rfl⟩
  rw [hreply, Statement.success_reply] at hkeeps
  simp only [Bool.true_eq_false, false_or, hread, Except.ok.injEq, exists_eq_left'] at hkeeps
  have hentries := (h.execute_entry hread).2 table.name
  by_cases hown : table.name = statement.table
  swap
  · rw [if_neg hown] at hentries
    exact ⟨table, hentries.trans hfound, rfl⟩
  have htitle := hkeeps.resolve_right fun hne => hne hown.symm
  -- an operation on the table, by which no row comes in or goes out
  obtain ⟨operation, rfl, hstill⟩ : ∃ operation, command = .call table.name operation ∧
      operation.entering answer = 0 ∧ operation.leaving answer = 0 := by
    cases statement with
    | select | update =>
      cases hcommand
      exact ⟨_, by rw [hown]; rfl, rfl, rfl⟩
    | createTable | dropTable | insert | delete => simp [Statement.title] at htitle
  generalize (catalog.execute text).catalog = after at heffect
  cases heffect with
  | @calls _ before after _ _ _ hbefore hperform hname =>
    obtain rfl : before = table := Option.some.inj (hbefore.symm.trans hfound)
    obtain ⟨rows, hrows⟩ := h.tables before htable
    have hcount := hrows.rowCount_perform hperform
    rw [hstill.1, hstill.2] at hcount
    exact ⟨after, find?_replace hbefore hname, hcount⟩

/-- After any texts, the rows of each table are those that its insertions have reported less those that
its deletions have reported since it was created, and there are never fewer of them than a deletion
would take out. A selection of all rows succeeds and yields this many. Failures, selections, updates and
statements about other tables keep the number, and what a reply holds depends on the kind of a statement
that has succeeded. -/
theorem rows_reported (name : String) (texts : List String) :
    let catalog : Catalog := (empty name).executeAll texts
    let journal : Journal := (empty name).journal texts
    (∀ table ∈ catalog.tables,
      let recent := journal.sinceCreation table.name
      recent.reported "DELETE" table.name ≤ recent.reported "INSERT" table.name ∧
      table.rowCount =
        recent.reported "INSERT" table.name - recent.reported "DELETE" table.name ∧
      (∀ condition mask, table.satisfying condition = .ok mask →
        mask.rows.length ≤ table.rowCount) ∧
      (let everything := (catalog.execute ("SELECT * FROM " ++ table.name)).reply
       everything.success = true ∧
         ∃ rows, everything.rows = some rows ∧ rows.length = table.rowCount) ∧
      (∀ text join, Statement.ofText text = .ok (.select .all table.name join .always) →
        (catalog.execute text).reply.success = true ∧
          ∃ rows, (catalog.execute text).reply.rows = some rows ∧ rows.length = table.rowCount) ∧
      ∀ text, ((catalog.execute text).reply.success = false ∨
          ∃ statement, Statement.ofText text = .ok statement ∧
            (statement.title ∈ ["SELECT", "UPDATE"] ∨ statement.table ≠ table.name)) →
        ∃ after, (catalog.execute text).catalog.find? table.name = some after ∧
          after.rowCount = table.rowCount) ∧
    ∀ text,
      let reply := (catalog.execute text).reply
      (reply.rows.isSome = true ↔ reply.success = true ∧
        ∃ statement, Statement.ofText text = .ok statement ∧ statement.title = "SELECT") ∧
      (reply.rowsAffected.isSome = true ↔ reply.success = true ∧
        ∃ statement, Statement.ofText text = .ok statement ∧
          statement.title ∈ ["INSERT", "UPDATE", "DELETE"]) := by
  intro catalog journal
  have hsound : catalog.Sound := sound_executeAll name texts
  refine ⟨fun table htable => ?_, hsound.parts_execute⟩
  intro recent
  have hbalance : table.rowCount + recent.reported "DELETE" table.name =
      recent.reported "INSERT" table.name := balanced_executeAll name texts table htable
  have hspellable := (written_executeAll name texts table htable).declarable.name_spellable
  refine ⟨by omega, by omega, ?_, ?_, ?_, ?_⟩
  · exact fun condition mask => Table.length_rows_le
  · exact hsound.execute_everything htable (Sql.ofText_everything hspellable)
  · exact fun text join hread => hsound.execute_everything htable hread
  · exact fun text hkeeps => hsound.rowCount_execute htable hkeeps

end Catalog

end TableStore
