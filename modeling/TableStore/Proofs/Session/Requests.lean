import TableStore.Proofs.Storage.Catalog
import TableStore.Session.Run

/-!
# Statements as requests to the catalog

Running a statement is one request to the catalog, except for a declaration of columns that make no
schema. So what is known of requests is known of texts: every catalog that texts lead to is sound.

* `Sql.Statement.command` — the request that a statement makes.
* `Sql.Statement.outcome` — the catalog and the reply that come of it.
* `Catalog.Sound.execute_eq` — a text has the outcome of the statement that it is read as.
* `Catalog.executeAll`, `Catalog.replies` — texts one after the other; `Catalog.sound_executeAll`.
-/

namespace TableStore

/-! ## Requests and replies -/

namespace Sql

/-- The schema that declarations make. The last column that is marked as the primary key is it. -/
def Declaration.schema (declarations : List Declaration) : Except Error Schema :=
  Schema.make (declarations.map (·.field))
    ((declarations.filter (·.isKey)).map (·.field.name)).getLast?

namespace Statement

/-- The request that a statement makes, unless its columns make no schema. -/
def command : Statement → Except Error Catalog.Command
  | .createTable table declarations => (Declaration.schema declarations).map (.create table)
  | .dropTable table => .ok (.drop table)
  | .insert table columns tuples => .ok (.call table (.insert columns tuples))
  | .select projection table _ condition => .ok (.call table (.select projection condition))
  | .update table assignments condition => .ok (.call table (.update assignments condition))
  | .delete table condition => .ok (.call table (.delete condition))

/-- The reply that tells of the answer to a statement's request. -/
def reply : Statement → Answer → Reply
  | .insert .., .count rows => .inserted rows
  | .update .., .count rows => .affected rows "updated"
  | .delete .., .count rows => .affected rows "deleted"
  | .select .., .rows rows => .selected rows
  | _, _ => .done

/-- The catalog and the reply that come of a statement. -/
def outcome (statement : Statement) (catalog : Catalog) : Catalog × Reply :=
  match statement.command with
  | .error cause => (catalog, .ofError cause)
  | .ok command =>
    match catalog.perform command with
    | .ok answer after => (after, statement.reply answer)
    | .error cause after => (after, .ofError cause)

theorem createTable_command {table : String} {declarations : List Declaration}
    {command : Catalog.Command} (h : (createTable table declarations).command = .ok command) :
    ∃ schema, Declaration.schema declarations = .ok schema ∧ command = .create table schema := by
  simp only [Statement.command] at h
  cases hschema : Declaration.schema declarations with
  | error cause =>
    rw [hschema] at h
    cases h
  | ok schema =>
    rw [hschema] at h
    cases h
    exact ⟨schema, rfl, rfl⟩

theorem table_command {statement : Statement} {command : Catalog.Command}
    (h : statement.command = .ok command) : command.table = statement.table := by
  cases statement with
  | createTable table declarations =>
    obtain ⟨schema, -, rfl⟩ := createTable_command h
    rfl
  | _ => cases h; rfl

/-- A statement makes no request only if its columns make no schema. -/
theorem kind_of_command {statement : Statement} {cause : Error}
    (h : statement.command = .error cause) : cause.kind = .schema := by
  cases statement with
  | createTable table declarations =>
    simp only [Statement.command] at h
    cases hschema : Declaration.schema declarations with
    | error cause' =>
      rw [hschema] at h
      cases h
      exact Schema.kind_of_make hschema
    | ok schema =>
      rw [hschema] at h
      cases h
  | _ => cases h

theorem success_reply (statement : Statement) (answer : Answer) :
    (statement.reply answer).success = true := by
  cases statement <;> cases answer <;> rfl

end Statement

end Sql

theorem Reply.success_ofError (cause : Error) : (ofError cause).success = false := by
  unfold ofError ofFailure
  split <;> rfl

/-! ## Running a statement -/

namespace Session

/-- Emitting events adds them one after the other, and changes nothing else. -/
theorem run_forM_emit {α : Type} (event : α → Event) (xs : List α) (session : Session) :
    (xs.forM fun x => emit (event x) : Action Unit).run session =
      .ok () { session with events := session.events ++ xs.map event } := by
  induction xs generalizing session with
  | nil => simp [EStateM.run, pure, EStateM.pure]
  | cons x xs ih =>
    have hfirst : (emit (event x)).run session =
        .ok () { session with events := session.events ++ [event x] } := rfl
    have hrest := ih { session with events := session.events ++ [event x] }
    rw [List.append_assoc, List.singleton_append] at hrest
    refine Eq.trans (run_forM_cons ?_) hrest
    exact hfirst

/-- What comes of an action, without the events. -/
def Action.result {α : Type} (action : Action α) (session : Session) : Except Error α × Catalog :=
  match action.run session with
  | .ok answer after => (.ok answer, after.catalog)
  | .error cause after => (.error cause, after.catalog)

/-- Looking at the session leaves it as it is. -/
theorem get_eq (session : Session) :
    (EStateM.get : Action Session) session = .ok session session :=
  rfl

theorem result_createTable (name : String) (declarations : List Sql.Declaration)
    (session : Session) :
    (createTable name declarations).result session =
      match Sql.Declaration.schema declarations with
      | .error cause => (.error cause, session.catalog)
      | .ok schema =>
        match session.catalog.create name schema with
        | .error cause => (.error cause, session.catalog)
        | .ok after => (.ok .done, after) := by
  -- telling of marks that do not count changes nothing but the events
  have hevents := run_forM_emit
    (fun pair : String × String => Event.keyReplaced name pair.1 pair.2)
    (((declarations.filter (·.isKey)).map (·.field.name)).zip
      ((declarations.filter (·.isKey)).map (·.field.name)).tail) session
  unfold Sql.Declaration.schema
  simp only [Action.result, createTable, EStateM.run, bind, EStateM.bind] at hevents ⊢
  rw [hevents]
  cases Schema.make (declarations.map (·.field))
      ((declarations.filter (·.isKey)).map (·.field.name)).getLast? with
  | error cause => rfl
  | ok schema =>
    simp only [ofExcept, pure, EStateM.pure, get, getThe, MonadStateOf.get, get_eq]
    cases session.catalog.create name schema <;> rfl

/-- Changing a table is the request for an operation that does the change. -/
theorem result_alter (name : String) (operation : Table.Call) (change : Table → Table.Change Nat)
    (reply : Answer → Reply)
    (hchange : ∀ table, table.perform operation = Table.Change.map .count (change table))
    (session : Session) :
    (do return reply (.count (← alter name change)) : Action Reply).result session =
      match session.catalog.perform (.call name operation) with
      | .ok answer after => (.ok (reply answer), after)
      | .error cause after => (.error cause, after) := by
  simp only [Action.result, EStateM.run, bind, EStateM.bind, alter, Catalog.perform, Catalog.alter,
    hchange]
  cases session.catalog.find? name with
  | none => rfl
  | some table =>
    simp only [Table.Change.map]
    cases change table <;> rfl

end Session

namespace Catalog

variable {catalog : Catalog}

/-- A statement is run by making its request. -/
theorem Sound.result_run (h : catalog.Sound) (statement : Sql.Statement) (events : List Event) :
    statement.run.result ⟨catalog, events⟩ =
      match statement.command with
      | .error cause => (.error cause, catalog)
      | .ok command =>
        match catalog.perform command with
        | .ok answer after => (.ok (statement.reply answer), after)
        | .error cause after => (.error cause, after) := by
  cases statement with
  | createTable table declarations =>
    simp only [Sql.Statement.run, Session.result_createTable, Sql.Statement.command]
    cases Sql.Declaration.schema declarations with
    | error cause => rfl
    | ok schema =>
      simp only [Except.map, Catalog.perform]
      cases catalog.create table schema <;> rfl
  | dropTable table =>
    simp only [Sql.Statement.run, Session.dropTable, Sql.Statement.command, Catalog.perform,
      Session.Action.result, EStateM.run, bind, EStateM.bind, ofExcept, get, getThe,
      MonadStateOf.get, Session.get_eq]
    cases catalog.drop table <;> rfl
  | insert table columns tuples =>
    exact Session.result_alter table (.insert columns tuples) (fun t => t.insert columns tuples)
      (Sql.Statement.insert table columns tuples).reply (fun _ => rfl) ⟨catalog, events⟩
  | select projection table join condition =>
    simp only [Sql.Statement.run, Session.select, Session.find, find, Sql.Statement.command,
      Catalog.perform, alter, Table.perform, Session.Action.result, EStateM.run, bind, EStateM.bind,
      ofExcept, get, getThe, MonadStateOf.get, Session.get_eq]
    cases hfind : catalog.find? table with
    | none => rfl
    | some found =>
      -- a selection puts the table back as it was
      have hself := h.replace_self (find?_eq_some hfind).1
      cases hselect : found.select projection condition <;> cases join <;>
        simp only [pure, EStateM.pure, hselect, hself] <;> rfl
  | update table assignments condition =>
    exact Session.result_alter table (.update assignments condition)
      (fun t => t.update assignments condition)
      (Sql.Statement.update table assignments condition).reply (fun _ => rfl) ⟨catalog, events⟩
  | delete table condition =>
    exact Session.result_alter table (.delete condition) (fun t => t.delete condition)
      (Sql.Statement.delete table condition).reply (fun _ => rfl) ⟨catalog, events⟩

/-! ## Texts -/

/-- A text has the outcome of the statement that it is read as. -/
theorem Sound.execute_eq (h : catalog.Sound) (text : String) :
    ((catalog.execute text).catalog, (catalog.execute text).reply) =
      match Sql.Statement.ofText text with
      | .error cause => (catalog, .ofError (.malformed cause))
      | .ok statement => statement.outcome catalog := by
  unfold execute
  cases Sql.Statement.ofText text with
  | error cause => rfl
  | ok statement =>
    -- the run differs from the request in the events only
    have hrun := h.result_run statement [.executing statement.title]
    simp only [Session.Action.result] at hrun
    simp only [Sql.Statement.outcome]
    cases hresult : statement.run.run ⟨catalog, [.executing statement.title]⟩ with
    | ok reply after =>
      rw [hresult] at hrun
      cases hcommand : statement.command with
      | error cause => simp [hcommand] at hrun
      | ok command =>
        cases hperform : catalog.perform command <;> simp_all
    | error cause after =>
      rw [hresult] at hrun
      cases hcommand : statement.command with
      | error cause => simp_all
      | ok command =>
        cases hperform : catalog.perform command <;> simp_all

/-- The catalog after texts, run one after the other whether they succeed or fail. -/
def executeAll (catalog : Catalog) (texts : List String) : Catalog :=
  texts.foldl (fun catalog text => (catalog.execute text).catalog) catalog

/-- The replies to texts that are run one after the other. -/
def replies : Catalog → List String → List Reply
  | _, [] => []
  | catalog, text :: texts =>
    (catalog.execute text).reply :: replies (catalog.execute text).catalog texts

theorem executeAll_append (catalog : Catalog) (texts more : List String) :
    catalog.executeAll (texts ++ more) = (catalog.executeAll texts).executeAll more := by
  unfold executeAll
  rw [List.foldl_append]

theorem replies_append (catalog : Catalog) (texts more : List String) :
    catalog.replies (texts ++ more) =
      catalog.replies texts ++ (catalog.executeAll texts).replies more := by
  induction texts generalizing catalog with
  | nil => rfl
  | cons text texts ih =>
    rw [List.cons_append, replies, replies, ih, List.cons_append]
    rfl

theorem length_replies (catalog : Catalog) (texts : List String) :
    (catalog.replies texts).length = texts.length := by
  induction texts generalizing catalog with
  | nil => rfl
  | cons text texts ih => rw [replies, List.length_cons, ih, List.length_cons]

end Catalog

/-- What can come of a text: a failure that changes nothing, for whatever reason except that stored
columns do not fit together, or the effect of the request that its statement makes. -/
theorem Catalog.Sound.execute_effect {catalog : Catalog} (h : catalog.Sound) (text : String) :
    (∃ cause, cause.kind ≠ .runtime ∧ (catalog.execute text).reply = .ofError cause ∧
        (catalog.execute text).catalog = catalog) ∨
      ∃ statement command answer, Sql.Statement.ofText text = .ok statement ∧
        statement.command = .ok command ∧
        (catalog.execute text).reply = statement.reply answer ∧
        Catalog.Effect catalog command (.ok answer (catalog.execute text).catalog) := by
  have heq := h.execute_eq text
  cases hread : Sql.Statement.ofText text with
  | error cause =>
    simp only [hread, Prod.mk.injEq] at heq
    exact .inl ⟨.malformed cause, nofun, heq.2, heq.1⟩
  | ok statement =>
    simp only [hread, Sql.Statement.outcome] at heq
    cases hcommand : statement.command with
    | error cause =>
      simp only [hcommand, Prod.mk.injEq] at heq
      have hkind : cause.kind ≠ .runtime := by
        rw [Sql.Statement.kind_of_command hcommand]
        exact nofun
      exact .inl ⟨cause, hkind, heq.2, heq.1⟩
    | ok command =>
      have heffect := h.perform command
      cases hperform : catalog.perform command with
      | error cause after =>
        simp only [hcommand, hperform, Prod.mk.injEq] at heq heffect
        cases heffect with
        | refuses _ hkind => exact .inl ⟨cause, hkind, heq.2, heq.1⟩
      | ok answer after =>
        simp only [hcommand, hperform, Prod.mk.injEq] at heq heffect
        rw [← heq.1] at heffect
        exact .inr ⟨statement, command, answer, rfl, hcommand, heq.2, heffect⟩

/-- What can come of a text: a failure that changes nothing, or the effect of the request that its
statement makes. -/
theorem Catalog.Sound.execute_cases {catalog : Catalog} (h : catalog.Sound) (text : String) :
    ((catalog.execute text).reply.success = false ∧ (catalog.execute text).catalog = catalog) ∨
      ∃ statement command answer, Sql.Statement.ofText text = .ok statement ∧
        statement.command = .ok command ∧
        (catalog.execute text).reply = statement.reply answer ∧
        Catalog.Effect catalog command (.ok answer (catalog.execute text).catalog) := by
  rcases h.execute_effect text with ⟨cause, -, hreply, hsame⟩ | hanswer
  · rw [hreply]
    exact .inl ⟨Reply.success_ofError cause, hsame⟩
  · exact .inr hanswer

theorem Catalog.Sound.execute {catalog : Catalog} (h : catalog.Sound) (text : String) :
    (catalog.execute text).catalog.Sound := by
  rcases h.execute_cases text with ⟨-, hsame⟩ | ⟨statement, command, answer, -, -, -, heffect⟩
  · rw [hsame]
    exact h
  · exact heffect.sound h

/-- What one text preserves, any number of them does. -/
theorem Catalog.Sound.executeAll {catalog : Catalog} (h : catalog.Sound) (texts : List String) :
    (catalog.executeAll texts).Sound := by
  induction texts generalizing catalog with
  | nil => exact h
  | cons text texts ih => exact ih (h.execute text)

/-- Every catalog that texts lead to is sound. -/
theorem Catalog.sound_executeAll (name : String) (texts : List String) :
    ((empty name).executeAll texts).Sound :=
  (sound_empty name).executeAll texts

end TableStore
