import Mathlib.Data.Finset.Basic
import Mathlib.Data.Finset.Dedup
import TableStore.Proofs.Session.Commutation

/-!
# The log tells which tables there are

What a statement tells in the log is told by other steps than those that change the catalog: a
creation is announced before the table is there, a removal is told afterwards, and marks that do not
count are told before it is known whether there will be a table. All the same the log and the catalog
agree after every text, whether it succeeds or fails.

* `Sql.Statement.events`, `Catalog.events_execute` — the events of a text, exactly.
* `Event.replay` — what somebody who knows nothing but the log makes of an event.
* `Catalog.Sound.replay_execute` — one text, and `Catalog.Sound.replay_events` — any number of them.
* `Catalog.log_agrees` — the log of a session, its catalog, and how the events of a text begin.
-/

namespace TableStore

open Sql (Statement)

/-! ## The events of a text -/

namespace Sql

/-- The events that tell of marks which do not count: each column that is marked as the primary key
is replaced by the next one that is. -/
def Declaration.replacements (table : String) (declarations : List Declaration) : List Event :=
  let keys := (declarations.filter (·.isKey)).map (·.field.name)
  (keys.zip keys.tail).map fun (ignored, kept) => .keyReplaced table ignored kept

/-- The events of running a statement, behind the one that announces it. -/
def Statement.events (statement : Statement) (catalog : Catalog) : List Event :=
  match statement with
  | .createTable table declarations =>
    Declaration.replacements table declarations ++
      match Declaration.schema declarations, catalog.find? table with
      | .ok _, none => [.creatingTable catalog.name table]
      | _, _ => []
  | .dropTable table =>
    match catalog.find? table with
    | some _ => [.droppedTable catalog.name table]
    | none => []
  | .select _ table join _ =>
    match catalog.find? table, join with
    | some _, some second => [.joinIgnored table second.table]
    | _, _ => []
  | .insert .. | .update .. | .delete .. => []

end Sql

namespace Session

/-- The events after an action. -/
def Action.events {α : Type} (action : Action α) (session : Session) : List Event :=
  match action.run session with
  | .ok _ after | .error _ after => after.events

theorem events_createTable (name : String) (declarations : List Sql.Declaration)
    (session : Session) :
    (createTable name declarations).events session =
      session.events ++ (Statement.createTable name declarations).events session.catalog := by
  have hevents := run_forM_emit
    (fun pair : String × String => Event.keyReplaced name pair.1 pair.2)
    (((declarations.filter (·.isKey)).map (·.field.name)).zip
      ((declarations.filter (·.isKey)).map (·.field.name)).tail) session
  unfold Statement.events Sql.Declaration.replacements Sql.Declaration.schema
  simp only [Action.events, createTable, EStateM.run, bind, EStateM.bind] at hevents ⊢
  rw [hevents]
  -- each event is added behind those before it, whatever comes of the rest
  cases Schema.make (declarations.map (·.field))
      ((declarations.filter (·.isKey)).map (·.field.name)).getLast? with
  | error cause =>
    rw [List.append_nil]
    rfl
  | ok schema =>
    simp only [ofExcept, pure, EStateM.pure, get, getThe, MonadStateOf.get, get_eq, Catalog.create]
    cases session.catalog.find? name with
    | some table =>
      rw [List.append_nil]
      rfl
    | none => exact List.append_assoc session.events _ _

theorem events_dropTable (name : String) (session : Session) :
    (dropTable name).events session =
      session.events ++ (Statement.dropTable name).events session.catalog := by
  unfold Statement.events
  simp only [Action.events, dropTable, EStateM.run, bind, EStateM.bind, ofExcept, get, getThe,
    MonadStateOf.get, get_eq, Catalog.drop]
  cases session.catalog.find? name with
  | some table => rfl
  | none => exact (List.append_nil session.events).symm

theorem events_select (projection : Projection) (name : String) (join : Option Sql.Join)
    (condition : Predicate) (session : Session) :
    (select projection name join condition).events session =
      session.events ++
        (Statement.select projection name join condition).events session.catalog := by
  unfold Statement.events
  simp only [Action.events, select, find, Catalog.find, EStateM.run, bind, EStateM.bind, ofExcept,
    get, getThe, MonadStateOf.get, get_eq]
  cases session.catalog.find? name with
  | none => exact (List.append_nil session.events).symm
  | some table =>
    cases hselect : table.select projection condition <;> cases join <;>
      simp only [pure, EStateM.pure, hselect, List.append_nil] <;> rfl

/-- Changing a table tells nothing. -/
theorem events_alter (name : String) (change : Table → Table.Change Nat) (reply : Nat → Reply)
    (session : Session) :
    (do return reply (← alter name change) : Action Reply).events session = session.events := by
  simp only [Action.events, EStateM.run, bind, EStateM.bind, alter]
  cases session.catalog.alter name change <;> rfl

theorem events_run (statement : Statement) (session : Session) :
    statement.run.events session = session.events ++ statement.events session.catalog := by
  cases statement with
  | createTable table declarations => exact events_createTable table declarations session
  | dropTable table => exact events_dropTable table session
  | select projection table join condition =>
    exact events_select projection table join condition session
  | insert table columns tuples =>
    exact (events_alter table _ _ session).trans (List.append_nil _).symm
  | update table assignments condition =>
    exact (events_alter table _ _ session).trans (List.append_nil _).symm
  | delete table condition =>
    exact (events_alter table _ _ session).trans (List.append_nil _).symm

end Session

namespace Catalog

/-- A text that is no statement. -/
theorem execute_malformed (catalog : Catalog) {text : String} {cause : Sql.SyntaxError}
    (hread : Statement.ofText text = .error cause) :
    catalog.execute text = ⟨catalog, .ofError (.malformed cause), [.rejected cause]⟩ := by
  unfold execute
  rw [hread]

/-- The events of a text: that it is no statement, or which kind of statement it is and what running
it tells. -/
theorem events_execute (catalog : Catalog) (text : String) :
    (catalog.execute text).events =
      match Statement.ofText text with
      | .error cause => [.rejected cause]
      | .ok statement => .executing statement.title :: statement.events catalog := by
  cases hread : Statement.ofText text with
  | error cause => rw [catalog.execute_malformed hread]
  | ok statement =>
    have hrun := Session.events_run statement ⟨catalog, [.executing statement.title]⟩
    simp only [Session.Action.events, List.singleton_append] at hrun
    unfold execute
    simp only [hread, ← hrun]
    cases statement.run.run ⟨catalog, [.executing statement.title]⟩ <;> rfl

end Catalog

/-! ## Reading the log -/

namespace Event

/-- What somebody who keeps a set of names makes of an event, given what the log shows of it. Events
of the level `INFO` count only: the table of a creation is added, and the table of a removal is taken
out. There is no result if the one is in the set already or the other is not, or if an event of this
level tells of anything else. -/
def replay (names : Finset String) (event : Event) : Option (Finset String) :=
  if event.level = .info then
    match event.message, event.fields.lookup "table" with
    | "creating table", some table => if table ∈ names then none else some (insert table names)
    | "dropped table", some table => if table ∈ names then some (names.erase table) else none
    | _, _ => none
  else some names

variable {names : Finset String}

@[simp] theorem replay_creatingTable (catalog table : String) :
    replay names (.creatingTable catalog table) =
      if table ∈ names then none else some (insert table names) :=
  rfl

@[simp] theorem replay_droppedTable (catalog table : String) :
    replay names (.droppedTable catalog table) =
      if table ∈ names then some (names.erase table) else none :=
  rfl

theorem foldlM_replay_of_level_ne {events : List Event} (h : ∀ event ∈ events, event.level ≠ .info) :
    events.foldlM replay names = some names := by
  induction events with
  | nil => rfl
  | cons event events ih =>
    obtain ⟨hevent, hevents⟩ := List.forall_mem_cons.mp h
    rw [List.foldlM_cons, replay, if_neg hevent]
    exact ih hevents

/-- A set of names with one of them in it, or without it. -/
def settle (names : Finset String) (name : String) (present : Bool) : Finset String :=
  if present then insert name names else names.erase name

theorem mem_settle {name other : String} {present : Bool} :
    other ∈ settle names name present ↔
      if other = name then present = true else other ∈ names := by
  unfold settle
  cases present <;> by_cases hother : other = name <;> simp [hother]

/-- A set stays as it is if the name is settled as it was. -/
theorem settle_self {name : String} {present : Bool} (h : name ∈ names ↔ present = true) :
    settle names name present = names := by
  ext other
  rw [mem_settle]
  split
  · rename_i hother
    rw [hother, h]
  · rfl

end Event

namespace Catalog

variable {catalog : Catalog}

/-- The registered names are those under which a table is found. -/
theorem mem_tableNames {name : String} :
    name ∈ catalog.tableNames ↔ (catalog.find? name).isSome = true := by
  unfold tableNames find?
  simp

end Catalog

namespace Sql.Statement

theorem level_replacements {table : String} {declarations : List Declaration} {event : Event}
    (h : event ∈ Declaration.replacements table declarations) : event.level = .warn := by
  obtain ⟨pair, -, rfl⟩ := List.mem_map.mp h
  rfl

/-- Only the announcement of a statement has the level `DEBUG`. -/
theorem level_events {statement : Statement} {catalog : Catalog} {event : Event}
    (h : event ∈ statement.events catalog) : event.level ≠ .debug := by
  unfold Statement.events at h
  split at h
  · rcases List.mem_append.mp h with hwarning | hcreation
    · rw [level_replacements hwarning]
      exact nofun
    · split at hcreation
      · cases List.mem_singleton.mp hcreation
        exact nofun
      · cases hcreation
  · split at h
    · cases List.mem_singleton.mp h
      exact nofun
    · cases h
  · split at h
    · cases List.mem_singleton.mp h
      exact nofun
    · cases h
  · cases h
  · cases h
  · cases h

/-- An operation on a table neither adds the table nor takes it out. -/
theorem isSome_act_call {statement : Statement} {name : String} {operation : Table.Call}
    (hcommand : statement.command = .ok (.call name operation)) (entry : Option Table) :
    (statement.act entry).2.isSome = entry.isSome := by
  unfold act
  rw [hcommand]
  cases entry with
  | none => rfl
  | some table =>
    simp only [Catalog.Command.act]
    cases (table.perform operation).answer <;> rfl

/-- Whoever reads the events of a statement knows afterwards whether there is a table of its name. -/
theorem replay_events (statement : Statement) (catalog : Catalog) :
    (statement.events catalog).foldlM Event.replay catalog.tableNames.toFinset =
      some (Event.settle catalog.tableNames.toFinset statement.table
        (statement.act (catalog.find? statement.table)).2.isSome) := by
  have hmem : statement.table ∈ catalog.tableNames.toFinset ↔
      (catalog.find? statement.table).isSome = true := by
    rw [List.mem_toFinset, Catalog.mem_tableNames]
  -- an operation on a table is at most warned of
  have hcall : ∀ {name : String} {operation : Table.Call},
      statement.command = .ok (.call name operation) →
      (∀ event ∈ statement.events catalog, event.level ≠ .info) →
      (statement.events catalog).foldlM Event.replay catalog.tableNames.toFinset =
        some (Event.settle catalog.tableNames.toFinset statement.table
          (statement.act (catalog.find? statement.table)).2.isSome) := by
    intro name operation hcommand hlevel
    rw [Event.foldlM_replay_of_level_ne hlevel, isSome_act_call hcommand, Event.settle_self hmem]
  cases statement with
  | createTable table declarations =>
    have hwarnings : (Declaration.replacements table declarations).foldlM Event.replay
        catalog.tableNames.toFinset = some catalog.tableNames.toFinset :=
      Event.foldlM_replay_of_level_ne fun event hevent => by
        rw [level_replacements hevent]
        decide
    simp only [Statement.table] at hmem ⊢
    rw [Statement.events, List.foldlM_append, hwarnings]
    cases hschema : Declaration.schema declarations <;> cases hfound : catalog.find? table <;>
      simp_all [act, command, Except.map, Catalog.Command.act, Event.settle]
  | dropTable table =>
    simp only [Statement.table] at hmem ⊢
    rw [Statement.events]
    cases hfound : catalog.find? table <;>
      simp_all [act, command, Catalog.Command.act, Event.settle]
  | select projection table join condition =>
    refine hcall rfl fun event hevent => ?_
    simp only [Statement.events] at hevent
    split at hevent
    · cases List.mem_singleton.mp hevent
      simp [Event.level]
    · cases hevent
  | insert table columns tuples => exact hcall rfl (List.forall_mem_nil _)
  | update table assignments condition => exact hcall rfl (List.forall_mem_nil _)
  | delete table condition => exact hcall rfl (List.forall_mem_nil _)

end Sql.Statement

/-! ## Sessions -/

namespace Catalog

variable {catalog : Catalog}

/-- The events of texts that are run one after the other. -/
def events : Catalog → List String → List Event
  | _, [] => []
  | catalog, text :: texts =>
    (catalog.execute text).events ++ events (catalog.execute text).catalog texts

/-- Whoever knows the names of the tables and reads the events of a text knows the names of the tables
after it. -/
theorem Sound.replay_execute (h : catalog.Sound) (text : String) :
    (catalog.execute text).events.foldlM Event.replay catalog.tableNames.toFinset =
      some (catalog.execute text).catalog.tableNames.toFinset := by
  rw [events_execute]
  cases hread : Statement.ofText text with
  | error cause =>
    rw [catalog.execute_malformed hread]
    rfl
  | ok statement =>
    have hevents := statement.replay_events catalog
    -- the announcement changes no set of names
    have hfirst : Event.replay catalog.tableNames.toFinset (.executing statement.title) =
        some catalog.tableNames.toFinset := rfl
    rw [List.foldlM_cons, hfirst]
    refine hevents.trans (congrArg some ?_)
    ext other
    rw [Event.mem_settle, List.mem_toFinset, List.mem_toFinset, mem_tableNames, mem_tableNames,
      (h.execute_entry hread).2]
    split <;> rfl

/-- What holds of one text holds of any number of them. -/
theorem Sound.replay_events (h : catalog.Sound) (texts : List String) :
    (catalog.events texts).foldlM Event.replay catalog.tableNames.toFinset =
      some (catalog.executeAll texts).tableNames.toFinset := by
  induction texts generalizing catalog with
  | nil => rfl
  | cons text texts ih =>
    rw [events, List.foldlM_append, h.replay_execute]
    exact ih (h.execute text)

/-- The names of the tables of a sound catalog increase strictly. -/
theorem Sound.pairwise_tableNames (h : catalog.Sound) : catalog.tableNames.Pairwise (· < ·) :=
  List.pairwise_map.mpr h.ordered

/-- After any texts, whoever starts from no names and reads the log of them comes to the names of the
tables that there are, and never adds a name twice nor takes out one that is not there; the catalog
lists these names in strictly increasing order. The first event of any further text is its only one
of the level `DEBUG`. It tells why the text is no statement, and then the reply tells no cause and
nothing else is told; or it tells of which kind the statement is. -/
theorem log_agrees (name : String) (texts : List String) :
    let catalog : Catalog := (empty name).executeAll texts
    (∃ names : Finset String,
      ((empty name).events texts).foldlM Event.replay ∅ = some names ∧
      (∀ table, table ∈ names ↔ (catalog.find? table).isSome = true) ∧
      (∀ table, table ∈ catalog.tableNames ↔ table ∈ names)) ∧
    catalog.tableNames.Pairwise (· < ·) ∧
    ∀ text, ∃ first rest, (catalog.execute text).events = first :: rest ∧
      first.level = .debug ∧ (∀ event ∈ rest, event.level ≠ .debug) ∧
      match Statement.ofText text with
      | .error cause =>
        first.message = "rejected statement" ∧
        first.fields = [("error", "syntax error: " ++ cause.message)] ∧ rest = [] ∧
        let reply := (catalog.execute text).reply
        reply.success = false ∧ reply.message = some "ERROR: invalid or unsupported syntax" ∧
          reply.rows = none ∧ reply.rowsAffected = none
      | .ok statement =>
        first.message = "executing statement" ∧ first.fields = [("kind", statement.title)] := by
  intro catalog
  have hsound : catalog.Sound := sound_executeAll name texts
  refine ⟨⟨catalog.tableNames.toFinset, (sound_empty name).replay_events texts, ?_, ?_⟩,
    hsound.pairwise_tableNames, fun text => ?_⟩
  · intro table
    rw [List.mem_toFinset, mem_tableNames]
  · intro table
    rw [List.mem_toFinset]
  · have hevents := catalog.events_execute text
    cases hread : Statement.ofText text with
    | error cause =>
      simp only [hread] at hevents
      refine ⟨.rejected cause, [], hevents, rfl, List.forall_mem_nil _, rfl, rfl, rfl, ?_⟩
      rw [catalog.execute_malformed hread]
      exact ⟨rfl, rfl, rfl, rfl⟩
    | ok statement =>
      simp only [hread] at hevents
      exact ⟨.executing statement.title, statement.events catalog, hevents, rfl,
        fun event => Statement.level_events, rfl, rfl⟩

end Catalog

end TableStore
