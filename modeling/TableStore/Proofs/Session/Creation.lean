import TableStore.Proofs.Session.Events

/-!
# Creating a table

A table is created under a new name from columns of different names. Any number of the columns may be
marked as the primary key: the last mark counts, and each of the others is told of, before it is known
whether there will be a table at all. A column name that is declared twice is reported before a table
that exists, and the key always names a column, for it is taken from the columns.

* `Declaration.marked` — the marked columns; `Declaration.getLast?_marked_iff` finds the last of them in
  the declarations.
* `Declaration.schema_cases` — the schema of the declarations, or the name that is declared twice.
* `Declaration.warnings_eq` — the events of the level `WARN`.
* `Session.result_creation` — what comes of a creation, in the order of the causes for a failure.
* `Catalog.creation_decided` — all of it for any declarations and any catalog.
-/

namespace TableStore

open Sql (Declaration Statement)

/-! ## Declarations -/

namespace Sql.Declaration

/-- The names of the declared columns. -/
def names (declarations : List Declaration) : List String :=
  declarations.map (·.field.name)

/-- The names of the columns that are marked as the primary key. -/
def marked (declarations : List Declaration) : List String :=
  (declarations.filter (·.isKey)).map (·.field.name)

variable {declarations : List Declaration}

theorem marked_subset : marked declarations ⊆ names declarations :=
  List.map_subset _ (List.filter_subset_self declarations)

/-- The last mark is the one behind which no column is marked. -/
theorem getLast?_marked_iff {key : String} :
    (marked declarations).getLast? = some key ↔
      ∃ before declaration later, declarations = before ++ declaration :: later ∧
        declaration.isKey = true ∧ declaration.field.name = key ∧
        ∀ other ∈ later, other.isKey = false := by
  rw [marked, List.getLast?_map, List.getLast?_filter, Option.map_eq_some_iff]
  constructor
  · rintro ⟨declaration, hlast, rfl⟩
    -- seen from the end, it is the first one that is marked
    obtain ⟨hkey, later, before, hreverse, hlater⟩ := List.find?_eq_some_iff_append.mp hlast
    refine ⟨before.reverse, declaration, later.reverse, ?_, hkey, rfl, ?_⟩
    · rw [← List.reverse_inj, hreverse]
      simp
    · simpa using hlater
  · rintro ⟨before, declaration, later, rfl, hkey, rfl, hlater⟩
    refine ⟨declaration, List.find?_eq_some_iff_append.mpr ?_, rfl⟩
    exact ⟨hkey, later.reverse, before.reverse, by simp, by simpa using hlater⟩

theorem getLast?_marked_eq_none_iff :
    (marked declarations).getLast? = none ↔
      ∀ declaration ∈ declarations, declaration.isKey = false := by
  rw [List.getLast?_eq_none_iff, marked, List.map_eq_nil_iff, List.filter_eq_nil_iff]
  simp

/-- A name that stands twice, and before the first repetition of which no name does. -/
def Repeated (names : List String) (name : String) : Prop :=
  ∃ before later, names = before ++ name :: later ∧ before.Nodup ∧ name ∈ before

theorem Repeated.not_nodup {names : List String} {name : String} (h : Repeated names name) :
    ¬names.Nodup := by
  obtain ⟨before, later, rfl, -, hmem⟩ := h
  intro hnodup
  exact List.disjoint_of_nodup_append hnodup hmem List.mem_cons_self

/-- A schema is made of different names, with the last marked one as the key, and otherwise a name that
is repeated is refused. The key is one of the names, so it is never missed. -/
theorem schema_cases (declarations : List Declaration) :
    ((names declarations).Nodup ∧ schema declarations =
        .ok ⟨declarations.map (·.field), (marked declarations).getLast?⟩) ∨
      ∃ name, Repeated (names declarations) name ∧
        schema declarations = .error (.columnRepeated name) := by
  have hnames : (declarations.map (·.field)).map (·.name) = names declarations := by
    rw [List.map_map]
    rfl
  cases hrepeat : firstRepeat? [] (names declarations) with
  | none =>
    obtain ⟨hnodup, -⟩ := firstRepeat?_eq_none_iff.mp hrepeat
    refine .inl ⟨hnodup, Schema.make_ok_iff.mpr ⟨rfl, hnames ▸ hnodup, fun key hkey => ?_⟩⟩
    rw [hnames]
    exact marked_subset (List.mem_of_getLast? hkey)
  | some name =>
    obtain ⟨before, later, hcut, hnodup, -, hmem⟩ := firstRepeat?_eq_some hrepeat
    refine .inr ⟨name, ⟨before, later, hcut, hnodup, hmem.resolve_left List.not_mem_nil⟩, ?_⟩
    unfold schema Schema.make
    simp only [hnames, hrepeat]

/-- The check that the key names a column does not fail. -/
theorem schema_ne_keyColumnNotFound (declarations : List Declaration) (key : String) :
    schema declarations ≠ .error (.keyColumnNotFound key) := by
  rcases schema_cases declarations with ⟨-, hschema⟩ | ⟨name, -, hschema⟩
  · rw [hschema]
    intro h
    cases h
  · rw [hschema]
    intro h
    cases h

/-! ### Warnings -/

/-- What is told at the level `WARN` when a table is created: that marks do not count. -/
theorem warnings_eq (table : String) (declarations : List Declaration) (catalog : Catalog) :
    ((Statement.createTable table declarations).events catalog).filter (·.level = .warn) =
      replacements table declarations := by
  have hwarn : (replacements table declarations).filter (·.level = .warn) =
      replacements table declarations :=
    List.filter_eq_self.mpr fun event hevent => by simp [Statement.level_replacements hevent]
  rw [Statement.events, List.filter_append, hwarn]
  -- the creation itself is told at another level
  split <;> simp [Event.level]

theorem length_replacements (table : String) (declarations : List Declaration) :
    (replacements table declarations).length = (marked declarations).length - 1 := by
  show (((marked declarations).zip (marked declarations).tail).map _).length = _
  rw [List.length_map, List.length_zip, List.length_tail]
  omega

theorem getElem?_replacements (table : String) {i : Nat} (hi : i + 1 < (marked declarations).length) :
    (replacements table declarations)[i]? =
      some (.keyReplaced table (marked declarations)[i] (marked declarations)[i + 1]) := by
  have hpair : ((marked declarations).zip (marked declarations).tail)[i]? =
      some ((marked declarations)[i], (marked declarations)[i + 1]) := by
    rw [List.getElem?_zip_eq_some, List.getElem?_tail]
    exact ⟨List.getElem?_eq_getElem _, List.getElem?_eq_getElem _⟩
  show (((marked declarations).zip (marked declarations).tail).map _)[i]? = _
  rw [List.getElem?_map, hpair]
  rfl

end Sql.Declaration

/-! ## Running the statement -/

/-- A text that is a statement: what comes of it is what comes of running the statement. -/
theorem Catalog.execute_of_ofText (catalog : Catalog) {text : String} {statement : Statement}
    (hread : Statement.ofText text = .ok statement) :
    let session : Session := ⟨catalog, [.executing statement.title]⟩
    (catalog.execute text).catalog = (statement.run.result session).2 ∧
      (catalog.execute text).events = statement.run.events session ∧
      (∀ reply, (statement.run.result session).1 = .ok reply →
        (catalog.execute text).reply = reply) ∧
      ∀ cause, (statement.run.result session).1 = .error cause →
        (catalog.execute text).reply = .ofError cause := by
  unfold execute
  simp only [hread, Session.Action.result, Session.Action.events]
  cases statement.run.run ⟨catalog, [.executing statement.title]⟩ with
  | ok reply after => exact ⟨rfl, rfl, fun _ h => Except.ok.inj h, fun _ h => (by cases h)⟩
  | error cause after =>
    exact ⟨rfl, rfl, fun _ h => (by cases h),
      fun _ h => congrArg Reply.ofError (Except.error.inj h)⟩

/-- A table without rows that has the declared columns in order. Its primary key is the last marked one
of them, and it has none if none is marked. -/
structure Table.MadeOf (table : Table) (declarations : List Declaration) : Prop where
  fields_eq : table.schema.fields = declarations.map (·.field)
  columns_eq : table.columns.map Column.field = declarations.map (·.field)
  rows_eq : table.rows? = some []
  key_iff (key : String) : table.schema.primaryKey = some key ↔
    ∃ before declaration later, declarations = before ++ declaration :: later ∧
      declaration.isKey = true ∧ declaration.field.name = key ∧
      ∀ other ∈ later, other.isKey = false
  no_key_iff : table.schema.primaryKey = none ↔
    ∀ declaration ∈ declarations, declaration.isKey = false

theorem Table.madeOf_empty (table : String) (declarations : List Declaration) :
    (Table.empty table
      ⟨declarations.map (·.field), (Declaration.marked declarations).getLast?⟩).MadeOf
        declarations where
  fields_eq := rfl
  columns_eq := by
    rw [empty, List.map_map]
    exact (List.map_congr_left fun field _ => rfl).trans (List.map_id _)
  rows_eq := (holds_empty table _).rows?_eq
  key_iff _ := Declaration.getLast?_marked_iff
  no_key_iff := Declaration.getLast?_marked_eq_none_iff

namespace Session

/-- What comes of a creation: the declared names are compared first, then the table's name is looked
up, and then there is a new table. -/
theorem result_creation (table : String) (declarations : List Declaration) (session : Session) :
    (∃ name, Declaration.Repeated (Declaration.names declarations) name ∧
        (createTable table declarations).result session =
          (.error (.columnRepeated name), session.catalog)) ∨
      (Declaration.names declarations).Nodup ∧
        ((∃ other, session.catalog.find? table = some other ∧
            (createTable table declarations).result session =
              (.error (.tableExists table), session.catalog)) ∨
          ∃ new : Table, session.catalog.find? table = none ∧ new.name = table ∧
            new.MadeOf declarations ∧
            (createTable table declarations).result session =
              (.ok .done, { session.catalog with
                tables := Catalog.place new session.catalog.tables })) := by
  rw [result_createTable]
  rcases Declaration.schema_cases declarations with ⟨hnodup, hschema⟩ | ⟨name, hrepeated, hschema⟩
  · simp only [hschema, Catalog.create]
    cases hfound : session.catalog.find? table with
    | some other => exact .inr ⟨hnodup, .inl ⟨other, rfl, rfl⟩⟩
    | none =>
      exact .inr ⟨hnodup, .inr ⟨_, rfl, rfl, Table.madeOf_empty table declarations, rfl⟩⟩
  · simp only [hschema]
    exact .inl ⟨name, hrepeated, rfl⟩

/-- The events before a creation do not matter to what comes of it. -/
theorem result_createTable_congr (table : String) (declarations : List Declaration)
    (catalog : Catalog) (earlier events : List Event) :
    (createTable table declarations).result ⟨catalog, earlier⟩ =
      (createTable table declarations).result ⟨catalog, events⟩ := by
  rw [result_createTable, result_createTable]

end Session

namespace Catalog

/-- A statement that creates a table, run on any catalog with any declarations. What comes of it does
not depend on the events before it, and it is the same for a text. There is a new table exactly if the
declared names differ and the table's name is not registered; a name that is declared twice is reported
before a table that exists, nothing else is, and then the catalog is left as it was. The new table has
the declared columns, no rows and the last marked column as its primary key. Whether there is a new
table or not, all marked columns but the last one are told of, each with the next one. -/
theorem creation_decided (catalog : Catalog) (table : String) (declarations : List Declaration) :
    let names := declarations.map (·.field.name)
    let marked := (declarations.filter (·.isKey)).map (·.field.name)
    ∃ (answer : Except Error Reply) (after : Catalog) (told : List Event),
      (∀ earlier,
        (Statement.createTable table declarations).run.result ⟨catalog, earlier⟩ = (answer, after) ∧
        (Statement.createTable table declarations).run.events ⟨catalog, earlier⟩ =
          earlier ++ told) ∧
      (∀ text, Statement.ofText text = .ok (.createTable table declarations) →
        (catalog.execute text).catalog = after ∧
        (catalog.execute text).events = .executing "CREATE TABLE" :: told ∧
        (∀ reply, answer = .ok reply → (catalog.execute text).reply = reply) ∧
        ∀ cause, answer = .error cause → (catalog.execute text).reply = .ofError cause) ∧
      ((∃ reply, answer = .ok reply) ↔ names.Nodup ∧ catalog.find? table = none) ∧
      (¬names.Nodup → ∃ before name later, names = before ++ name :: later ∧ before.Nodup ∧
        name ∈ before ∧ answer = .error (.columnRepeated name)) ∧
      (names.Nodup → (catalog.find? table).isSome = true →
        answer = .error (.tableExists table)) ∧
      (∀ key, Schema.make (declarations.map (·.field)) marked.getLast? ≠
        .error (.keyColumnNotFound key)) ∧
      (∀ cause, answer = .error cause → after = catalog) ∧
      (∀ reply, answer = .ok reply →
        (∃ new : Table, after.find? table = some new ∧ new.MadeOf declarations) ∧
        ∀ other, other ≠ table → after.find? other = catalog.find? other) ∧
      (told.filter (·.level = .warn)).length = marked.length - 1 ∧
      ∀ (i : Nat) (hi : i + 1 < marked.length),
        ∃ warning, (told.filter (·.level = .warn))[i]? = some warning ∧
          warning.message = "multiple PRIMARY KEY columns, keeping the last one" ∧
          warning.fields = [("table", table), ("ignored", marked[i]), ("kept", marked[i + 1])] := by
  intro names marked
  let creation := Session.createTable table declarations
  let told := (Statement.createTable table declarations).events catalog
  have hevents : ∀ earlier, creation.events ⟨catalog, earlier⟩ = earlier ++ told :=
    fun earlier => Session.events_createTable table declarations ⟨catalog, earlier⟩
  have hresult : ∀ earlier, creation.result ⟨catalog, earlier⟩ = creation.result ⟨catalog, []⟩ :=
    fun earlier => Session.result_createTable_congr table declarations catalog earlier []
  refine ⟨(creation.result ⟨catalog, []⟩).1, (creation.result ⟨catalog, []⟩).2, told,
    fun earlier => ⟨hresult earlier, hevents earlier⟩, fun text hread => ?_, ?_⟩
  · -- a text announces the statement and runs it
    obtain ⟨hafter, htold, hreply, hcause⟩ := catalog.execute_of_ofText hread
    have hanswer := congrArg Prod.fst (hresult [.executing "CREATE TABLE"])
    exact ⟨hafter.trans (congrArg Prod.snd (hresult _)), htold.trans (hevents _),
      fun reply h => hreply reply (hanswer.trans h), fun cause h => hcause cause (hanswer.trans h)⟩
  have hkey : ∀ key, Schema.make (declarations.map (·.field)) marked.getLast? ≠
      .error (.keyColumnNotFound key) := Declaration.schema_ne_keyColumnNotFound declarations
  have hwarnings : told.filter (·.level = .warn) = Declaration.replacements table declarations :=
    Declaration.warnings_eq table declarations catalog
  rw [hwarnings]
  have hcount := Declaration.length_replacements table declarations
  have hwarning : ∀ (i : Nat) (hi : i + 1 < marked.length), ∃ warning,
      (Declaration.replacements table declarations)[i]? = some warning ∧
        warning.message = "multiple PRIMARY KEY columns, keeping the last one" ∧
        warning.fields = [("table", table), ("ignored", marked[i]), ("kept", marked[i + 1])] :=
    fun i hi => ⟨_, Declaration.getElem?_replacements table hi, rfl, rfl⟩
  rcases Session.result_creation table declarations ⟨catalog, []⟩ with
    ⟨name, hrepeated, hrun⟩ | ⟨hnodup, ⟨other, hfound, hrun⟩ | ⟨new, hnew, hname, hmade, hrun⟩⟩
  · -- a name is declared twice
    have hnot : ¬names.Nodup := hrepeated.not_nodup
    obtain ⟨before, later, hcut, hdiffer, hmem⟩ := hrepeated
    rw [show creation.result ⟨catalog, []⟩ = _ from hrun]
    exact ⟨by simp [hnot], fun _ => ⟨before, name, later, hcut, hdiffer, hmem, rfl⟩,
      fun h => absurd h hnot, hkey, fun _ _ => rfl, fun _ h => (by cases h), hcount,
      hwarning⟩
  · -- there is a table of the name
    replace hfound : catalog.find? table = some other := hfound
    rw [show creation.result ⟨catalog, []⟩ = _ from hrun]
    exact ⟨by simp [hfound], fun h => absurd hnodup h, fun _ _ => rfl, hkey, fun _ _ => rfl,
      fun _ h => (by cases h), hcount, hwarning⟩
  · -- the new table is found under its name, and the others under theirs
    replace hnew : catalog.find? table = none := hnew
    have hplaced := find?_place (hname.symm ▸ find?_eq_none.mp hnew)
    rw [show creation.result ⟨catalog, []⟩ = _ from hrun]
    refine ⟨by simp [hnew, show names.Nodup from hnodup], fun h => absurd hnodup h,
      fun _ h => ?_, hkey, fun _ h => (by cases h),
      fun _ _ => ⟨⟨new, ?_, hmade⟩, fun other hother => ?_⟩, hcount, hwarning⟩
    · rw [hnew] at h
      cases h
    · exact (hplaced table).trans (if_pos hname.symm)
    · exact (hplaced other).trans (if_neg (hname.symm ▸ hother))

/-- Both columns are marked as the primary key: the second one is it, and the first one is told of. -/
theorem creation_decided_two_keys :
    let text := "CREATE TABLE t (a INTEGER PRIMARY KEY, b TEXT PRIMARY KEY)"
    let step := (empty "main").execute text
    Statement.ofText text =
        .ok (.createTable "t" [⟨⟨"a", .integer⟩, true⟩, ⟨⟨"b", .text⟩, true⟩]) ∧
      step.reply = .done ∧
      (∃ new, step.catalog.find? "t" = some new ∧ new.schema.primaryKey = some "b") ∧
      (step.events.filter (·.level = .warn)).length = 1 := by
  intro text step
  have hread : Statement.ofText text =
      .ok (.createTable "t" [⟨⟨"a", .integer⟩, true⟩, ⟨⟨"b", .text⟩, true⟩]) := by
    decide +kernel
  obtain ⟨answer, after, told, hrun, htext, hsuccess, -, -, -, -, hnew, hcount, -⟩ :=
    creation_decided (empty "main") "t" [⟨⟨"a", .integer⟩, true⟩, ⟨⟨"b", .text⟩, true⟩]
  obtain ⟨hafter, hevents, hreply, -⟩ := htext text hread
  obtain ⟨reply, hanswer⟩ := hsuccess.mpr ⟨by decide, rfl⟩
  obtain ⟨⟨new, hfound, hmade⟩, -⟩ := hnew reply hanswer
  have hdone : reply = .done := by
    have hfirst : answer = .ok .done := (congrArg Prod.fst (hrun []).1).symm
    exact Except.ok.inj (hanswer.symm.trans hfirst)
  refine ⟨hread, (hreply reply hanswer).trans hdone, ⟨new, ?_, ?_⟩, ?_⟩
  · rw [hafter]
    exact hfound
  · rw [hmade.key_iff]
    exact ⟨[⟨⟨"a", .integer⟩, true⟩], ⟨⟨"b", .text⟩, true⟩, [], rfl, rfl, rfl, by simp⟩
  · rw [hevents]
    exact hcount

end Catalog

end TableStore
