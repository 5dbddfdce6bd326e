import TableStore.Proofs.Storage.Catalog

/-!
# Refusals come from the schema

Every operation checks its arguments against the name and the schema of the table before it reads a
row. Nothing that it finds afterwards is a failure of the kind of these checks, so the rows neither
cause nor hide one.

* `Predicate.evaluate_of_check_ok`, `Predicate.evaluate_of_check_error` — the check of a condition
  against a column foretells how its evaluation ends on every value of the column.
* `Table.precheck` — the checks that an operation makes against the schema, in their order.
* `Table.answer_of_precheck_error` — what is refused by these checks fails with their cause.
* `Table.Call.Fits` — the arguments of an operation make sense for a schema; what passes the checks
  does, and then it can only fail because of a key.
* `Table.Represents.schema_error_iff` — no other failure is of the kind.
* `Catalog.schema_decides_refusals` — tables of one name and schema refuse the same operations.
-/

namespace TableStore

/-! ## Conditions and values -/

namespace Predicate

variable {condition : Predicate} {field : Field} {value : Value}

/-- A condition that passes the check against a column has an answer for each of its values. -/
theorem evaluate_of_check_ok (hcheck : condition.check field = .ok ())
    (htype : value.type = field.type) : ∃ answer, condition.evaluate (some value) = .ok answer := by
  cases condition with
  | always => exact ⟨true, rfl⟩
  | test column op literal =>
    rcases check_eq column op literal field with ⟨hliteral, hop, -⟩ | ⟨-, cause, herr, -⟩
    · exact op.exists_holds (hliteral.trans htype.symm) hop
    · cases herr.symm.trans hcheck

/-- A condition that does not pass the check against a column has an answer for none of its
values. -/
theorem evaluate_of_check_error {cause : Error} (hcheck : condition.check field = .error cause)
    (htype : value.type = field.type) :
    ∃ cause, condition.evaluate (some value) = .error cause := by
  cases condition with
  | always => cases hcheck
  | test column op literal =>
    rcases check_eq column op literal field with ⟨-, -, hok⟩ | ⟨hnot, -⟩
    · cases hok.symm.trans hcheck
    · -- the value has the type of the column, so it cannot be compared either
      refine op.exists_error fun hcomparable => hnot ?_
      rwa [htype] at hcomparable

end Predicate

/-! ## The checks before a row is read -/

namespace Table

/-- The check of a condition: its column exists, and it passes the check against the column. -/
def admits (table : Table) (condition : Predicate) : Except Error Unit :=
  match condition.column? with
  | none => .ok ()
  | some name => do
    let (field, _) ← table.locate name
    condition.check field

/-- The checks that an operation makes before it reads a row, in the order in which it makes them. -/
def precheck (table : Table) : Call → Except Error Unit
  | .insert columns tuples => do
    let targets ← table.targets columns
    let _ ← tuples.mapM (table.arrange targets)
    return ()
  | .select projection condition => do
    let _ ← table.projected projection
    table.admits condition
  | .update assignments condition => do
    let _ ← assignments.mapM table.resolveAssignment
    table.admits condition
  | .delete condition => table.admits condition

section

variable {table : Table} {condition : Predicate} {cause : Error}

/-- A condition that is not admitted is not evaluated on any row. -/
theorem satisfying_of_admits_error (h : table.admits condition = .error cause) :
    table.satisfying condition = .error cause := by
  unfold admits at h
  unfold satisfying
  cases hcolumn : condition.column? with
  | none =>
    rw [hcolumn] at h
    cases h
  | some name =>
    simp only [hcolumn, bind, Except.bind] at h ⊢
    cases hlocate : table.locate name with
    | error other =>
      rw [hlocate] at h
      simpa using h
    | ok located =>
      simp only [hlocate] at h ⊢
      rw [h]

theorem fits_of_admits (h : table.admits condition = .ok ()) :
    condition.fits table.schema = true := by
  cases condition with
  | always => rfl
  | test column op literal =>
    obtain ⟨⟨field, position⟩, hok, hcheck⟩ := bind_ok_iff.mp h
    rcases table.locate_eq column with ⟨located, hlocate, hok'⟩ | ⟨-, herr⟩
    · -- the column that is checked is the one that the schema has
      cases hok.symm.trans hok'
      rcases Predicate.check_eq column op literal field with ⟨htype, hop, -⟩ | ⟨-, cause, herr, -⟩
      · simpa [Predicate.fits, Schema.type?, hlocate, htype] using hop
      · cases herr.symm.trans hcheck
    · cases herr.symm.trans hok

/-- The answer of a change in another form fails as the change does. -/
theorem Change.answer_map_eq_error {α β : Type} {f : α → β} {change : Change α} :
    (Change.map f change).answer = .error cause ↔ change.answer = .error cause := by
  cases change <;> simp [Change.map, Change.answer]

theorem answer_select_eq_error {projection : Projection} :
    (table.perform (.select projection condition)).answer = .error cause ↔
      table.select projection condition = .error cause := by
  unfold perform
  cases hselect : table.select projection condition <;> simp [hselect, Change.answer]

/-- What is refused by the checks before a row is read fails with their cause, whatever the table
stores. -/
theorem answer_of_precheck_error {call : Call} (h : table.precheck call = .error cause) :
    (table.perform call).answer = .error cause := by
  cases call with
  | insert columns tuples =>
    rw [perform, Change.answer_map_eq_error, insert]
    simp only [precheck, bind, Except.bind] at h ⊢
    cases htargets : table.targets columns with
    | error other => simpa [htargets, Change.answer] using h
    | ok targets =>
      -- the keys are compared only when all tuples are arranged
      simp only [htargets] at h ⊢
      cases hrows : tuples.mapM (table.arrange targets) with
      | error other => simpa [hrows, Change.answer] using h
      | ok rows =>
        rw [hrows] at h
        cases h
  | select projection condition =>
    simp only [perform, select, precheck, bind, Except.bind] at h ⊢
    cases hpositions : table.projected projection with
    | error other => simpa [hpositions, Change.answer] using h
    | ok positions =>
      rw [hpositions] at h
      simp only [satisfying_of_admits_error h, Change.answer]
  | update assignments condition =>
    rw [perform, Change.answer_map_eq_error, update]
    simp only [precheck, bind, Except.bind] at h ⊢
    cases hresolved : assignments.mapM table.resolveAssignment with
    | error other => simpa [hresolved, Change.answer] using h
    | ok resolved =>
      -- the assignments are resolved before the condition is looked at
      rw [hresolved] at h
      simp only [satisfying_of_admits_error h, Change.answer]
  | delete condition =>
    rw [perform, Change.answer_map_eq_error, delete]
    simp only [satisfying_of_admits_error h, Change.answer]

end

/-! ## Nothing else is a failure of the kind -/

/-- The arguments of an operation make sense for a schema. -/
def Call.Fits (schema : Schema) : Call → Prop
  | .insert columns tuples =>
    ∃ order, schema.order? columns = some order ∧ tuples.all (schema.accepts order) = true
  | .select projection condition => (projection.fits schema && condition.fits schema) = true
  | .update assignments condition =>
    (assignments.all (·.fits schema) && condition.fits schema) = true
  | .delete condition => condition.fits schema = true

/-- Arguments that pass the checks make sense for the schema. -/
theorem Holds.fits_of_precheck {table : Table} {rows : List (List Value)} (h : table.Holds rows)
    {call : Call} (hpass : table.precheck call = .ok ()) : call.Fits table.schema := by
  cases call with
  | insert columns tuples =>
    obtain ⟨targets, htargets, hrest⟩ := bind_ok_iff.mp hpass
    obtain ⟨arrangedRows, harranged, -⟩ := bind_ok_iff.mp hrest
    rcases table.targets_eq columns with ⟨found, hfound, horder, hperm, hat⟩ | ⟨-, cause, herr, -⟩
    · cases htargets.symm.trans hfound
      -- the columns are resolved, and no tuple is refused
      rcases table.mapM_arrange_eq hperm hat tuples with ⟨haccepts, -⟩ | ⟨-, cause, herr, -⟩
      · exact ⟨_, horder, haccepts⟩
      · cases herr.symm.trans harranged
    · cases herr.symm.trans htargets
  | select projection condition =>
    obtain ⟨positions, hpositions, hadmits⟩ := bind_ok_iff.mp hpass
    show (projection.fits table.schema && condition.fits table.schema) = true
    rcases h.projected_eq projection with ⟨hfits, -⟩ | ⟨-, cause, herr, -⟩
    · rw [hfits, fits_of_admits hadmits, Bool.and_self]
    · cases herr.symm.trans hpositions
  | update assignments condition =>
    obtain ⟨resolved, hresolved, hadmits⟩ := bind_ok_iff.mp hpass
    show (assignments.all (·.fits table.schema) && condition.fits table.schema) = true
    rcases table.resolveAssignments_eq assignments with ⟨hfits, -⟩ | ⟨-, cause, herr, -⟩
    · rw [hfits, fits_of_admits hadmits, Bool.and_self]
    · cases herr.symm.trans hresolved
  | delete condition => exact fits_of_admits hpass

end Table

/-- An operation whose arguments make sense for the schema can only fail because of a key. -/
theorem RowTable.kind_of_fits {table : RowTable} {call : Table.Call} (hfits : call.Fits table.schema)
    {kind : Failure.Kind} (h : (table.perform call).1 = .error kind) : kind = .constraint := by
  cases call with
  | insert columns tuples =>
    obtain ⟨order, horder, haccepts⟩ := hfits
    simp only [perform, insert, horder, haccepts, ↓reduceIte] at h
    exact kind_of_commit h
  | select projection condition =>
    rw [Table.Call.Fits] at hfits
    simp only [perform, select, hfits, ↓reduceIte] at h
    cases h
  | update assignments condition =>
    rw [Table.Call.Fits] at hfits
    simp only [perform, update, hfits, ↓reduceIte] at h
    exact kind_of_commit h
  | delete condition =>
    rw [Table.Call.Fits] at hfits
    simp only [perform, delete, hfits, ↓reduceIte] at h
    cases h

namespace Table

namespace Represents

variable {table : Table} {reference : RowTable} {cause : Error}

/-- What passes the checks does not fail because of the schema. -/
theorem kind_ne_schema (h : table.Represents reference) {call : Call}
    (hpass : table.precheck call = .ok ()) (hfail : (table.perform call).answer = .error cause) :
    cause.kind ≠ .schema := by
  have hfits := h.holds.fits_of_precheck hpass
  rw [h.schema_eq] at hfits
  -- the list of the rows fails for the same kind of cause
  have hanswer := (h.perform call).answer_eq
  rw [hfail] at hanswer
  rw [RowTable.kind_of_fits hfits hanswer.symm]
  exact nofun

/-- An operation fails because of the schema exactly if the checks before a row is read refuse it,
and with their cause. -/
theorem schema_error_iff (h : table.Represents reference) (call : Call)
    (hkind : cause.kind = .schema) :
    (table.perform call).answer = .error cause ↔ table.precheck call = .error cause := by
  refine ⟨fun hfail => ?_, answer_of_precheck_error⟩
  cases hcheck : table.precheck call with
  | ok _ => exact absurd hkind (h.kind_ne_schema hcheck hfail)
  | error other =>
    cases (answer_of_precheck_error hcheck).symm.trans hfail
    rfl

/-- A selection and a deletion do not fail for any other reason. -/
theorem kind_of_select (h : table.Represents reference) {projection : Projection}
    {condition : Predicate} (hfail : table.select projection condition = .error cause) :
    cause.kind = .schema := by
  rcases h.holds.select_eq projection condition with ⟨-, hok⟩ | ⟨-, other, herr, hkind⟩
  · cases hok.symm.trans hfail
  · cases herr.symm.trans hfail
    exact hkind

theorem kind_of_delete (h : table.Represents reference) {condition : Predicate}
    (hfail : (table.delete condition).answer = .error cause) : cause.kind = .schema := by
  rcases h.holds.delete_eq condition with ⟨-, after, hok, -⟩ | ⟨-, other, herr, hkind⟩
  · rw [hok] at hfail
    cases hfail
  · rw [herr] at hfail
    cases hfail
    exact hkind

end Represents

/-! ## Tables of one name and schema -/

section

variable {table other : Table}

theorem locate_congr (hname : table.name = other.name) (hschema : table.schema = other.schema)
    (name : String) : table.locate name = other.locate name := by
  unfold locate
  rw [hname, hschema]

theorem resolve_congr (hname : table.name = other.name) (hschema : table.schema = other.schema)
    (found : List (Field × Nat)) (names : List String) :
    table.resolve found names = other.resolve found names := by
  induction names generalizing found with
  | nil => rfl
  | cons name names ih => simp only [resolve, locate_congr hname hschema, ih]

theorem resolveDistinct_congr (hname : table.name = other.name)
    (hschema : table.schema = other.schema) (found : List Nat) (names : List String) :
    table.resolveDistinct found names = other.resolveDistinct found names := by
  induction names generalizing found with
  | nil => rfl
  | cons name names ih => simp only [resolveDistinct, locate_congr hname hschema, ih]

/-- The checks before a row is read depend on the name and the schema of the table only. -/
theorem precheck_congr (hname : table.name = other.name) (hschema : table.schema = other.schema)
    (call : Call) : table.precheck call = other.precheck call := by
  have hadmits : ∀ condition : Predicate, table.admits condition = other.admits condition := by
    intro condition
    simp only [admits, locate_congr hname hschema]
  cases call with
  | insert columns tuples =>
    have htargets : table.targets columns = other.targets columns := by
      cases columns with
      | none => simp only [targets, hschema]
      | some names => simp only [targets, resolve_congr hname hschema, hname, hschema]
    have harrange : table.arrange = other.arrange := by
      funext targets tuple
      simp only [arrange, hschema]
    simp only [precheck, htargets, harrange]
  | select projection condition =>
    cases projection with
    | all =>
      -- all columns exist, however many are stored
      exact hadmits condition
    | columns names =>
      simp only [precheck, projected, resolveDistinct_congr hname hschema, hadmits]
  | update assignments condition =>
    have hresolve : table.resolveAssignment = other.resolveAssignment := by
      funext assignment
      simp only [resolveAssignment, locate_congr hname hschema]
    simp only [precheck, hresolve, hadmits]
  | delete condition => exact hadmits condition

/-- Tables of one name and schema fail alike as far as the schema is concerned. -/
theorem Represents.schema_error_congr {reference reference' : RowTable}
    (h : table.Represents reference) (hother : other.Represents reference')
    (hname : table.name = other.name) (hschema : table.schema = other.schema) (call : Call)
    {cause : Error} (hkind : cause.kind = .schema) :
    (table.perform call).answer = .error cause ↔ (other.perform call).answer = .error cause := by
  rw [h.schema_error_iff call hkind, hother.schema_error_iff call hkind,
    precheck_congr hname hschema]

end

end Table

namespace Catalog

/-- Whatever two catalogs have been asked for: if a table of the one and a table of the other have the
same name and schema, then a selection and a deletion fail on both or on none, and an insertion and an
update fail because of the schema on both or on none, always with the same cause. Whether a condition
can be evaluated on the values of a column is known from its check against the column. -/
theorem schema_decides_refusals (name name' : String) (commands commands' : List Command)
    {table other : Table} (htable : table ∈ ((empty name).run commands).tables)
    (hother : other ∈ ((empty name').run commands').tables) (hname : table.name = other.name)
    (hschema : table.schema = other.schema) :
    (∀ (projection : Projection) (condition : Predicate) (cause : Error),
      table.select projection condition = .error cause ↔
        other.select projection condition = .error cause) ∧
    (∀ (condition : Predicate) (cause : Error),
      (table.delete condition).answer = .error cause ↔
        (other.delete condition).answer = .error cause) ∧
    (∀ (assignments : List Assignment) (condition : Predicate) (cause : Error),
      cause.kind = .schema →
        ((table.update assignments condition).answer = .error cause ↔
          (other.update assignments condition).answer = .error cause)) ∧
    (∀ (columns : Option (List String)) (tuples : List (List Value)) (cause : Error),
      cause.kind = .schema →
        ((table.insert columns tuples).answer = .error cause ↔
          (other.insert columns tuples).answer = .error cause)) ∧
    ∀ (condition : Predicate) (field : Field) (value : Value), value.type = field.type →
      (condition.check field = .ok () → ∃ answer, condition.evaluate (some value) = .ok answer) ∧
      ∀ cause, condition.check field = .error cause →
        ∃ cause', condition.evaluate (some value) = .error cause' := by
  obtain ⟨rows, hrows⟩ := (sound_run name commands).tables table htable
  obtain ⟨rows', hrows'⟩ := (sound_run name' commands').tables other hother
  have halike := hrows.schema_error_congr hrows' hname hschema
  refine ⟨fun projection condition cause => ?_, fun condition cause => ?_,
    fun assignments condition cause hkind => ?_, fun columns tuples cause hkind => ?_,
    fun condition field value htype => ?_⟩
  · -- a selection fails for no other reason, so there is nothing to ask of the cause
    have hsame (hkind : cause.kind = .schema) := halike (.select projection condition) hkind
    rw [Table.answer_select_eq_error, Table.answer_select_eq_error] at hsame
    exact ⟨fun h => (hsame (hrows.kind_of_select h)).mp h,
      fun h => (hsame (hrows'.kind_of_select h)).mpr h⟩
  · have hsame (hkind : cause.kind = .schema) := halike (.delete condition) hkind
    simp only [Table.perform, Table.Change.answer_map_eq_error] at hsame
    exact ⟨fun h => (hsame (hrows.kind_of_delete h)).mp h,
      fun h => (hsame (hrows'.kind_of_delete h)).mpr h⟩
  · have hsame := halike (.update assignments condition) hkind
    simpa only [Table.perform, Table.Change.answer_map_eq_error] using hsame
  · have hsame := halike (.insert columns tuples) hkind
    simpa only [Table.perform, Table.Change.answer_map_eq_error] using hsame
  · exact ⟨fun hcheck => Predicate.evaluate_of_check_ok hcheck htype,
      fun cause hcheck => Predicate.evaluate_of_check_error hcheck htype⟩

/-- A table with rows and one without refuse a literal of the wrong type alike; that a primary key is
stored already is not a matter of the schema. -/
theorem schema_decides_refusals_filled :
    let schema : Schema := ⟨[⟨"id", .integer⟩, ⟨"title", .text⟩], some "id"⟩
    let row : List Value := [.integer 1, .text "first"]
    let untitled : Predicate := .test "title" .equal (.integer 0)
    ∃ table ∈ ((empty "main").run [.create "t" schema]).tables,
    ∃ other ∈ ((empty "copy").run
        [.create "t" schema, .call "t" (.insert none [row])]).tables,
      table.select .all untitled = .error (.wrongLiteral "title" .text (.integer 0)) ∧
      other.select .all untitled = .error (.wrongLiteral "title" .text (.integer 0)) ∧
      (table.insert none [row]).answer = .ok 1 ∧
      (other.insert none [row]).answer = .error (.duplicateKey "id" "t" (.integer 1)) := by
  intro schema row untitled
  obtain ⟨table, other, htables, hothers, hname, hschema, hselect, hinsert, hrepeat⟩ :
      ∃ table other, ((empty "main").run [.create "t" schema]).tables = [table] ∧
        ((empty "copy").run [.create "t" schema, .call "t" (.insert none [row])]).tables = [other] ∧
        table.name = other.name ∧ table.schema = other.schema ∧
        table.select .all untitled = .error (.wrongLiteral "title" .text (.integer 0)) ∧
        (table.insert none [row]).answer = .ok 1 ∧
        (other.insert none [row]).answer = .error (.duplicateKey "id" "t" (.integer 1)) :=
    ⟨_, _, rfl, rfl, rfl, rfl, rfl, rfl, rfl⟩
  have htable : table ∈ ((empty "main").run [.create "t" schema]).tables := by
    rw [htables]
    exact List.mem_singleton_self table
  have hother : other ∈ ((empty "copy").run
      [.create "t" schema, .call "t" (.insert none [row])]).tables := by
    rw [hothers]
    exact List.mem_singleton_self other
  obtain ⟨hselects, -⟩ := schema_decides_refusals "main" "copy" _ _ htable hother hname hschema
  exact ⟨table, htable, other, hother, hselect, (hselects _ _ _).mp hselect, hinsert, hrepeat⟩

end Catalog

end TableStore
