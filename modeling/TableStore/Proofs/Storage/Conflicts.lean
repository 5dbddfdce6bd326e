import TableStore.Proofs.Storage.Catalog

/-!
# When a key is refused

A table never builds the rows that a change would give it in order to look for equal keys. An insertion
goes through the new keys with the stored ones seen before, and an update looks at the number of rows it
means, at the last value that is assigned to the key and at the rows it does not mean. All the same a
change is refused because of a key exactly if the rows that it would give have not all different keys.

* `valuesAt` — the values in a column; `Schema.nodup_keys_iff` says that they are the keys.
* `FirstClash` — the new key that an insertion complains of; `Table.Holds.firstClash_of_repeatedKey?`.
* `Table.Represents.insert_schema_iff`, `Table.Represents.update_schema_iff` — what the schema refuses.
* `Table.Represents.insert_of_nodup`, `Table.Represents.insert_of_not_nodup` — the two outcomes of an
  insertion that fits the schema, and `Table.Represents.update_of_nodup`,
  `Table.Represents.update_of_not_nodup` those of an update.
* `Catalog.conflicts_exact` — all of them for every table of every catalog that comes of requests.
-/

namespace TableStore

/-! ## Keys in a column -/

/-- The values that rows have at a position. -/
def valuesAt (position : Nat) (rows : List (List Value)) : List Value :=
  rows.filterMap (·[position]?)

theorem valuesAt_append (position : Nat) (rows more : List (List Value)) :
    valuesAt position (rows ++ more) = valuesAt position rows ++ valuesAt position more :=
  List.filterMap_append

/-- The keys of complete rows differ if the values in the key's column do. -/
theorem Schema.nodup_keys_iff {schema : Schema} {key : String} {position : Nat}
    (hkey : schema.primaryKey = some key) (hposition : schema.position? key = some position)
    {rows : List (List Value)} (hwidth : ∀ row ∈ rows, row.length = schema.fields.length) :
    (schema.keys rows).Nodup ↔ (valuesAt position rows).Nodup := by
  rw [Schema.keys_eq hkey hposition, map_getElem?_eq hwidth (Schema.position?_lt hposition),
    List.nodup_map_iff (Option.some_injective Value)]
  rfl

/-- Assignments do not change how many values a row has. -/
theorem Schema.length_assign (schema : Schema) (assignments : List Assignment) (row : List Value) :
    (schema.assign assignments row).length = row.length := by
  unfold assign
  induction assignments generalizing row with
  | nil => rfl
  | cons assignment assignments ih =>
    rw [List.foldl_cons, ih]
    split
    · exact List.length_set
    · rfl

/-- Rows after assignments to those of which a condition holds. -/
def Schema.updated (schema : Schema) (assignments : List Assignment) (condition : Predicate)
    (rows : List (List Value)) : List (List Value) :=
  rows.map fun row => if condition.holds schema row then schema.assign assignments row else row

/-- Of the new rows, in order, the first one whose key is stored or stands in a new row before it has
the key `value`. -/
def FirstClash (position : Nat) (stored new : List (List Value)) (value : Value) : Prop :=
  ∃ before row later, new = before ++ row :: later ∧ row[position]? = some value ∧
    (valuesAt position (stored ++ before)).Nodup ∧ value ∈ valuesAt position (stored ++ before)

namespace Table

/-! ## What is refused -/

theorem keyTaken_eq {table : Table} {key : String} (hkey : table.schema.primaryKey = some key)
    (value : Value) : table.keyTaken value = .duplicateKey key table.name value := by
  rw [keyTaken, hkey, Option.getD_some]

/-- Tuples that fit the schema are complete rows in schema order. -/
theorem length_of_mem_arranged (table : Table) {columns : Option (List String)} {order : List Nat}
    {tuples : List (List Value)} (horder : table.schema.order? columns = some order)
    (haccepts : tuples.all (table.schema.accepts order) = true) :
    ∀ row ∈ tuples.map (arranged order), row.length = table.schema.fields.length := by
  rcases table.targets_eq columns with ⟨targets, -, horder', hperm, hat⟩ | ⟨hnone, -⟩
  · obtain rfl : order = targets.map (·.2) := Option.some.inj (horder.symm.trans horder')
    rcases table.mapM_arrange_eq hperm hat tuples with ⟨-, -, htypes⟩ | ⟨hnot, -⟩
    · intro row hrow
      simpa using congrArg List.length (htypes row hrow)
    · rw [haccepts] at hnot
      cases hnot
  · rw [hnone] at horder
    cases horder

/-- The key that the check finds is the first one that clashes. -/
theorem Holds.firstClash_of_repeatedKey? {table : Table} {rows new : List (List Value)}
    (h : table.Holds rows) {position : Nat} (hposition : table.schema.keyPosition? = some position)
    (hstored : (valuesAt position rows).Nodup) {value : Value}
    (hvalue : table.repeatedKey? new = some value) : FirstClash position rows new value := by
  unfold repeatedKey? at hvalue
  simp only [hposition, h.filterMap_cell?] at hvalue
  obtain ⟨keys, later, hcut, hnodup, hout, hseen⟩ := firstRepeat?_eq_some hvalue
  -- the new rows are cut where their keys are
  obtain ⟨front, back, rfl, hfront, hback⟩ := List.filterMap_eq_append_iff.mp hcut
  obtain ⟨between, row, rest, rfl, hbetween, hrow, -⟩ := List.filterMap_eq_cons_iff.mp hback
  have hkeys : valuesAt position (rows ++ (front ++ between)) = valuesAt position rows ++ keys := by
    rw [valuesAt_append, valuesAt_append]
    unfold valuesAt
    rw [hfront, List.filterMap_eq_nil_iff.mpr hbetween, List.append_nil]
  refine ⟨front ++ between, row, rest, (List.append_assoc front between _).symm, hrow, ?_, ?_⟩
  · rw [hkeys, List.nodup_append]
    exact ⟨hstored, hnodup, fun old hold key hkey heq => hout key hkey (heq ▸ hold)⟩
  · rw [hkeys, List.mem_append]
    exact hseen

/-- A change that succeeds under a condition, and otherwise is refused because of a key, is refused
because of a key exactly if the condition does not hold. -/
theorem Change.constraint_iff {change : Change Nat} {allowed : Prop}
    (hok : allowed → ∃ count after, change = .ok count after)
    (herr : ¬allowed → ∃ cause after, change = .error cause after ∧ cause.kind = .constraint) :
    change.answer.mapError Error.kind = .error .constraint ↔ ¬allowed := by
  constructor
  · intro hanswer hallowed
    obtain ⟨count, after, rfl⟩ := hok hallowed
    cases hanswer
  · intro hnot
    obtain ⟨cause, after, rfl, hkind⟩ := herr hnot
    exact congrArg Except.error hkind

namespace Represents

variable {table : Table} {rows : List (List Value)} {key : String} {position : Nat}

/-- An insertion is not refused because of the schema exactly if its columns and tuples fit it. -/
theorem insert_schema_iff (h : table.Represents ⟨table.schema, rows⟩)
    (columns : Option (List String)) (tuples : List (List Value)) :
    (table.insert columns tuples).answer.mapError Error.kind ≠ .error .schema ↔
      ∃ order, table.schema.order? columns = some order ∧
        tuples.all (table.schema.accepts order) = true := by
  have hkeys : (table.schema.keys rows).Nodup := h.keys
  rcases h.holds.insert_eq hkeys columns tuples with
    ⟨order, horder, haccepts, -, after, hok, -⟩ | ⟨order, horder, haccepts, -, key, -, herr⟩ |
      ⟨hnot, cause, herr, hkind⟩
  · rw [hok]
    exact iff_of_true nofun ⟨order, horder, haccepts⟩
  · rw [herr]
    exact iff_of_true nofun ⟨order, horder, haccepts⟩
  · rw [herr]
    refine iff_of_false (fun hne => hne (congrArg Except.error hkind)) ?_
    rintro ⟨order, horder, haccepts⟩
    rw [hnot order horder] at haccepts
    cases haccepts

/-- An update is not refused because of the schema exactly if its assignments and its condition fit
it. -/
theorem update_schema_iff (h : table.Represents ⟨table.schema, rows⟩)
    (assignments : List Assignment) (condition : Predicate) :
    (table.update assignments condition).answer.mapError Error.kind ≠ .error .schema ↔
      assignments.all (·.fits table.schema) = true ∧ condition.fits table.schema = true := by
  have hkeys : (table.schema.keys rows).Nodup := h.keys
  rw [← Bool.and_eq_true]
  rcases h.holds.update_eq hkeys assignments condition with
    ⟨hfits, -, after, hok, -⟩ | ⟨hfits, -, key, herr⟩ | ⟨hnot, cause, herr, hkind⟩
  · rw [hok]
    exact iff_of_true nofun hfits
  · rw [herr]
    exact iff_of_true nofun hfits
  · rw [herr, hnot]
    exact iff_of_false (fun hne => hne (congrArg Except.error hkind)) nofun

/-! ## Insertions -/

section

variable (h : table.Represents ⟨table.schema, rows⟩) (hkey : table.schema.primaryKey = some key)
  (hposition : table.schema.position? key = some position)

include h hkey hposition

theorem nodup_valuesAt : (valuesAt position rows).Nodup :=
  (Schema.nodup_keys_iff hkey hposition h.holds.stored.width).mp h.keys

section

variable {columns : Option (List String)} {order : List Nat} {tuples : List (List Value)}
  (horder : table.schema.order? columns = some order)
  (haccepts : tuples.all (table.schema.accepts order) = true)

include horder haccepts

theorem nodup_keys_inserted_iff :
    (table.schema.keys (rows ++ tuples.map (arranged order))).Nodup ↔
      (valuesAt position (rows ++ tuples.map (arranged order))).Nodup := by
  refine Schema.nodup_keys_iff hkey hposition fun row hrow => ?_
  rcases List.mem_append.mp hrow with hold | hnew
  · exact h.holds.stored.width row hold
  · exact table.length_of_mem_arranged horder haccepts row hnew

/-- An insertion that fits the schema succeeds if all keys differ. -/
theorem insert_of_nodup (hnodup : (valuesAt position (rows ++ tuples.map (arranged order))).Nodup) :
    ∃ after, table.insert columns tuples = .ok tuples.length after ∧
      after.rows? = some (rows ++ tuples.map (arranged order)) := by
  obtain ⟨after, hok, -, -, hholds⟩ := h.holds.insert_ok h.keys horder haccepts
    ((h.nodup_keys_inserted_iff hkey hposition horder haccepts).mpr hnodup)
  exact ⟨after, hok, hholds.rows?_eq⟩

/-- It is refused otherwise, with the first key that clashes. -/
theorem insert_of_not_nodup
    (hnot : ¬(valuesAt position (rows ++ tuples.map (arranged order))).Nodup) :
    ∃ value, FirstClash position rows (tuples.map (arranged order)) value ∧
      table.insert columns tuples = .error (.duplicateKey key table.name value) table := by
  have hkeys := h.nodup_keys_inserted_iff hkey hposition horder haccepts
  rcases h.holds.insert_eq h.keys columns tuples with
    ⟨order', horder', -, hnodup, -⟩ | ⟨order', horder', -, -, value, hvalue, herr⟩ | ⟨hrefused, -⟩
  · -- all keys would differ
    obtain rfl : order = order' := Option.some.inj (horder.symm.trans horder')
    exact absurd (hkeys.mp hnodup) hnot
  · obtain rfl : order = order' := Option.some.inj (horder.symm.trans horder')
    refine ⟨value, ?_, by rw [herr, keyTaken_eq hkey]⟩
    exact h.holds.firstClash_of_repeatedKey? (Schema.keyPosition?_eq_some hkey hposition)
      (h.nodup_valuesAt hkey hposition) hvalue
  · -- the tuples would not fit
    rw [hrefused order horder] at haccepts
    cases haccepts

end

/-! ## Updates -/

theorem nodup_keys_updated_iff (assignments : List Assignment) (condition : Predicate) :
    (table.schema.keys (table.schema.updated assignments condition rows)).Nodup ↔
      (valuesAt position (table.schema.updated assignments condition rows)).Nodup := by
  refine Schema.nodup_keys_iff hkey hposition fun row hrow => ?_
  obtain ⟨old, hold, rfl⟩ := List.mem_map.mp hrow
  have hwidth := h.holds.stored.width old hold
  split
  · rw [Schema.length_assign, hwidth]
  · exact hwidth

section

variable {assignments : List Assignment} {condition : Predicate}
  (hassignments : assignments.all (·.fits table.schema) = true)
  (hcondition : condition.fits table.schema = true)

include hassignments hcondition

/-- An update that fits the schema succeeds if all keys differ afterwards. -/
theorem update_of_nodup
    (hnodup : (valuesAt position (table.schema.updated assignments condition rows)).Nodup) :
    ∃ after, table.update assignments condition =
        .ok (rows.countP fun row => condition.holds table.schema row) after ∧
      after.rows? = some (table.schema.updated assignments condition rows) := by
  have hkeys := h.nodup_keys_updated_iff hkey hposition assignments condition
  rcases h.holds.update_eq h.keys assignments condition with
    ⟨-, -, after, hok, -, -, hholds⟩ | ⟨-, hnot, -⟩ | ⟨hrefused, -⟩
  · exact ⟨after, hok, hholds.rows?_eq⟩
  · exact absurd (hkeys.mpr hnodup) hnot
  · rw [hassignments, hcondition] at hrefused
    cases hrefused

/-- It is refused otherwise. -/
theorem update_of_not_nodup
    (hnot : ¬(valuesAt position (table.schema.updated assignments condition rows)).Nodup) :
    ∃ value, table.update assignments condition =
      .error (.duplicateKey key table.name value) table := by
  have hkeys := h.nodup_keys_updated_iff hkey hposition assignments condition
  rcases h.holds.update_eq h.keys assignments condition with
    ⟨-, hnodup, -⟩ | ⟨-, -, value, herr⟩ | ⟨hrefused, -⟩
  · exact absurd (hkeys.mp hnodup) hnot
  · exact ⟨value, by rw [herr, keyTaken_eq hkey]⟩
  · rw [hassignments, hcondition] at hrefused
    cases hrefused

end

end

end Represents

end Table

/-! ## Tables of a catalog -/

/-- Whatever a catalog has been asked for, in a table whose primary key names a column: an insertion
that is not refused because of the schema is one whose columns and tuples fit it. Such an insertion is
refused because of a key exactly if the stored rows and the new ones behind them, in schema order, have
not all different keys. It complains of the first new key that is stored or stands before it. An update
that is not refused because of the schema is one whose assignments and condition fit it. Such an update
is refused because of a key exactly if the rows have not all different keys once the meant ones are
overwritten, one assignment after the other. In all other cases of these the change succeeds. -/
theorem Catalog.conflicts_exact (name : String) (commands : List Command) {table : Table}
    (htable : table ∈ ((empty name).run commands).tables) {key : String}
    (hkey : table.schema.primaryKey = some key) (hnames : key ∈ table.schema.columnNames) :
    ∃ rows position, table.rows? = some rows ∧ table.schema.position? key = some position ∧
      (∀ columns tuples,
        (table.insert columns tuples).answer.mapError Error.kind ≠ .error .schema ↔
          ∃ order, table.schema.order? columns = some order ∧
            tuples.all (table.schema.accepts order) = true) ∧
      (∀ columns order tuples, table.schema.order? columns = some order →
        tuples.all (table.schema.accepts order) = true →
        let new := tuples.map (arranged order)
        let change := table.insert columns tuples
        (change.answer.mapError Error.kind = .error .constraint ↔
          ¬(valuesAt position (rows ++ new)).Nodup) ∧
        (¬(valuesAt position (rows ++ new)).Nodup → ∃ value, FirstClash position rows new value ∧
          change = .error (.duplicateKey key table.name value) table) ∧
        ((valuesAt position (rows ++ new)).Nodup → ∃ after, change = .ok tuples.length after ∧
          after.rows? = some (rows ++ new))) ∧
      (∀ assignments condition,
        (table.update assignments condition).answer.mapError Error.kind ≠ .error .schema ↔
          assignments.all (·.fits table.schema) = true ∧ condition.fits table.schema = true) ∧
      (∀ assignments condition, assignments.all (·.fits table.schema) = true →
        condition.fits table.schema = true →
        let updated := table.schema.updated assignments condition rows
        let change := table.update assignments condition
        (change.answer.mapError Error.kind = .error .constraint ↔
          ¬(valuesAt position updated).Nodup) ∧
        ((valuesAt position updated).Nodup → ∃ after,
          change = .ok (rows.countP fun row => condition.holds table.schema row) after ∧
          after.rows? = some updated)) := by
  obtain ⟨rows, hrows⟩ := (sound_run name commands).tables table htable
  obtain ⟨position, hposition⟩ := Schema.exists_position? hnames
  refine ⟨rows, position, hrows.holds.rows?_eq, hposition, hrows.insert_schema_iff, ?_,
    hrows.update_schema_iff, ?_⟩
  · intro columns order tuples horder haccepts new change
    have hok := hrows.insert_of_nodup hkey hposition horder haccepts
    have herr := hrows.insert_of_not_nodup hkey hposition horder haccepts
    -- with one outcome for different keys and one for others, the refusal tells which they are
    refine ⟨Table.Change.constraint_iff (fun hnodup => ?_) (fun hnot => ?_), herr, hok⟩
    · obtain ⟨after, hafter, -⟩ := hok hnodup
      exact ⟨_, after, hafter⟩
    · obtain ⟨value, -, hvalue⟩ := herr hnot
      exact ⟨_, table, hvalue, rfl⟩
  · intro assignments condition hassignments hcondition updated change
    have hok := hrows.update_of_nodup hkey hposition hassignments hcondition
    have herr := hrows.update_of_not_nodup hkey hposition hassignments hcondition
    refine ⟨Table.Change.constraint_iff (fun hnodup => ?_) (fun hnot => ?_), hok⟩
    · obtain ⟨after, hafter, -⟩ := hok hnodup
      exact ⟨_, after, hafter⟩
    · obtain ⟨value, hvalue⟩ := herr hnot
      exact ⟨_, table, hvalue, rfl⟩

/-- Two new rows with a list of columns, the second of which has a stored key, and two updates of one
row that assign the key twice: the one to that of another row and back, the other in turn. -/
theorem Catalog.conflicts_exact_two_rows :
    let schema : Schema := ⟨[⟨"id", .integer⟩, ⟨"name", .text⟩], some "id"⟩
    let catalog := (empty "main").run
      [.create "t" schema,
       .call "t" (.insert none [[.integer 1, .text "a"], [.integer 2, .text "b"]])]
    let first : Predicate := .test "name" .equal (.text "a")
    ∃ table ∈ catalog.tables, table.schema.primaryKey = some "id" ∧
      "id" ∈ table.schema.columnNames ∧
      (table.insert (some ["name", "id"])
          [[.text "c", .integer 3], [.text "d", .integer 2]]).answer.mapError Error.kind =
        .error .constraint ∧
      (∃ after, table.update [⟨"id", .integer 2⟩, ⟨"id", .integer 1⟩] first = .ok 1 after) ∧
      (table.update [⟨"id", .integer 1⟩, ⟨"id", .integer 2⟩] first).answer.mapError Error.kind =
        .error .constraint := by
  intro schema catalog first
  obtain ⟨table, htables, hschema, hstored⟩ : ∃ table, catalog.tables = [table] ∧
      table.schema = schema ∧
      table.rows? = some [[.integer 1, .text "a"], [.integer 2, .text "b"]] :=
    ⟨_, rfl, rfl, rfl⟩
  have htable : table ∈ catalog.tables := by
    rw [htables]
    exact List.mem_singleton_self table
  have hkey : table.schema.primaryKey = some "id" := by rw [hschema]
  have hnames : "id" ∈ table.schema.columnNames := by
    rw [hschema]
    decide
  obtain ⟨rows, position, hrows, hposition, -, hinsert, -, hupdate⟩ :=
    conflicts_exact "main" _ htable hkey hnames
  rw [hschema] at hposition hinsert hupdate
  obtain rfl : _ = rows := Option.some.inj (hstored.symm.trans hrows)
  obtain rfl : 0 = position := Option.some.inj hposition
  refine ⟨table, htable, hkey, hnames, ?_, ?_, ?_⟩
  · exact (hinsert (some ["name", "id"]) [1, 0] _ (by decide) (by decide)).1.mpr (by decide)
  · obtain ⟨-, hok⟩ := hupdate [⟨"id", .integer 2⟩, ⟨"id", .integer 1⟩] first (by decide) (by decide)
    obtain ⟨after, hafter, -⟩ := hok (by decide)
    exact ⟨after, hafter⟩
  · exact (hupdate _ first (by decide) (by decide)).1.mpr (by decide)

end TableStore
