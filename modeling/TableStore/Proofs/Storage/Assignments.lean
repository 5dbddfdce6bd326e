import TableStore.Proofs.Storage.Conflicts

/-!
# What assignments come to

An update carries out its assignments one after the other, and its primary-key check looks for the last
one to the key. Both come to the same: what an update does is settled by the value that each column gets
last. So all other assignments may be left out, and the order of the columns does not matter.

* `Assignment.last?` — the value that a column gets last; `Assignment.counting` leaves only the
  assignments that give it.
* `Schema.assign_congr`, `Schema.assign_assign` — assignments to a row are settled by the last values,
  and doing them twice is doing them once.
* `Table.collidingKey?_congr` — so is the key that an update would store twice.
* `Table.Holds.update_congr` — and so is all that an update does.
* `Catalog.last_assignments_count` — an update with the counting assignments, in any order.
-/

namespace TableStore

/-! ## The last value of a column -/

namespace Assignment

/-- The value that a column gets last, if it is assigned at all. -/
def last? (assignments : List Assignment) (column : String) : Option Value :=
  (assignments.reverse.find? (·.column == column)).map (·.value)

/-- The assignments without those to a column that is assigned later again. -/
def counting : List Assignment → List Assignment
  | [] => []
  | assignment :: later =>
    if assignment.column ∈ later.map (·.column) then counting later
    else assignment :: counting later

theorem last?_append (before later : List Assignment) (column : String) :
    last? (before ++ later) column = (last? later column).or (last? before column) := by
  rw [last?, List.reverse_append, List.find?_append, Option.map_or]
  rfl

theorem last?_cons (assignment : Assignment) (later : List Assignment) (column : String) :
    last? (assignment :: later) column =
      (last? later column).or (if assignment.column = column then some assignment.value else none) := by
  rw [← List.singleton_append, last?_append]
  congr 1
  by_cases h : assignment.column = column <;> simp [last?, h]

theorem last?_self (assignments : List Assignment) (column : String) :
    last? (assignments ++ assignments) column = last? assignments column := by
  rw [last?_append, Option.or_self]

/-- A column is assigned exactly if it gets some value last. -/
theorem last?_eq_none_iff {assignments : List Assignment} {column : String} :
    last? assignments column = none ↔ column ∉ assignments.map (·.column) := by
  simp [last?]

theorem exists_of_last? {assignments : List Assignment} {column : String} {value : Value}
    (h : last? assignments column = some value) : ⟨column, value⟩ ∈ assignments := by
  obtain ⟨assignment, hfind, rfl⟩ := Option.map_eq_some_iff.mp h
  have hmem := List.mem_of_find?_eq_some hfind
  have hcolumn := List.find?_some hfind
  obtain rfl : assignment.column = column := by simpa using hcolumn
  exact List.mem_reverse.mp hmem

/-- The counting assignments are those that give a column its last value. -/
theorem mem_counting {assignments : List Assignment} {column : String} {value : Value} :
    ⟨column, value⟩ ∈ counting assignments ↔ last? assignments column = some value := by
  induction assignments with
  | nil => simp [counting, last?]
  | cons assignment later ih =>
    rw [counting, last?_cons]
    by_cases hlater : assignment.column ∈ later.map (·.column)
    · -- what the column gets here does not count
      rw [if_pos hlater, ih]
      by_cases hcolumn : assignment.column = column
      · obtain ⟨last, hlast⟩ := Option.ne_none_iff_exists'.mp fun hnone =>
          last?_eq_none_iff.mp hnone (hcolumn ▸ hlater)
        rw [hlast, Option.some_or]
      · rw [if_neg hcolumn, Option.or_none]
    · rw [if_neg hlater, List.mem_cons, ih]
      by_cases hcolumn : assignment.column = column
      · subst hcolumn
        rw [last?_eq_none_iff.mpr hlater, Option.none_or, if_pos rfl]
        obtain ⟨column, assigned⟩ := assignment
        simp [eq_comm]
      · have hne : (⟨column, value⟩ : Assignment) ≠ assignment := by
          rintro rfl
          exact hcolumn rfl
        rw [if_neg hcolumn, Option.or_none, or_iff_right hne]

theorem nodup_columns_counting (assignments : List Assignment) :
    ((counting assignments).map (·.column)).Nodup := by
  induction assignments with
  | nil => exact List.nodup_nil
  | cons assignment later ih =>
    rw [counting]
    split
    · exact ih
    · rename_i hlater
      refine List.nodup_cons.mpr ⟨fun hmem => ?_, ih⟩
      obtain ⟨⟨column, value⟩, hother, rfl⟩ := List.mem_map.mp hmem
      exact hlater (List.mem_map.mpr ⟨_, exists_of_last? (mem_counting.mp hother), rfl⟩)

/-- If no column is assigned twice, then all assignments count. -/
theorem counting_of_nodup {assignments : List Assignment}
    (h : (assignments.map (·.column)).Nodup) : counting assignments = assignments := by
  induction assignments with
  | nil => rfl
  | cons assignment later ih =>
    obtain ⟨hnew, hlater⟩ := List.nodup_cons.mp h
    rw [counting, if_neg hnew, ih hlater]

/-- The counting assignments, in any order, give every column the value that it gets last. -/
theorem last?_of_perm {assignments reduced : List Assignment}
    (h : reduced.Perm (counting assignments)) (column : String) :
    last? reduced column = last? assignments column := by
  have hnodup : (reduced.map (·.column)).Nodup :=
    (h.map _).nodup_iff.mpr (nodup_columns_counting assignments)
  refine Option.ext fun value => ?_
  rw [← mem_counting, ← mem_counting, counting_of_nodup hnodup, h.mem_iff]

end Assignment

/-! ## Rows after assignments -/

namespace Schema

variable {schema : Schema} {position : Nat}

theorem assign_cons (schema : Schema) (assignment : Assignment) (later : List Assignment)
    (row : List Value) :
    schema.assign (assignment :: later) row =
      schema.assign later (match schema.position? assignment.column with
        | some position => row.set position assignment.value
        | none => row) :=
  rfl

theorem assign_append (schema : Schema) (before later : List Assignment) (row : List Value) :
    schema.assign (before ++ later) row = schema.assign later (schema.assign before row) :=
  List.foldl_append

/-- After assignments a row has in each column the value that the column gets last, or its old one. -/
theorem getElem?_assign {name : String} (hposition : schema.position? name = some position)
    (assignments : List Assignment) {row : List Value} (hlt : position < row.length) :
    (schema.assign assignments row)[position]? =
      (Assignment.last? assignments name).or row[position]? := by
  induction assignments generalizing row with
  | nil => rfl
  | cons assignment later ih =>
    rw [assign_cons, Assignment.last?_cons]
    by_cases hname : assignment.column = name
    · rw [hname, hposition, if_pos rfl, ih (by simpa using hlt), List.getElem?_set_self hlt,
        Option.or_assoc, Option.some_or]
    · rw [if_neg hname, Option.or_none]
      cases hother : schema.position? assignment.column with
      | none => exact ih hlt
      | some other =>
        -- another column stands at another position
        have hne : other ≠ position := by
          rintro rfl
          exact hname (position?_inj hother hposition)
        rw [ih (by simpa using hlt), List.getElem?_set_ne hne]

/-- No assignment changes what stands where no name is found. -/
theorem getElem?_assign_of_ne (hposition : ∀ name, schema.position? name ≠ some position)
    (assignments : List Assignment) (row : List Value) :
    (schema.assign assignments row)[position]? = row[position]? := by
  induction assignments generalizing row with
  | nil => rfl
  | cons assignment later ih =>
    rw [assign_cons, ih]
    cases hother : schema.position? assignment.column with
    | none => rfl
    | some other =>
      have hne : other ≠ position := by
        rintro rfl
        exact hposition _ hother
      rw [List.getElem?_set_ne hne]

/-- Assignments are settled by the values that the columns get last. -/
theorem assign_congr {assignments others : List Assignment}
    (h : ∀ column, Assignment.last? assignments column = Assignment.last? others column)
    (row : List Value) : schema.assign assignments row = schema.assign others row := by
  refine List.ext_getElem? fun position => ?_
  by_cases hlt : position < row.length
  · by_cases hnamed : ∃ name, schema.position? name = some position
    · obtain ⟨name, hname⟩ := hnamed
      rw [getElem?_assign hname assignments hlt, getElem?_assign hname others hlt, h]
    · have hnone : ∀ name, schema.position? name ≠ some position := not_exists.mp hnamed
      rw [getElem?_assign_of_ne hnone, getElem?_assign_of_ne hnone]
  · rw [List.getElem?_eq_none (by rw [length_assign]; omega),
      List.getElem?_eq_none (by rw [length_assign]; omega)]

/-- Assignments that are carried out once more change nothing. -/
theorem assign_assign (schema : Schema) (assignments : List Assignment) (row : List Value) :
    schema.assign assignments (schema.assign assignments row) = schema.assign assignments row := by
  rw [← assign_append]
  exact assign_congr (Assignment.last?_self assignments) row

end Schema

/-! ## The key that an update would store twice -/

theorem map_find?_of_forall₂ {α β γ : Type} {p : α → Bool} {q : β → Bool} {f : α → γ} {g : β → γ}
    {xs : List α} {ys : List β} (h : List.Forall₂ (fun x y => p x = q y ∧ f x = g y) xs ys) :
    (xs.find? p).map f = (ys.find? q).map g := by
  induction h with
  | nil => rfl
  | @cons x y xs ys hstep _ ih =>
    obtain ⟨htest, hvalue⟩ := hstep
    rw [List.find?_cons, List.find?_cons, htest]
    cases q y with
    | true => exact congrArg some hvalue
    | false => exact ih

namespace Table

variable {table : Table} {assignments others : List Assignment} {resolved resolved' : List (Nat × Value)}

theorem of_resolveAssignment_ok {assignment : Assignment} {entry : Nat × Value}
    (h : table.resolveAssignment assignment = .ok entry) :
    table.schema.position? assignment.column = some entry.1 ∧ entry.2 = assignment.value := by
  rcases table.resolveAssignment_eq assignment with
    ⟨-, position, field, hposition, -, -, hok⟩ | ⟨-, cause, herr, -⟩
  · cases h.symm.trans hok
    exact ⟨hposition, rfl⟩
  · cases h.symm.trans herr

/-- The last value that is put at the position of a column is the one that the column gets last. -/
theorem find?_resolved (h : assignments.mapM table.resolveAssignment = .ok resolved) {name : String}
    {position : Nat} (hposition : table.schema.position? name = some position) :
    (resolved.reverse.find? (·.1 == position)).map (·.2) = Assignment.last? assignments name := by
  have hsteps : List.Forall₂ (fun entry assignment =>
      (entry.1 == position) = (assignment.column == name) ∧ entry.2 = assignment.value)
      resolved assignments := by
    refine (mapM_ok_iff.mp h).flip.imp fun entry assignment hstep => ?_
    obtain ⟨hentry, hvalue⟩ := of_resolveAssignment_ok hstep
    refine ⟨?_, hvalue⟩
    -- the position tells the name, and the name the position
    rw [Bool.eq_iff_iff, beq_iff_eq, beq_iff_eq]
    constructor
    · rintro rfl
      exact Schema.position?_inj hentry hposition
    · rintro rfl
      exact Option.some.inj (hentry.symm.trans hposition)
  exact map_find?_of_forall₂ (List.rel_reverse hsteps)

/-- Of the assignments, the check looks at the value that the key gets last. -/
theorem collidingKey?_eq {position : Nat} (hkey : table.schema.keyPosition? = some position)
    (resolved : List (Nat × Value)) (mask : Mask) :
    table.collidingKey? resolved mask =
      ((resolved.reverse.find? (·.1 == position)).map (·.2)).bind fun key =>
        match mask.rows.length with
        | 0 => none
        | 1 => if mask.others.rows.any fun row => table.cell? row position == some key
            then some key else none
        | _ => some key := by
  simp only [collidingKey?, hkey, Option.bind_eq_bind, Option.bind_some]
  cases resolved.reverse.find? (·.1 == position) <;> rfl

/-- The key that an update would store twice is settled by the values that the columns get last. -/
theorem collidingKey?_congr (h : assignments.mapM table.resolveAssignment = .ok resolved)
    (h' : others.mapM table.resolveAssignment = .ok resolved')
    (hlast : ∀ column, Assignment.last? assignments column = Assignment.last? others column)
    (mask : Mask) : table.collidingKey? resolved mask = table.collidingKey? resolved' mask := by
  cases hkey : table.schema.keyPosition? with
  | none => simp only [collidingKey?, hkey, Option.bind_eq_bind, Option.bind_none]
  | some position =>
    obtain ⟨key, -, hposition⟩ := Option.bind_eq_some_iff.mp hkey
    rw [collidingKey?_eq hkey, collidingKey?_eq hkey, find?_resolved h hposition,
      find?_resolved h' hposition, hlast]

end Table

/-! ## Updates -/

namespace Table.Holds

variable {table : Table} {rows : List (List Value)} {assignments others : List Assignment}

/-- An update is settled by the values that the columns get last: what it answers with, why it fails
and what it leaves. -/
theorem update_congr (h : table.Holds rows)
    (hfits : assignments.all (·.fits table.schema) = true)
    (hfits' : others.all (·.fits table.schema) = true)
    (hlast : ∀ column, Assignment.last? assignments column = Assignment.last? others column)
    (condition : Predicate) :
    table.update assignments condition = table.update others condition := by
  obtain ⟨-, resolved, hresolved, htypes, hassign⟩ :=
    (table.resolveAssignments_eq assignments).resolve_right fun hnot => by simp [hfits] at hnot
  obtain ⟨-, resolved', hresolved', htypes', hassign'⟩ :=
    (table.resolveAssignments_eq others).resolve_right fun hnot => by simp [hfits'] at hnot
  have hcollide := collidingKey?_congr hresolved hresolved' hlast
  unfold update
  rcases h.satisfying_eq condition with ⟨-, hmask⟩ | ⟨-, cause, herr, -⟩
  · -- cell by cell, both write the rows with the same values
    let p := fun row => condition.holds table.schema row
    obtain ⟨columns, hwrite, hstored⟩ :=
      Stored.writeAll rows p resolved htypes id (by simpa using h.stored)
    obtain ⟨columns', hwrite', hstored'⟩ :=
      Stored.writeAll rows p resolved' htypes' id (by simpa using h.stored)
    have hcolumns : columns = columns' := by
      simp only [id, hassign, Schema.assign_congr hlast] at hstored
      simp only [id, hassign'] at hstored'
      exact hstored.unique hstored'
    simp only [hresolved, hresolved', hmask, bind, Except.bind, hcollide]
    cases table.collidingKey? resolved' (rows.map p) with
    | some key => rfl
    | none => simp only [pure, Except.pure, p, hwrite, hwrite', hcolumns]
  · simp only [hresolved, hresolved', herr, bind, Except.bind]

end Table.Holds

/-! ## Tables of a catalog -/

namespace Catalog

/-- Whatever a catalog has been asked for: if all assignments fit the schema of a table, then an update
with the ones that count, each the last one to its column, does what the update with all of them does, in
whatever order they come. It answers with the same number or fails for the same cause, and it leaves the
same table. -/
theorem last_assignments_count (name : String) (commands : List Command) {table : Table}
    (htable : table ∈ ((empty name).run commands).tables) {assignments : List Assignment}
    (hfits : ∀ assignment ∈ assignments, assignment.fits table.schema = true)
    {reduced : List Assignment} (hreduced : reduced.Perm (Assignment.counting assignments))
    (condition : Predicate) :
    table.update reduced condition = table.update assignments condition := by
  obtain ⟨rows, hrows⟩ := (sound_run name commands).tables table htable
  have hcounting : ∀ assignment ∈ reduced, assignment.fits table.schema = true := by
    intro assignment hassignment
    have hlast := Assignment.mem_counting.mp (hreduced.mem_iff.mp hassignment)
    exact hfits assignment (Assignment.exists_of_last? hlast)
  exact hrows.holds.update_congr (List.all_eq_true.mpr hcounting) (List.all_eq_true.mpr hfits)
    (Assignment.last?_of_perm hreduced) condition

/-- A key and a name that are both assigned twice, the key first to that of another row. -/
theorem last_assignments_count_twice :
    let schema : Schema := ⟨[⟨"id", .integer⟩, ⟨"name", .text⟩], some "id"⟩
    let catalog := (empty "main").run
      [.create "t" schema,
       .call "t" (.insert none [[.integer 1, .text "a"], [.integer 2, .text "b"]])]
    let first : Predicate := .test "id" .equal (.integer 1)
    ∃ table ∈ catalog.tables, ∃ after,
      table.update [⟨"name", .text "y"⟩, ⟨"id", .integer 5⟩] first = .ok 1 after ∧
      table.update [⟨"id", .integer 2⟩, ⟨"name", .text "x"⟩, ⟨"id", .integer 5⟩,
        ⟨"name", .text "y"⟩] first = .ok 1 after := by
  intro schema catalog first
  obtain ⟨table, after, htables, hschema, hok⟩ : ∃ table after, catalog.tables = [table] ∧
      table.schema = schema ∧
      table.update [⟨"name", .text "y"⟩, ⟨"id", .integer 5⟩] first = .ok 1 after :=
    ⟨_, _, rfl, rfl, rfl⟩
  have htable : table ∈ catalog.tables := by
    rw [htables]
    exact List.mem_singleton_self table
  refine ⟨table, htable, after, hok, ?_⟩
  rw [← hok]
  refine (last_assignments_count "main" _ htable ?_ (by decide) first).symm
  rw [hschema]
  decide

end Catalog

end TableStore
