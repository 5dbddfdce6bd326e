import Mathlib.Data.List.Induction
import Mathlib.Data.List.Nodup
import TableStore.Proofs.Storage.Conditions

/-!
# Updating overwrites rows

An update carries out its assignments column by column and row by row. In terms of rows, each
assigned value is put into each row of which the condition holds, and the primary-key check is a
check of the rows that come out.

* `Stored.write`, `Stored.writeAll` — one overwritten cell, and all assignments in all meant rows.
* `nodup_overwrite_iff` — when differing keys stay different under an overwriting.
* `Table.Holds.collidingKey?_eq_none_iff` — the check finds no collision exactly if the keys of the
  updated rows differ.
* `Table.Holds.update_eq` — an update changes the rows as the list of rows is changed.
-/

namespace TableStore

/-! ## Cells -/

section

variable {rows : List (List Value)} {i position : Nat} (value : Value)

/-- Overwriting a cell changes the list of the values at its position in one place. -/
theorem map_getElem?_modify_set {row : List Value} (hrow : rows[i]? = some row)
    (hposition : position < row.length) :
    (rows.modify i (·.set position value)).map (·[position]?) =
      (rows.map (·[position]?)).set i (some value) := by
  refine List.ext_getElem? fun j => ?_
  rw [List.getElem?_map, List.getElem?_modify, List.getElem?_set, List.length_map]
  by_cases hj : i = j
  · subst hj
    obtain ⟨hi, rfl⟩ := List.getElem?_eq_some_iff.mp hrow
    simp [hi, hposition]
  · simp [hj]

/-- Overwriting a cell does not change the values at other positions. -/
theorem map_getElem?_modify_set_ne {other : Nat} (hother : position ≠ other) :
    (rows.modify i (·.set position value)).map (·[other]?) = rows.map (·[other]?) := by
  refine List.ext_getElem? fun j => ?_
  rw [List.getElem?_map, List.getElem?_map, List.getElem?_modify]
  cases rows[j]? with
  | none => rfl
  | some row =>
    by_cases hj : i = j
    · simp [hj, List.getElem?_set_ne hother]
    · simp [hj]

end

namespace Stored

variable {fields : List Field} {columns : List Column} {rows : List (List Value)}

/-- Overwriting a cell of a column overwrites it in the row. -/
theorem write (h : Stored fields columns rows) {position : Nat} {field : Field}
    (hfield : fields[position]? = some field) {value : Value} (htype : value.type = field.type)
    {i : Nat} (hi : i < rows.length) :
    ∃ columns', EStateM.run (Table.write position value i) columns = .ok () columns' ∧
      Stored fields columns' (rows.modify i (·.set position value)) := by
  obtain ⟨column, hcolumn, rfl⟩ := h.exists_column hfield
  have hlen := h.length_values hcolumn
  -- the row exists and the type is right, so the column takes the value
  obtain ⟨after, hok, hname, htype', hvalues⟩ : ∃ after, column.set i value = .ok after ∧
      after.name = column.name ∧ after.type = column.type ∧
      after.values = column.values.set i value := by
    rcases column.set_eq i value with ⟨after, hok, -, -, hafter⟩ | ⟨-, hle⟩ | ⟨-, -, hne⟩
    · exact ⟨after, hok, hafter⟩
    · omega
    · exact absurd htype hne
  have hsame : after.field = column.field := by simp [Column.field, hname, htype']
  obtain ⟨hlt, heq⟩ := List.getElem?_eq_some_iff.mp hfield
  refine ⟨columns.set position after, by simp only [EStateM.run, Table.write, hcolumn, hok],
    ?_, ?_, ?_⟩
  · rw [List.map_set, hsame, h.fields_eq, ← heq, List.set_getElem_self]
  · intro row hrow
    obtain ⟨j, hj⟩ := List.getElem?_of_mem hrow
    rw [List.getElem?_modify] at hj
    obtain ⟨old, hold, rfl⟩ := Option.map_eq_some_iff.mp hj
    have hwidth := h.width old (List.mem_of_getElem? hold)
    split <;> simpa using hwidth
  · intro other found hfound
    by_cases hother : position = other
    · subst hother
      obtain rfl : after = found := by
        rw [List.getElem?_set_self (List.getElem?_eq_some_iff.mp hcolumn).1] at hfound
        exact Option.some.inj hfound
      have hwidth := h.width _ (List.getElem_mem hi)
      rw [hvalues, List.map_set, h.values_eq hcolumn,
        map_getElem?_modify_set value (List.getElem?_eq_getElem hi) (by omega)]
    · rw [List.getElem?_set_ne hother] at hfound
      rw [h.values_eq hfound, map_getElem?_modify_set_ne value hother]

/-- Overwriting a cell of each of some rows. -/
theorem forM_write (h : Stored fields columns rows) {position : Nat} {field : Field}
    (hfield : fields[position]? = some field) {value : Value} (htype : value.type = field.type)
    (indices : List Nat) (hindices : ∀ i ∈ indices, i < rows.length) :
    ∃ columns',
      (indices.forM (Table.write position value) : EStateM Error (List Column) Unit).run columns =
        .ok () columns' ∧
      Stored fields columns'
        (indices.foldl (fun rows i => rows.modify i (·.set position value)) rows) := by
  induction indices generalizing columns rows with
  | nil => exact ⟨columns, rfl, h⟩
  | cons i indices ih =>
    obtain ⟨columns₁, hfirst, hstored⟩ := h.write hfield htype (hindices i List.mem_cons_self)
    obtain ⟨columns₂, hrest, hafter⟩ := ih hstored fun j hj => by
      rw [List.length_modify]
      exact hindices j (List.mem_cons_of_mem i hj)
    exact ⟨columns₂, (run_forM_cons hfirst).trans hrest, hafter⟩

/-- Carrying out assignments one by one, each in all meant rows, gives each meant row all of the
assigned values. The rows may have been changed before, which `f` stands for. -/
theorem writeAll (rows : List (List Value)) (p : List Value → Bool) (resolved : List (Nat × Value))
    (hresolved : ∀ entry ∈ resolved, ∃ field, fields[entry.1]? = some field ∧
      entry.2.type = field.type) (f : List Value → List Value)
    (h : Stored fields columns (rows.map fun row => if p row then f row else row)) :
    ∃ columns', (Table.writeAll resolved (Mask.rows (rows.map p))).run columns =
        .ok () columns' ∧
      Stored fields columns' (rows.map fun row =>
        if p row then resolved.foldl (fun row entry => row.set entry.1 entry.2) (f row)
        else row) := by
  induction resolved generalizing columns f with
  | nil => exact ⟨columns, rfl, h⟩
  | cons entry resolved ih =>
    obtain ⟨field, hfield, htype⟩ := hresolved entry List.mem_cons_self
    obtain ⟨columns₁, hfirst, hstored⟩ :=
      h.forM_write hfield htype (Mask.rows (rows.map p)) fun i hi => by
        simpa using Mask.lt_of_mem_rows hi
    -- the first assignment is done in all meant rows before the others
    rw [Mask.foldl_modify_rows] at hstored
    have hrows : (rows.map fun row =>
        if p row then (if p row then f row else row).set entry.1 entry.2
        else if p row then f row else row) =
        rows.map fun row => if p row then (f row).set entry.1 entry.2 else row := by
      refine List.map_congr_left fun row _ => ?_
      cases p row <;> rfl
    rw [hrows] at hstored
    obtain ⟨columns₂, hrest, hafter⟩ :=
      ih (fun e he => hresolved e (List.mem_cons_of_mem entry he))
        (fun row => (f row).set entry.1 entry.2) hstored
    refine ⟨columns₂, Eq.trans (run_forM_cons ?_) hrest, hafter⟩
    exact hfirst

end Stored

/-! ## Assignments -/

/-- The last value put at a position stands there in the end. -/
theorem getElem?_foldl_set (resolved : List (Nat × Value)) {row : List Value} {position : Nat}
    (hposition : position < row.length) :
    (resolved.foldl (fun row entry => row.set entry.1 entry.2) row)[position]? =
      ((resolved.reverse.find? (·.1 == position)).map (·.2)).or row[position]? := by
  -- putting values does not change the length of a row
  have hlen : ∀ (resolved : List (Nat × Value)) (row : List Value),
      (resolved.foldl (fun row entry => row.set entry.1 entry.2) row).length = row.length := by
    intro resolved
    induction resolved with
    | nil => intro row; rfl
    | cons entry resolved ih => intro row; simp [ih]
  -- from the end, for the last assignment counts
  induction resolved using List.reverseRecOn with
  | nil => simp
  | append_singleton resolved entry ih =>
    rw [List.foldl_append, List.foldl_cons, List.foldl_nil, List.reverse_append,
      List.reverse_singleton, List.singleton_append, List.find?_cons, List.getElem?_set, hlen]
    by_cases heq : entry.1 = position
    · simp [heq, hposition]
    · have hne : (entry.1 == position) = false := by simpa using heq
      simp [heq, hne, ih]

namespace Table

/-- An assignment is resolved to the position of its column, unless it does not fit. -/
theorem resolveAssignment_eq (table : Table) (assignment : Assignment) :
    (assignment.fits table.schema = true ∧ ∃ position field,
        table.schema.position? assignment.column = some position ∧
        table.schema.fields[position]? = some field ∧ assignment.value.type = field.type ∧
        table.resolveAssignment assignment = .ok (position, assignment.value)) ∨
      (assignment.fits table.schema = false ∧
        ∃ cause, table.resolveAssignment assignment = .error cause ∧ cause.kind = .schema) := by
  unfold resolveAssignment Assignment.fits Schema.type?
  rcases table.locate_eq assignment.column with
    ⟨⟨field, position⟩, hlocate, hok⟩ | ⟨hlocate, herr⟩
  · obtain ⟨hfield, -⟩ := Schema.locate?_eq_some hlocate
    have hposition := Schema.position?_eq_some_iff.mpr ⟨field, hlocate⟩
    by_cases htype : assignment.value.type = field.type
    · refine .inl ⟨by simp [hlocate, htype], position, field, hposition, hfield, htype, ?_⟩
      simp [hok, htype, bind, Except.bind, pure, Except.pure]
    · refine .inr ⟨by simp [hlocate, Ne.symm htype],
        .wrongType assignment.value field.name field.type, ?_, rfl⟩
      simp [hok, htype, bind, Except.bind, throw, throwThe, MonadExceptOf.throw]
  · refine .inr ⟨by simp [hlocate], .columnNotFound assignment.column table.name, ?_, rfl⟩
    simp [herr, bind, Except.bind]

/-- Assignments are resolved one by one; putting the values at the positions assigns them. -/
theorem resolveAssignments_eq (table : Table) (assignments : List Assignment) :
    (assignments.all (·.fits table.schema) = true ∧ ∃ resolved,
        assignments.mapM table.resolveAssignment = .ok resolved ∧
        (∀ entry ∈ resolved, ∃ field, table.schema.fields[entry.1]? = some field ∧
          entry.2.type = field.type) ∧
        ∀ row, resolved.foldl (fun row entry => row.set entry.1 entry.2) row =
          table.schema.assign assignments row) ∨
      (assignments.all (·.fits table.schema) = false ∧
        ∃ cause, assignments.mapM table.resolveAssignment = .error cause ∧
          cause.kind = .schema) := by
  induction assignments with
  | nil => exact .inl ⟨rfl, [], rfl, by simp, fun row => rfl⟩
  | cons assignment assignments ih =>
    rw [List.mapM_cons]
    rcases table.resolveAssignment_eq assignment with
      ⟨hfits, position, field, hposition, hfield, htype, hok⟩ | ⟨hfits, cause, herr, hkind⟩
    · rcases ih with ⟨hall, resolved, hresolved, htypes, hassign⟩ | ⟨hall, cause, herr, hkind⟩
      · refine .inl ⟨by simpa [hfits] using hall, (position, assignment.value) :: resolved, ?_, ?_, ?_⟩
        · simp [hok, hresolved, bind, Except.bind, pure, Except.pure]
        · intro entry hentry
          rcases List.mem_cons.mp hentry with rfl | hentry
          · exact ⟨field, hfield, htype⟩
          · exact htypes entry hentry
        · intro row
          rw [List.foldl_cons, hassign, Schema.assign, Schema.assign, List.foldl_cons, hposition]
      · refine .inr ⟨by simp [hall], cause, ?_, hkind⟩
        simp [hok, herr, bind, Except.bind]
    · refine .inr ⟨by simp [hfits], cause, ?_, hkind⟩
      simp [herr, bind, Except.bind]

end Table

/-! ## The primary-key check -/

/-- Pairwise different values stay so, when some of them are overwritten with one value, exactly if
none is, or only one is and no other has that value. -/
theorem nodup_overwrite_iff {α β : Type} (xs : List α) (p : α → Bool) {f : α → β} (k : β)
    (h : (xs.map f).Nodup) :
    (xs.map fun x => if p x then k else f x).Nodup ↔
      xs.countP p = 0 ∨ (xs.countP p = 1 ∧ ∀ x ∈ xs, p x = false → f x ≠ k) := by
  -- the overwritten values first, then the others
  have hperm := (List.filter_append_perm p xs).symm.map fun x => if p x then k else f x
  have hwritten : (xs.filter p).map (fun x => if p x then k else f x) =
      List.replicate (xs.countP p) k := by
    rw [List.countP_eq_length_filter, ← List.map_const']
    refine List.map_congr_left fun x hx => ?_
    rw [if_pos (List.of_mem_filter hx)]
  have hkept : (xs.filter fun x => !p x).map (fun x => if p x then k else f x) =
      (xs.filter fun x => !p x).map f := by
    refine List.map_congr_left fun x hx => ?_
    have hnot := List.of_mem_filter hx
    rw [if_neg (by simpa using hnot)]
  have hkeptNodup : ((xs.filter fun x => !p x).map f).Nodup :=
    h.sublist (List.filter_sublist.map f)
  rw [hperm.nodup_iff, List.map_append, hwritten, hkept, List.nodup_append, List.nodup_replicate]
  constructor
  · rintro ⟨hle, -, hdisj⟩
    rcases Nat.le_one_iff_eq_zero_or_eq_one.mp hle with hzero | hone
    · exact .inl hzero
    · refine .inr ⟨hone, fun x hx hp heq => ?_⟩
      exact hdisj k (by simp [hone]) (f x) (List.mem_map_of_mem (by simp [hx, hp])) heq.symm
  · rintro (hzero | ⟨hone, hother⟩)
    · exact ⟨by omega, hkeptNodup, by simp [hzero]⟩
    · refine ⟨by omega, hkeptNodup, ?_⟩
      intro a ha b hb
      obtain ⟨x, hx, rfl⟩ := List.mem_map.mp hb
      obtain ⟨hmem, hp⟩ := List.mem_filter.mp hx
      rw [List.eq_of_mem_replicate ha]
      exact (hother x hmem (by simpa using hp)).symm

namespace Table.Holds

variable {table : Table} {rows : List (List Value)}

/-- Some row that is not meant has a value at a position. -/
theorem any_others (h : table.Holds rows) (p : List Value → Bool) (position : Nat) (value : Value) :
    ((Mask.others (rows.map p)).rows.any fun i => table.cell? i position == some value) = true ↔
      ∃ row ∈ rows, p row = false ∧ row[position]? = some value := by
  -- the positions of the others are those of the rows that are not meant
  have hrows := Mask.map_getElem?_rows (fun row => !p row) rows
  have hothers : Mask.others (rows.map p) = rows.map fun row => !p row := by
    simp [Mask.others]
  rw [hothers, List.any_eq_true]
  constructor
  · rintro ⟨i, hi, hcell⟩
    have hmem : rows[i]? ∈ (rows.filter fun row => !p row).map some :=
      hrows ▸ List.mem_map_of_mem hi
    obtain ⟨row, hrow, heq⟩ := List.mem_map.mp hmem
    obtain ⟨hmem', hp⟩ := List.mem_filter.mp hrow
    rw [h.cell?_eq, ← heq, Option.bind_some, beq_iff_eq] at hcell
    exact ⟨row, hmem', by simpa using hp, hcell⟩
  · rintro ⟨row, hrow, hp, hvalue⟩
    have hmem : some row ∈ (Mask.rows (rows.map fun row => !p row)).map (rows[·]?) :=
      hrows ▸ List.mem_map_of_mem (List.mem_filter.mpr ⟨hrow, by simp [hp]⟩)
    obtain ⟨i, hi, heq⟩ := List.mem_map.mp hmem
    exact ⟨i, hi, by rw [h.cell?_eq, heq, Option.bind_some, hvalue, beq_self_eq_true]⟩

/-- The values at a position after assignments, in terms of those before them. -/
theorem map_getElem?_assigned (h : table.Holds rows) {position : Nat}
    (hposition : position < table.schema.fields.length) (p : List Value → Bool)
    (resolved : List (Nat × Value)) :
    (rows.map fun row =>
        if p row then resolved.foldl (fun row entry => row.set entry.1 entry.2) row
        else row).map (·[position]?) =
      rows.map fun row => if p row then
        ((resolved.reverse.find? (·.1 == position)).map (·.2)).or row[position]?
        else row[position]? := by
  rw [List.map_map]
  refine List.map_congr_left fun row hrow => ?_
  have hwidth := h.stored.width row hrow
  rw [Function.comp_apply]
  split
  · exact getElem?_foldl_set resolved (by omega)
  · rfl

/-- An update would store a key twice exactly if the updated rows do not have different keys. -/
theorem collidingKey?_eq_none_iff (h : table.Holds rows) (hkeys : (table.schema.keys rows).Nodup)
    (p : List Value → Bool) (resolved : List (Nat × Value)) :
    table.collidingKey? resolved (rows.map p) = none ↔
      (table.schema.keys (rows.map fun row =>
        if p row then resolved.foldl (fun row entry => row.set entry.1 entry.2) row
        else row)).Nodup := by
  unfold collidingKey? Schema.keys at *
  cases hposition : table.schema.keyPosition? with
  | none => simp
  | some position =>
    obtain ⟨key, -, hkey⟩ := Option.bind_eq_some_iff.mp hposition
    simp only [hposition, Option.bind_eq_bind, Option.bind_some] at hkeys ⊢
    rw [h.map_getElem?_assigned (Schema.position?_lt hkey) p resolved]
    cases hlast : resolved.reverse.find? (·.1 == position) with
    | none => simpa using hkeys
    | some entry =>
      obtain ⟨target, value⟩ := entry
      have hothers := h.any_others p position value
      have hoverwrite := nodup_overwrite_iff rows p (some value) hkeys
      simp only [Option.map_some, Option.some_or, Option.bind_some, Mask.length_rows_map,
        hoverwrite]
      -- none, one or several rows get the key
      rcases hcount : rows.countP p with _ | _ | n
      · simp
      · cases htaken : (Mask.others (rows.map p)).rows.any
            fun i => table.cell? i position == some value with
        | true =>
          obtain ⟨row, hrow, hp, hvalue⟩ := hothers.mp htaken
          simpa using ⟨row, hrow, hp, hvalue⟩
        | false =>
          have hnone : ∀ row ∈ rows, p row = false → row[position]? ≠ some value := by
            intro row hrow hp hvalue
            rw [hothers.mpr ⟨row, hrow, hp, hvalue⟩] at htaken
            cases htaken
          simpa using hnone
      · simp

/-- An update gives the rows of which the condition holds the assigned values, and answers with
their number, unless two of the rows that come out have the same primary key. It is refused before
that if an assignment or the condition does not fit the schema. -/
theorem update_eq (h : table.Holds rows) (hkeys : (table.schema.keys rows).Nodup)
    (assignments : List Assignment) (condition : Predicate) :
    let updated := rows.map fun row =>
      if condition.holds table.schema row then table.schema.assign assignments row else row
    ((assignments.all (·.fits table.schema) && condition.fits table.schema) = true ∧
        (table.schema.keys updated).Nodup ∧
        ∃ after, table.update assignments condition =
            .ok (rows.countP fun row => condition.holds table.schema row) after ∧
          after.name = table.name ∧ after.schema = table.schema ∧ after.Holds updated) ∨
      ((assignments.all (·.fits table.schema) && condition.fits table.schema) = true ∧
        ¬(table.schema.keys updated).Nodup ∧
        ∃ key, table.update assignments condition = .error (table.keyTaken key) table) ∨
      ((assignments.all (·.fits table.schema) && condition.fits table.schema) = false ∧
        ∃ cause, table.update assignments condition = .error cause table ∧
          cause.kind = .schema) := by
  intro updated
  unfold update
  rcases table.resolveAssignments_eq assignments with
    ⟨hfits, resolved, hresolved, htypes, hassign⟩ | ⟨hfits, cause, herr, hkind⟩
  · rcases h.satisfying_eq condition with ⟨hcond, hmask⟩ | ⟨hcond, cause, herr, hkind⟩
    · have hcollide := h.collidingKey?_eq_none_iff hkeys
        (fun row => condition.holds table.schema row) resolved
      -- the resolved assignments do to a row what the assignments do
      have hupdated : (rows.map fun row => if condition.holds table.schema row then
          resolved.foldl (fun row entry => row.set entry.1 entry.2) row else row) = updated := by
        simp only [hassign, updated]
      rw [hupdated] at hcollide
      simp only [hresolved, hmask, bind, Except.bind]
      cases hkey : table.collidingKey? resolved
          (rows.map fun row => condition.holds table.schema row) with
      | some key =>
        refine .inr (.inl ⟨by simp [hfits, hcond], ?_, key, rfl⟩)
        intro hnodup
        rw [hcollide.mpr hnodup] at hkey
        cases hkey
      | none =>
        -- no key collides, so all cells are written
        obtain ⟨columns', hok, hstored⟩ := Stored.writeAll rows
          (fun row => condition.holds table.schema row) resolved htypes id (by
            simpa using h.stored)
        simp only [id, hupdated] at hstored
        refine .inl ⟨by simp [hfits, hcond], hcollide.mp hkey, { table with columns := columns' },
          ?_, rfl, rfl, hstored, ?_⟩
        · simp only [hok, pure, Except.pure, Mask.length_rows_map]
        · simpa [updated] using h.count
    · refine .inr (.inr ⟨by simp [hcond], cause, ?_, hkind⟩)
      simp only [hresolved, herr, bind, Except.bind]
  · refine .inr (.inr ⟨by simp [hfits], cause, ?_, hkind⟩)
    simp only [herr, bind, Except.bind]

end Table.Holds

end TableStore
