import TableStore.Proofs.Storage.Assignments

/-!
# The same update once more

An update overwrites cells that its own condition may read, so the second time the condition may hold of
other rows than the first time. But the rows that were updated all have the same value in an assigned
column: the condition holds of all of them again, or of none, and of no other row. Either way nothing is
left to do, and the keys, which differed after the first time, still do.

* `Predicate.DefeatedBy` — the last value of the condition's column does not satisfy the condition.
* `Predicate.holds_assign`, `Schema.countP_updated` — the rows of which the condition holds afterwards.
* `Schema.updated_updated` — updating the rows once more changes none of them.
* `Catalog.update_repeats` — an update that is carried out twice.
-/

namespace TableStore

/-! ## The condition after the update -/

/-- The value that the column of a condition gets last does not satisfy the condition. -/
def Predicate.DefeatedBy (assignments : List Assignment) : Predicate → Prop
  | .always => False
  | .test column op literal =>
    ∃ value, Assignment.last? assignments column = some value ∧ op.holds value literal = .ok false

section

variable {schema : Schema} {assignments : List Assignment} {condition : Predicate}

/-- A condition holds of a row also after the assignments, unless its own column gets another value. -/
theorem Predicate.holds_assign (hassignments : assignments.all (·.fits schema) = true)
    (hcondition : condition.fits schema = true) {row : List Value}
    (hwidth : row.length = schema.fields.length) (hrow : condition.holds schema row = true) :
    condition.holds schema (schema.assign assignments row) = true ↔
      ¬condition.DefeatedBy assignments := by
  cases condition with
  | always => exact iff_of_true rfl id
  | test column op literal =>
    obtain ⟨htype, hop⟩ := (Bool.and_eq_true _ _).mp hcondition
    rw [beq_iff_eq] at htype
    obtain ⟨⟨field, position⟩, hlocate, -⟩ := Option.map_eq_some_iff.mp htype
    have hposition := Schema.position?_eq_some_iff.mpr ⟨field, hlocate⟩
    have hvalue : schema.value? column (schema.assign assignments row) =
        (Assignment.last? assignments column).or (schema.value? column row) := by
      rw [Schema.value?, Schema.value?, hposition]
      exact Schema.getElem?_assign hposition assignments
        (hwidth ▸ Schema.position?_lt hposition)
    cases hlast : Assignment.last? assignments column with
    | none =>
      rw [hlast, Option.none_or] at hvalue
      simp only [holds, hvalue, DefeatedBy, hlast]
      exact iff_of_true hrow (by simp)
    | some value =>
      -- the assigned value has the type of the column, so it can be compared
      have hfits := List.all_eq_true.mp hassignments _ (Assignment.exists_of_last? hlast)
      have hsame : literal.type = value.type := by
        rw [Assignment.fits, htype, beq_iff_eq] at hfits
        exact Option.some.inj hfits
      obtain ⟨answer, hanswer⟩ := op.exists_holds hsame hop
      rw [hlast, Option.some_or] at hvalue
      simp only [holds, hvalue, DefeatedBy, hlast, hanswer]
      cases answer <;> simp [hanswer]

/-- Updated rows that are updated once more stay as they are. -/
theorem Schema.updated_updated (schema : Schema) (assignments : List Assignment)
    (condition : Predicate) (rows : List (List Value)) :
    schema.updated assignments condition (schema.updated assignments condition rows) =
      schema.updated assignments condition rows := by
  unfold updated
  rw [List.map_map]
  refine List.map_congr_left fun row _ => ?_
  rw [Function.comp_apply]
  by_cases hrow : condition.holds schema row = true
  · rw [if_pos hrow]
    split
    · exact schema.assign_assign assignments row
    · rfl
  · rw [if_neg hrow, if_neg hrow]

/-- The condition holds of all rows that were updated, or of none of them, and of no others. -/
theorem Schema.countP_updated (hassignments : assignments.all (·.fits schema) = true)
    (hcondition : condition.fits schema = true) {rows : List (List Value)}
    (hwidth : ∀ row ∈ rows, row.length = schema.fields.length) :
    (condition.DefeatedBy assignments ∧ (schema.updated assignments condition rows).countP
        (fun row => condition.holds schema row) = 0) ∨
      (¬condition.DefeatedBy assignments ∧ (schema.updated assignments condition rows).countP
        (fun row => condition.holds schema row) =
          rows.countP fun row => condition.holds schema row) := by
  have hstep : ∀ row ∈ rows, condition.holds schema
      (if condition.holds schema row then schema.assign assignments row else row) = true ↔
        condition.holds schema row = true ∧ ¬condition.DefeatedBy assignments := by
    intro row hmem
    by_cases hrow : condition.holds schema row = true
    · rw [if_pos hrow, Predicate.holds_assign hassignments hcondition (hwidth row hmem) hrow]
      exact (and_iff_right hrow).symm
    · rw [if_neg hrow]
      exact iff_of_false hrow fun h => hrow h.1
  unfold updated
  rw [List.countP_map]
  by_cases hdefeated : condition.DefeatedBy assignments
  · refine .inl ⟨hdefeated, List.countP_eq_zero.mpr fun row hmem hholds => ?_⟩
    exact ((hstep row hmem).mp hholds).2 hdefeated
  · refine .inr ⟨hdefeated, List.countP_congr fun row hmem => ?_⟩
    exact (hstep row hmem).trans (and_iff_left hdefeated)

end

namespace Table.Holds

variable {table : Table} {rows : List (List Value)} {assignments : List Assignment}

/-- What an update has done that succeeds. -/
theorem of_update_ok (h : table.Holds rows) (hkeys : (table.schema.keys rows).Nodup)
    {condition : Predicate} {count : Nat} {after : Table}
    (hok : table.update assignments condition = .ok count after) :
    assignments.all (·.fits table.schema) = true ∧ condition.fits table.schema = true ∧
      (table.schema.keys (table.schema.updated assignments condition rows)).Nodup ∧
      count = (rows.countP fun row => condition.holds table.schema row) ∧
      after.name = table.name ∧ after.schema = table.schema ∧
      after.Holds (table.schema.updated assignments condition rows) := by
  rcases h.update_eq hkeys assignments condition with
    ⟨hfits, hnodup, after', hok', hname, hschema, hholds⟩ | ⟨-, -, key, herr⟩ | ⟨-, cause, herr, -⟩
  · obtain ⟨rfl, rfl⟩ : _ = count ∧ after' = after := by simpa using hok'.symm.trans hok
    obtain ⟨hassignments, hcondition⟩ := (Bool.and_eq_true _ _).mp hfits
    exact ⟨hassignments, hcondition, hnodup, rfl, hname, hschema, hholds⟩
  · cases herr.symm.trans hok
  · cases herr.symm.trans hok

/-- An update succeeds if it fits the schema and all keys differ afterwards. -/
theorem update_ok (h : table.Holds rows) (hkeys : (table.schema.keys rows).Nodup)
    {condition : Predicate} (hassignments : assignments.all (·.fits table.schema) = true)
    (hcondition : condition.fits table.schema = true)
    (hnodup : (table.schema.keys (table.schema.updated assignments condition rows)).Nodup) :
    ∃ after, table.update assignments condition =
        .ok (rows.countP fun row => condition.holds table.schema row) after ∧
      after.name = table.name ∧ after.schema = table.schema ∧
      after.Holds (table.schema.updated assignments condition rows) := by
  rcases h.update_eq hkeys assignments condition with
    ⟨-, -, hok⟩ | ⟨-, hnot, -⟩ | ⟨hrefused, -⟩
  · exact hok
  · exact absurd hnodup hnot
  · rw [hassignments, hcondition] at hrefused
    cases hrefused

end Table.Holds

namespace Catalog

/-- Whatever a catalog has been asked for: an update of one of its tables that has succeeded succeeds
once more and changes nothing. It answers with the number of rows that it gave before, or with none;
after it has changed a row it answers with none exactly if the column of its condition is assigned
and the value that it gets last does not satisfy the condition. -/
theorem update_repeats (name : String) (commands : List Command) {table : Table}
    (htable : table ∈ ((empty name).run commands).tables) {assignments : List Assignment}
    {condition : Predicate} {n : Nat} {after : Table}
    (hok : table.update assignments condition = .ok n after) :
    ∃ m, after.update assignments condition = .ok m after ∧ (m = n ∨ m = 0) ∧
      (0 < n → (m = 0 ↔ condition.DefeatedBy assignments)) := by
  obtain ⟨rows, hrows⟩ := (sound_run name commands).tables table htable
  obtain ⟨hassignments, hcondition, hnodup, rfl, -, hschema, hholds⟩ :=
    hrows.holds.of_update_ok hrows.keys hok
  rw [← hschema] at hassignments hcondition hnodup hholds
  -- the rows that come out are those that are there already, so their keys still differ
  have hagain := after.schema.updated_updated assignments condition rows
  obtain ⟨again, hok', hname', hschema', hsame⟩ :=
    hholds.update_ok hnodup hassignments hcondition (hagain.symm ▸ hnodup)
  rw [hagain] at hsame
  obtain rfl : again = after := hsame.unique hholds hname' hschema'
  have hwidth := hrows.holds.stored.width
  rw [← hschema] at hwidth ⊢
  refine ⟨_, hok', ?_⟩
  rcases Schema.countP_updated hassignments hcondition hwidth with
    ⟨hdefeated, hcount⟩ | ⟨hkept, hcount⟩
  · rw [hcount]
    exact ⟨.inr rfl, fun _ => iff_of_true rfl hdefeated⟩
  · rw [hcount]
    exact ⟨.inl rfl, fun hpos => iff_of_false hpos.ne' hkept⟩

/-- An update that takes its own rows away from its condition, and one that reads another column. -/
theorem update_repeats_done :
    let schema : Schema := ⟨[⟨"id", .integer⟩, ⟨"done", .boolean⟩], some "id"⟩
    let catalog := (empty "main").run
      [.create "t" schema,
       .call "t" (.insert none [[.integer 1, .boolean false], [.integer 2, .boolean true],
         [.integer 3, .boolean false]])]
    let finish : List Assignment := [⟨"done", .boolean true⟩]
    let undone : Predicate := .test "done" .equal (.boolean false)
    let early : Predicate := .test "id" .atMost (.integer 2)
    ∃ table ∈ catalog.tables,
      (∃ after, table.update finish undone = .ok 2 after ∧ after.update finish undone = .ok 0 after) ∧
      ∃ after, table.update finish early = .ok 2 after ∧ after.update finish early = .ok 2 after := by
  intro schema catalog finish undone early
  obtain ⟨table, first, second, htables, hfirst, hsecond⟩ : ∃ table first second,
      catalog.tables = [table] ∧ table.update finish undone = .ok 2 first ∧
      table.update finish early = .ok 2 second :=
    ⟨_, _, _, rfl, rfl, rfl⟩
  have htable : table ∈ catalog.tables := by
    rw [htables]
    exact List.mem_singleton_self table
  refine ⟨table, htable, ⟨first, hfirst, ?_⟩, second, hsecond, ?_⟩
  · obtain ⟨m, hagain, -, hnone⟩ := update_repeats "main" _ htable hfirst
    obtain rfl : m = 0 := (hnone (by decide)).mpr ⟨.boolean true, rfl, rfl⟩
    exact hagain
  · obtain ⟨m, hagain, hcount, hnone⟩ := update_repeats "main" _ htable hsecond
    -- the identifier is not assigned, so the rows are still early
    have hkept : m ≠ 0 := by
      intro hzero
      obtain ⟨value, hlast, -⟩ := (hnone (by decide)).mp hzero
      cases hlast
    rwa [hcount.resolve_right hkept] at hagain

end Catalog

end TableStore
