import Mathlib.Data.List.Nodup
import Mathlib.Data.List.Perm.Basic
import TableStore.Proofs.Storage.Conditions
import TableStore.Storage.Table.Insert

/-!
# Inserting appends rows

An insertion finds the columns that its values go to, arranges each tuple in schema order, compares
the primary keys and only then stores cell by cell. In terms of rows it appends the arranged tuples.

* `Table.targets_eq` — the columns are found if the list names each of them once.
* `Table.arrange_eq` — a tuple is arranged if it has a value of the right type for each column.
* `Table.Holds.repeatedKey?_eq_none_iff` — the check finds no repeated key exactly if the keys of
  all rows differ.
* `Table.Holds.store_eq` — storing never fails halfway.
* `Table.Holds.insert_eq` — an insertion appends the rows that the list of rows gets;
  `Table.Holds.insert_ok` and `Table.Holds.of_insert_ok` tell when it succeeds.
-/

namespace TableStore

/-! ## The columns of the values -/

theorem Schema.mapM_position? (schema : Schema) (names : List String) :
    names.mapM schema.position? = (names.mapM schema.locate?).map (·.map (·.2)) := by
  induction names with
  | nil => rfl
  | cons name names ih =>
    rw [List.mapM_cons, List.mapM_cons, ih, position?]
    cases schema.locate? name <;> cases names.mapM schema.locate? <;> rfl

/-- Located columns differ if their positions do, and the positions are those of the schema exactly
if the columns are. -/
theorem Schema.isPerm_range_iff (schema : Schema) {located : List (Field × Nat)}
    (h : ∀ target ∈ located, schema.fields[target.2]? = some target.1) :
    (located.map (·.2)).isPerm (List.range schema.fields.length) = true ↔
      located.Nodup ∧ ∀ target ∈ schema.fields.zipIdx, target ∈ located := by
  -- the position of a located column tells the column
  have hinj : ∀ a ∈ located, ∀ b ∈ located, a.2 = b.2 → a = b := by
    intro a ha b hb heq
    have hfields := (h a ha).symm.trans ((congrArg _ heq).trans (h b hb))
    exact Prod.ext (Option.some.inj hfields) heq
  rw [List.isPerm_iff]
  constructor
  · intro hperm
    have hnodup := hperm.nodup_iff.mpr List.nodup_range
    refine ⟨List.Nodup.of_map _ hnodup, fun target htarget => ?_⟩
    have hfield := List.mem_zipIdx_iff_getElem?.mp htarget
    have hlt := (List.getElem?_eq_some_iff.mp hfield).1
    obtain ⟨other, hother, heq⟩ := List.mem_map.mp (hperm.mem_iff.mpr (List.mem_range.mpr hlt))
    have hsame := (h other hother).symm.trans ((congrArg _ heq).trans hfield)
    rwa [← Prod.ext (Option.some.inj hsame) heq]
  · rintro ⟨hnodup, hall⟩
    refine (List.perm_ext_iff_of_nodup (hnodup.map_on hinj) List.nodup_range).mpr ?_
    intro position
    rw [List.mem_map, List.mem_range]
    constructor
    · rintro ⟨target, htarget, rfl⟩
      exact (List.getElem?_eq_some_iff.mp (h target htarget)).1
    · intro hlt
      exact ⟨(schema.fields[position], position),
        hall _ (List.mem_zipIdx_iff_getElem?.mpr (List.getElem?_eq_getElem hlt)), rfl⟩

namespace Table

/-- The located columns follow the names, unless a name is unknown or comes twice. -/
theorem resolve_eq (table : Table) (names : List String) (found : List (Field × Nat))
    (hfound : found.Nodup) :
    (∃ located, names.mapM table.schema.locate? = some located ∧ (found ++ located).Nodup ∧
        table.resolve found names = .ok (found ++ located)) ∨
      ((∀ located, names.mapM table.schema.locate? = some located → ¬(found ++ located).Nodup) ∧
        ∃ cause, table.resolve found names = .error cause ∧ cause.kind = .schema) := by
  induction names generalizing found with
  | nil => exact .inl ⟨[], rfl, by simpa using hfound, by simp [resolve]⟩
  | cons name names ih =>
    rw [List.mapM_cons, resolve]
    rcases table.locate_eq name with ⟨located, hlocate, hok⟩ | ⟨hlocate, herr⟩
    · by_cases hmem : located ∈ found
      · -- named before, so no columns are found, whatever follows
        refine .inr ⟨?_, .columnRepeated name, ?_, rfl⟩
        · intro all hall hnodup
          simp only [hlocate, Option.bind_eq_bind, Option.bind_some, Option.bind_eq_some_iff,
            Option.pure_def, Option.some.injEq] at hall
          obtain ⟨rest, -, rfl⟩ := hall
          exact (List.nodup_append.mp hnodup).2.2 located hmem located List.mem_cons_self rfl
        · simp [hok, hmem, bind, Except.bind, throw, throwThe, MonadExceptOf.throw]
      · have hnext : (found ++ [located]).Nodup := by
          rw [List.nodup_append]
          refine ⟨hfound, List.nodup_singleton located, fun a ha b hb => ?_⟩
          rw [List.mem_singleton.mp hb]
          rintro rfl
          exact hmem ha
        have hgo : table.resolve found (name :: names) =
            table.resolve (found ++ [located]) names := by
          simp [resolve, hok, hmem, bind, Except.bind]
        rw [resolve] at hgo
        rw [hgo]
        rcases ih _ hnext with ⟨rest, hrest, hnodup, hresolve⟩ | ⟨hnot, cause, herr, hkind⟩
        · refine .inl ⟨located :: rest, by simp [hlocate, hrest], ?_, ?_⟩
          · simpa using hnodup
          · simpa using hresolve
        · refine .inr ⟨?_, cause, herr, hkind⟩
          intro all hall
          simp only [hlocate, Option.bind_eq_bind, Option.bind_some, Option.bind_eq_some_iff,
            Option.pure_def, Option.some.injEq] at hall
          obtain ⟨rest, hrest, rfl⟩ := hall
          simpa using hnot rest hrest
    · refine .inr ⟨by simp [hlocate], .columnNotFound name table.name, ?_, rfl⟩
      simp [herr, bind, Except.bind]

/-- The values of a tuple go to the columns of the list if it names each column of the schema exactly
once, and to all columns in schema order if there is no list. -/
theorem targets_eq (table : Table) (columns : Option (List String)) :
    (∃ targets, table.targets columns = .ok targets ∧
        table.schema.order? columns = some (targets.map (·.2)) ∧
        (targets.map (·.2)).Perm (List.range table.schema.fields.length) ∧
        ∀ target ∈ targets, table.schema.fields[target.2]? = some target.1) ∨
      (table.schema.order? columns = none ∧
        ∃ cause, table.targets columns = .error cause ∧ cause.kind = .schema) := by
  cases columns with
  | none =>
    have hrange : table.schema.fields.zipIdx.map (·.2) = List.range table.schema.fields.length := by
      rw [List.zipIdx_map_snd, List.range_eq_range']
    refine .inl ⟨table.schema.fields.zipIdx, rfl, by rw [hrange]; rfl, by rw [hrange], ?_⟩
    exact fun target htarget => List.mem_zipIdx_iff_getElem?.mp htarget
  | some names =>
    simp only [targets, Schema.order?, Schema.mapM_position?]
    rcases table.resolve_eq names [] List.nodup_nil with
      ⟨located, hlocated, hnodup, hok⟩ | ⟨hnot, cause, herr, hkind⟩
    · rw [List.nil_append] at hnodup hok
      have hat : ∀ target ∈ located, table.schema.fields[target.2]? = some target.1 := by
        intro target htarget
        obtain ⟨name, -, hname⟩ := exists_of_mem_forall₂ (mapM_some_iff.mp hlocated) htarget
        exact (Schema.locate?_eq_some hname).1
      have hperm := table.schema.isPerm_range_iff hat
      simp only [hok, hlocated, bind, Except.bind, Option.map_some]
      -- a column that is not named is reported, the first one of the schema
      cases hmissing : table.schema.fields.zipIdx.find? fun target => target ∉ located with
      | none =>
        have hall : ∀ target ∈ table.schema.fields.zipIdx, target ∈ located := by
          simpa using List.find?_eq_none.mp hmissing
        have hisPerm := hperm.mpr ⟨hnodup, hall⟩
        exact .inl ⟨located, rfl, Option.filter_some_pos hisPerm, List.isPerm_iff.mp hisPerm, hat⟩
      | some missing =>
        refine .inr ⟨Option.filter_some_neg (Bool.eq_false_iff.mpr ?_),
          .columnMissing missing.1.name table.name, rfl, rfl⟩
        intro hisPerm
        have hin := (hperm.mp hisPerm).2 missing (List.mem_of_find?_eq_some hmissing)
        simpa [hin] using List.find?_some hmissing
    · refine .inr ⟨?_, cause, by simp only [herr, bind, Except.bind], hkind⟩
      cases hlocated : names.mapM table.schema.locate? with
      | none => rfl
      | some located =>
        refine Option.filter_some_neg (Bool.eq_false_iff.mpr fun hisPerm => hnot located hlocated ?_)
        have hnodup := (List.isPerm_iff.mp hisPerm).nodup_iff.mpr List.nodup_range
        exact List.Nodup.of_map _ hnodup

/-! ## Tuples as rows -/

/-- The types of a tuple are checked one by one against those of its columns. -/
theorem checkTypes_eq (tuple : List Value) (targets : List (Field × Nat))
    (hlen : tuple.length = targets.length) :
    (tuple.map Value.type = targets.map (·.1.type) ∧ checkTypes (tuple.zip targets) = .ok ()) ∨
      (tuple.map Value.type ≠ targets.map (·.1.type) ∧
        ∃ cause, checkTypes (tuple.zip targets) = .error cause ∧ cause.kind = .schema) := by
  induction tuple generalizing targets with
  | nil =>
    obtain rfl : targets = [] := List.length_eq_zero_iff.mp hlen.symm
    exact .inl ⟨rfl, rfl⟩
  | cons value tuple ih =>
    obtain ⟨target, targets, rfl⟩ := List.exists_cons_of_length_eq_add_one hlen.symm
    rw [List.zip_cons_cons, checkTypes]
    by_cases htype : value.type = target.1.type
    · rcases ih targets (by simpa using hlen) with ⟨heq, hok⟩ | ⟨hne, cause, herr, hkind⟩
      · exact .inl ⟨by simp [htype, heq], by simpa [htype] using hok⟩
      · exact .inr ⟨by simp [hne], cause, by simpa [htype] using herr, hkind⟩
    · exact .inr ⟨by simp [htype], .wrongType value target.1.name target.1.type, by simp [htype],
        rfl⟩

/-- The value for a position is looked up among the values with their positions. -/
theorem find?_zip_eq_lookup (tuple : List Value) (targets : List (Field × Nat)) (position : Nat) :
    ((tuple.zip targets).find? fun (_, _, target) => target == position).map (·.1) =
      ((targets.map (·.2)).zip tuple).lookup position := by
  induction tuple generalizing targets with
  | nil => simp
  | cons value tuple ih =>
    cases targets with
    | nil => rfl
    | cons target targets =>
      rw [List.zip_cons_cons, List.map_cons, List.zip_cons_cons, List.find?_cons,
        List.lookup_cons, ← ih targets]
      by_cases heq : target.2 = position
      · simp [heq]
      · have hne : (target.2 == position) = false := by simpa using heq
        have hne' : (position == target.2) = false := by simpa using Ne.symm heq
        simp [hne, hne']

section

variable {schema : Schema} {targets : List (Field × Nat)} {tuple : List Value}

/-- Among values of the right types that are placed at all positions of a schema, each column of the
schema finds one of its own type. -/
theorem exists_placed (hperm : (targets.map (·.2)).Perm (List.range schema.fields.length))
    (hat : ∀ target ∈ targets, schema.fields[target.2]? = some target.1)
    (htypes : tuple.map Value.type = targets.map (·.1.type)) {target : Field × Nat}
    (htarget : target ∈ schema.fields.zipIdx) :
    ∃ placed, ((tuple.zip targets).find? fun (_, _, position) => position == target.2) =
        some placed ∧
      ((targets.map (·.2)).zip tuple).lookup target.2 = some placed.1 ∧
      placed.1.type = target.1.type := by
  have hforall : List.Forall₂ (· = ·) (tuple.map Value.type) (targets.map (·.1.type)) := by
    rw [htypes]
    exact List.forall₂_refl _
  have hpairs := List.forall₂_map_left_iff.mp (List.forall₂_map_right_iff.mp hforall)
  obtain ⟨hlen, hzip⟩ := List.forall₂_iff_zip.mp hpairs
  have hown := List.mem_zipIdx_iff_getElem?.mp htarget
  rw [← find?_zip_eq_lookup]
  cases hfind : (tuple.zip targets).find? fun (_, _, position) => position == target.2 with
  | none =>
    -- the column's position is among the targets, so a value stands beside it
    have hlt := List.mem_range.mpr (List.getElem?_eq_some_iff.mp hown).1
    obtain ⟨other, hother, hposition⟩ := List.mem_map.mp (hperm.mem_iff.mpr hlt)
    obtain ⟨j, hj, rfl⟩ := List.getElem_of_mem hother
    have hj' : j < tuple.length := by omega
    have hplaced : (tuple[j], targets[j]) ∈ tuple.zip targets := by
      rw [← List.getElem_zip (h := by simp [hlen, hj])]
      exact List.getElem_mem _
    simpa [hposition] using List.find?_eq_none.mp hfind _ hplaced
  | some placed =>
    obtain ⟨value, field, position⟩ := placed
    have hmem := List.mem_of_find?_eq_some hfind
    obtain rfl : position = target.2 := by simpa using List.find?_some hfind
    have hfield := hat _ (List.of_mem_zip hmem).2
    have hsame : field = target.1 := Option.some.inj (hfield.symm.trans hown)
    exact ⟨_, rfl, rfl, by rw [hzip hmem, hsame]⟩

/-- Going through the positions of a schema is going through its columns. -/
theorem arranged_eq_filterMap {order : List Nat}
    (hperm : order.Perm (List.range schema.fields.length)) (tuple : List Value) :
    arranged order tuple =
      schema.fields.zipIdx.filterMap fun target => (order.zip tuple).lookup target.2 := by
  unfold arranged
  rw [hperm.length_eq, List.length_range, List.range_eq_range', ← List.zipIdx_map_snd 0,
    List.filterMap_map]
  rfl

theorem map_type_eq_filterMap (schema : Schema) :
    schema.fields.map Field.type =
      schema.fields.zipIdx.filterMap fun target => some target.1.type := by
  have hmap := List.map_map (f := Prod.fst) (g := Field.type) (l := schema.fields.zipIdx)
  rw [List.zipIdx_map_fst] at hmap
  exact hmap.trans (List.filterMap_eq_map ▸ rfl)

end

/-- If the positions are those of the schema, then a tuple with the types of their columns is
arranged in schema order, and any other tuple is refused. -/
theorem arrange_eq (table : Table) {targets : List (Field × Nat)}
    (hperm : (targets.map (·.2)).Perm (List.range table.schema.fields.length))
    (hat : ∀ target ∈ targets, table.schema.fields[target.2]? = some target.1)
    (tuple : List Value) :
    (table.schema.accepts (targets.map (·.2)) tuple = true ∧
        table.arrange targets tuple = .ok (arranged (targets.map (·.2)) tuple) ∧
        (arranged (targets.map (·.2)) tuple).map Value.type =
          table.schema.fields.map Field.type) ∨
      (table.schema.accepts (targets.map (·.2)) tuple = false ∧
        ∃ cause, table.arrange targets tuple = .error cause ∧ cause.kind = .schema) := by
  have hexpected : (targets.map (·.2)).filterMap
      (fun position => (table.schema.fields[position]?).map Field.type) =
      targets.map (·.1.type) := by
    rw [List.filterMap_map, ← List.filterMap_eq_map]
    refine List.filterMap_congr fun target htarget => ?_
    simp [hat target htarget]
  unfold arrange Schema.accepts
  rw [hexpected]
  by_cases hlen : tuple.length = targets.length
  · rcases checkTypes_eq tuple targets hlen with ⟨htypes, hok⟩ | ⟨hne, cause, herr, hkind⟩
    · refine .inl ⟨by simpa using htypes, ?_, ?_⟩
      · simp only [hlen, ne_eq, not_true_eq_false, ↓reduceIte, hok, bind, Except.bind]
        rw [arranged_eq_filterMap hperm]
        refine mapM_ok_filterMap fun target htarget => ?_
        obtain ⟨placed, hfind, hlookup, -⟩ := exists_placed hperm hat htypes htarget
        exact ⟨placed.1, by rw [hfind], hlookup⟩
      · rw [arranged_eq_filterMap hperm, List.map_filterMap, map_type_eq_filterMap]
        refine List.filterMap_congr fun target htarget => ?_
        obtain ⟨placed, -, hlookup, htype⟩ := exists_placed hperm hat htypes htarget
        rw [hlookup, Option.map_some, htype]
    · refine .inr ⟨by simpa using hne, cause, ?_, hkind⟩
      simp [hlen, herr, bind, Except.bind]
  · refine .inr ⟨?_, .wrongArity tuple.length targets.length, ?_, rfl⟩
    · have hne : tuple.map Value.type ≠ targets.map (·.1.type) := by
        intro heq
        exact hlen (by simpa using congrArg List.length heq)
      simpa using hne
    · simp [hlen, bind, Except.bind, throw, throwThe, MonadExceptOf.throw]

/-- All tuples are arranged, or one of them is refused. -/
theorem mapM_arrange_eq (table : Table) {targets : List (Field × Nat)}
    (hperm : (targets.map (·.2)).Perm (List.range table.schema.fields.length))
    (hat : ∀ target ∈ targets, table.schema.fields[target.2]? = some target.1)
    (tuples : List (List Value)) :
    (tuples.all (table.schema.accepts (targets.map (·.2))) = true ∧
        tuples.mapM (table.arrange targets) =
          .ok (tuples.map (arranged (targets.map (·.2)))) ∧
        ∀ row ∈ tuples.map (arranged (targets.map (·.2))),
          row.map Value.type = table.schema.fields.map Field.type) ∨
      (tuples.all (table.schema.accepts (targets.map (·.2))) = false ∧
        ∃ cause, tuples.mapM (table.arrange targets) = .error cause ∧ cause.kind = .schema) := by
  induction tuples with
  | nil => exact .inl ⟨rfl, rfl, by simp⟩
  | cons tuple tuples ih =>
    rw [List.mapM_cons]
    rcases table.arrange_eq hperm hat tuple with ⟨haccepts, hok, htypes⟩ | ⟨hnot, cause, herr, hkind⟩
    · rcases ih with ⟨hall, hrest, hall_types⟩ | ⟨hall, cause, herr, hkind⟩
      · refine .inl ⟨by simpa [haccepts] using hall, ?_, ?_⟩
        · simp [hok, hrest, bind, Except.bind, pure, Except.pure]
        · intro row hrow
          rcases List.mem_cons.mp hrow with rfl | hrow
          · exact htypes
          · exact hall_types row hrow
      · exact .inr ⟨by simp [hall], cause, by simp [hok, herr, bind, Except.bind], hkind⟩
    · exact .inr ⟨by simp [hnot], cause, by simp [herr, bind, Except.bind], hkind⟩

end Table

/-! ## The primary-key check -/

/-- The keys of rows that have a value at the key's position. -/
theorem map_getElem?_eq {rows : List (List Value)} {position width : Nat}
    (hwidth : ∀ row ∈ rows, row.length = width) (hlt : position < width) :
    rows.map (·[position]?) = (rows.filterMap (·[position]?)).map some := by
  rw [List.map_filterMap, ← List.filterMap_eq_map]
  refine List.filterMap_congr fun row hrow => ?_
  have hat : position < row.length := by
    rw [hwidth row hrow]
    exact hlt
  simp [hat]

namespace Table.Holds

variable {table : Table} {rows : List (List Value)}

/-- A column holds the values that the rows have at its position. -/
theorem filterMap_cell? (h : table.Holds rows) (position : Nat) :
    (List.range table.rowCount).filterMap (table.cell? · position) =
      rows.filterMap (·[position]?) := by
  calc (List.range table.rowCount).filterMap (table.cell? · position)
      = (List.range rows.length).filterMap fun i => rows[i]?.bind (·[position]?) := by
        rw [h.count]
        exact List.filterMap_congr fun i _ => h.cell?_eq i position
    _ = ((List.range rows.length).map (rows[·]?)).filterMap fun row => row.bind (·[position]?) := by
        rw [List.filterMap_map]
        rfl
    _ = rows.filterMap (·[position]?) := by
        rw [map_range_getElem?, List.filterMap_map]
        rfl

/-- New rows repeat a key exactly if the keys of all rows, old and new, are not different. -/
theorem repeatedKey?_eq_none_iff (h : table.Holds rows) (hkeys : (table.schema.keys rows).Nodup)
    {new : List (List Value)} (hnew : ∀ row ∈ new, row.length = table.schema.fields.length) :
    table.repeatedKey? new = none ↔ (table.schema.keys (rows ++ new)).Nodup := by
  unfold repeatedKey? Schema.keys at *
  cases hposition : table.schema.keyPosition? with
  | none => simp
  | some position =>
    obtain ⟨key, -, hkey⟩ := Option.bind_eq_some_iff.mp hposition
    have hlt := Schema.position?_lt hkey
    simp only [hposition] at hkeys ⊢
    -- the check goes through the new keys with the stored ones seen before
    rw [h.filterMap_cell?, firstRepeat?_eq_none_iff, List.map_append,
      map_getElem?_eq h.stored.width hlt, map_getElem?_eq hnew hlt, ← List.map_append,
      List.nodup_map_iff (Option.some_injective Value), List.nodup_append]
    rw [map_getElem?_eq h.stored.width hlt, List.nodup_map_iff (Option.some_injective Value)]
      at hkeys
    constructor
    · rintro ⟨hnodup, hout⟩
      refine ⟨hkeys, hnodup, fun old hold key hkey heq => ?_⟩
      exact hout key hkey (heq ▸ hold)
    · rintro ⟨-, hnodup, hdisj⟩
      exact ⟨hnodup, fun key hkey hold => hdisj key hold key hkey rfl⟩

end Table.Holds

/-! ## Storing -/

/-- Adding to each column the value that a row has for it adds the row. -/
theorem Stored.push {fields : List Field} {columns : List Column} {rows : List (List Value)}
    (h : Stored fields columns rows) {row : List Value}
    (htypes : row.map Value.type = fields.map Field.type) :
    ∃ columns', Table.eachColumn Column.push columns row = .ok () columns' ∧
      Stored fields columns' (rows ++ [row]) := by
  have hwidth : row.length = fields.length := by simpa using congrArg List.length htypes
  have hstep : List.Forall₂ (fun column value => ∃ after, column.push value = .ok after ∧
      after.field = column.field ∧ after.values = column.values ++ [value]) columns row := by
    rw [List.forall₂_iff_get]
    refine ⟨by rw [h.length_columns, hwidth], fun position hp hq => ?_⟩
    -- the row has a value of the column's type at the column's position
    have hfield := h.field_eq (List.getElem?_eq_getElem hp)
    have htype := congrArg (·[position]?) htypes
    simp only [List.getElem?_map, hfield, List.getElem?_eq_getElem hq, Option.map_some,
      Option.some.injEq] at htype
    rcases (columns[position]).push_eq row[position] with
      ⟨after, hok, -, hname, htype', hvalues⟩ | ⟨-, hne⟩
    · exact ⟨after, hok, by simp [Column.field, hname, htype'], hvalues⟩
    · exact absurd htype hne
  obtain ⟨columns', hok, hfields, hvalues⟩ :=
    Table.eachColumn_ok (fun value values => values ++ [value]) hstep
  refine ⟨columns', hok, ?_, ?_, ?_⟩
  · rw [hfields, h.fields_eq]
  · intro other hother
    rcases List.mem_append.mp hother with hold | hnew
    · exact h.width other hold
    · rw [List.mem_singleton.mp hnew, hwidth]
  · intro position after hafter
    obtain ⟨column, value, hcolumn, hvalue, hpushed⟩ := hvalues hafter
    rw [hpushed, List.map_append, List.map_append, h.values_eq hcolumn, List.map_singleton,
      List.map_singleton, hvalue]

namespace Table.Holds

variable {table : Table} {rows : List (List Value)}

/-- Rows of the right types are stored one by one, and none of them is refused. -/
theorem store_eq (h : table.Holds rows) (new : List (List Value))
    (hnew : ∀ row ∈ new, row.map Value.type = table.schema.fields.map Field.type) :
    ∃ after, store new table = .ok () after ∧ after.name = table.name ∧
      after.schema = table.schema ∧ after.Holds (rows ++ new) := by
  induction new generalizing table rows with
  | nil => exact ⟨table, rfl, rfl, rfl, by simpa using h⟩
  | cons row new ih =>
    obtain ⟨columns, hok, hstored⟩ := h.stored.push (hnew row List.mem_cons_self)
    -- with the first row stored, the columns hold one row more
    have hnext : { table with columns, rowCount := table.rowCount + 1 : Table }.Holds
        (rows ++ [row]) := ⟨hstored, by simp [h.count]⟩
    obtain ⟨after, hstore, hname, hschema, hholds⟩ :=
      ih hnext fun other hother => hnew other (List.mem_cons_of_mem row hother)
    refine ⟨after, by simp only [store, hok, hstore], hname, hschema, ?_⟩
    rwa [List.append_assoc] at hholds

/-- An insertion appends the tuples, each in schema order, and answers with their number, unless two
of the rows that come out have the same primary key. It is refused before that if the columns or a
tuple do not fit the schema. -/
theorem insert_eq (h : table.Holds rows) (hkeys : (table.schema.keys rows).Nodup)
    (columns : Option (List String)) (tuples : List (List Value)) :
    (∃ order, table.schema.order? columns = some order ∧
        tuples.all (table.schema.accepts order) = true ∧
        (table.schema.keys (rows ++ tuples.map (arranged order))).Nodup ∧
        ∃ after, table.insert columns tuples = .ok tuples.length after ∧
          after.name = table.name ∧ after.schema = table.schema ∧
          after.Holds (rows ++ tuples.map (arranged order))) ∨
      (∃ order, table.schema.order? columns = some order ∧
        tuples.all (table.schema.accepts order) = true ∧
        ¬(table.schema.keys (rows ++ tuples.map (arranged order))).Nodup ∧
        ∃ key, table.repeatedKey? (tuples.map (arranged order)) = some key ∧
          table.insert columns tuples = .error (table.keyTaken key) table) ∨
      ((∀ order, table.schema.order? columns = some order →
          tuples.all (table.schema.accepts order) = false) ∧
        ∃ cause, table.insert columns tuples = .error cause table ∧ cause.kind = .schema) := by
  unfold insert
  rcases table.targets_eq columns with
    ⟨targets, hok, horder, hperm, hat⟩ | ⟨hnone, cause, herr, hkind⟩
  · rcases table.mapM_arrange_eq hperm hat tuples with
      ⟨haccepts, hrows, htypes⟩ | ⟨hnot, cause, herr, hkind⟩
    · have hwidth : ∀ row ∈ tuples.map (arranged (targets.map (·.2))),
          row.length = table.schema.fields.length := by
        intro row hrow
        simpa using congrArg List.length (htypes row hrow)
      -- the keys are compared before anything is stored
      have hrepeated := h.repeatedKey?_eq_none_iff hkeys hwidth
      simp only [hok, hrows, bind, Except.bind]
      cases hkey : table.repeatedKey? (tuples.map (arranged (targets.map (·.2)))) with
      | some key =>
        refine .inr (.inl ⟨_, horder, haccepts, fun hnodup => ?_, key, hkey, rfl⟩)
        rw [hrepeated.mpr hnodup] at hkey
        cases hkey
      | none =>
        obtain ⟨after, hstore, hname, hschema, hholds⟩ := h.store_eq _ htypes
        refine .inl ⟨_, horder, haccepts, hrepeated.mp hkey, after, ?_, hname, hschema, hholds⟩
        simp only [pure, Except.pure, hstore, List.length_map]
    · refine .inr (.inr ⟨fun order horder' => ?_, cause, ?_, hkind⟩)
      · rw [horder] at horder'
        rw [← Option.some.inj horder']
        exact hnot
      · simp only [hok, herr, bind, Except.bind]
  · refine .inr (.inr ⟨fun order horder => ?_, cause, ?_, hkind⟩)
    · rw [hnone] at horder
      cases horder
    · simp only [herr, bind, Except.bind]

/-- An insertion succeeds if the columns and the tuples fit the schema and the keys differ. -/
theorem insert_ok (h : table.Holds rows) (hkeys : (table.schema.keys rows).Nodup)
    {columns : Option (List String)} {tuples : List (List Value)} {order : List Nat}
    (horder : table.schema.order? columns = some order)
    (haccepts : tuples.all (table.schema.accepts order) = true)
    (hnodup : (table.schema.keys (rows ++ tuples.map (arranged order))).Nodup) :
    ∃ after, table.insert columns tuples = .ok tuples.length after ∧ after.name = table.name ∧
      after.schema = table.schema ∧ after.Holds (rows ++ tuples.map (arranged order)) := by
  rcases h.insert_eq hkeys columns tuples with
    ⟨_, horder', -, -, hok⟩ | ⟨_, horder', -, hnot, -⟩ | ⟨hnot, -⟩
  · rw [Option.some.inj (horder.symm.trans horder')]
    exact hok
  · rw [Option.some.inj (horder.symm.trans horder')] at hnodup
    exact absurd hnodup hnot
  · rw [hnot order horder] at haccepts
    cases haccepts

/-- An insertion succeeds in no other case. -/
theorem of_insert_ok (h : table.Holds rows) (hkeys : (table.schema.keys rows).Nodup)
    {columns : Option (List String)} {tuples : List (List Value)} {count : Nat} {after : Table}
    (hok : table.insert columns tuples = .ok count after) :
    ∃ order, table.schema.order? columns = some order ∧
      tuples.all (table.schema.accepts order) = true ∧
      (table.schema.keys (rows ++ tuples.map (arranged order))).Nodup ∧ count = tuples.length ∧
      after.name = table.name ∧ after.schema = table.schema ∧
      after.Holds (rows ++ tuples.map (arranged order)) := by
  rcases h.insert_eq hkeys columns tuples with
    ⟨order, horder, haccepts, hnodup, after', hok', hname, hschema, hholds⟩ |
      ⟨_, -, -, -, key, -, herr⟩ | ⟨-, cause, herr, -⟩
  · obtain ⟨rfl, rfl⟩ : tuples.length = count ∧ after' = after := by
      simpa using hok'.symm.trans hok
    exact ⟨order, horder, haccepts, hnodup, rfl, hname, hschema, hholds⟩
  · cases herr.symm.trans hok
  · cases herr.symm.trans hok

end Table.Holds

end TableStore
