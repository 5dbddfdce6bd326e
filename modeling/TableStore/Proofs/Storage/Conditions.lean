import TableStore.Proofs.Storage.Layout
import TableStore.Proofs.Storage.RowTable

/-!
# Columns by name, and conditions

The first thing that every operation does is to find the columns it names; then it computes a mask
of the rows of which its condition holds.

* `Schema.locate?_eq_some` — what is found is the first column of the name.
* `Schema.position?_of_nodup` — if the names differ, each column is found where it stands.
* `Schema.keys_eq` — where the primary keys of rows stand.
* `Comparison.exists_holds`, `Comparison.exists_error` — which values have an answer to a comparison.
* `Table.Holds.satisfying_eq` — the mask of a condition, if the condition fits the schema.
* `Mask.map_getElem?_rows`, `Mask.leave_map_self`, `Mask.foldl_modify_rows` — reading, keeping and
  changing the rows that a mask means.
-/

namespace TableStore

/-! ## Columns by name -/

namespace Schema

variable {schema : Schema} {name : String} {field : Field} {position : Nat}

/-- The located column stands at its position and has the name. -/
theorem locate?_eq_some (h : schema.locate? name = some (field, position)) :
    schema.fields[position]? = some field ∧ field.name = name := by
  unfold locate? at h
  have hname := List.find?_some h
  have hmem := List.mem_of_find?_eq_some h
  exact ⟨List.mem_zipIdx_iff_getElem?.mp hmem, by simpa using hname⟩

/-- A column is located unless there is none of its name. -/
theorem locate?_eq_none : schema.locate? name = none ↔ name ∉ schema.columnNames := by
  unfold locate? columnNames
  simp only [List.find?_eq_none, List.mem_map, not_exists, not_and, beq_iff_eq]
  constructor
  · intro h field hfield hname
    obtain ⟨i, hi⟩ := List.getElem?_of_mem hfield
    exact h (field, i) (List.mem_zipIdx_iff_getElem?.mpr hi) hname
  · intro h located hlocated hname
    exact h located.1 (List.mem_of_getElem? (List.mem_zipIdx_iff_getElem?.mp hlocated)) hname

theorem position?_eq_some_iff :
    schema.position? name = some position ↔ ∃ field, schema.locate? name = some (field, position) := by
  simp [position?, Option.map_eq_some_iff]

theorem position?_lt (h : schema.position? name = some position) :
    position < schema.fields.length := by
  obtain ⟨field, hfield⟩ := position?_eq_some_iff.mp h
  exact (List.getElem?_eq_some_iff.mp (locate?_eq_some hfield).1).1

/-- A column that is found by its name has the name. -/
theorem getElem?_columnNames (h : schema.position? name = some position) :
    schema.columnNames[position]? = some name := by
  obtain ⟨field, hlocate⟩ := position?_eq_some_iff.mp h
  obtain ⟨hfield, rfl⟩ := locate?_eq_some hlocate
  rw [columnNames, List.getElem?_map, hfield, Option.map_some]

/-- Different names are found at different positions. -/
theorem position?_inj {other : String} (h : schema.position? name = some position)
    (hother : schema.position? other = some position) : name = other :=
  Option.some.inj ((getElem?_columnNames h).symm.trans (getElem?_columnNames hother))

/-- A name of a column has a position. -/
theorem exists_position? (h : name ∈ schema.columnNames) :
    ∃ position, schema.position? name = some position := by
  cases hlocate : schema.locate? name with
  | none => exact absurd h (locate?_eq_none.mp hlocate)
  | some located => exact ⟨located.2, position?_eq_some_iff.mpr ⟨located.1, hlocate⟩⟩

/-- If the names of the columns differ, then each is found where it stands. -/
theorem position?_of_nodup (hnodup : schema.columnNames.Nodup)
    (hname : schema.columnNames[position]? = some name) : schema.position? name = some position := by
  obtain ⟨found, hfound⟩ := exists_position? (List.mem_of_getElem? hname)
  have hlt := (List.getElem?_eq_some_iff.mp hname).1
  -- no other column has the name
  have hsame := (List.getElem?_inj hlt hnodup).mp (hname.trans (getElem?_columnNames hfound).symm)
  rw [hsame, hfound]

theorem keyPosition?_eq_some (hkey : schema.primaryKey = some name)
    (hposition : schema.position? name = some position) : schema.keyPosition? = some position := by
  rw [keyPosition?, hkey, Option.bind_some, hposition]

/-- The keys of rows are what they have at the position of the key. -/
theorem keys_eq (hkey : schema.primaryKey = some name)
    (hposition : schema.position? name = some position) (rows : List (List Value)) :
    schema.keys rows = rows.map (·[position]?) := by
  unfold keys
  rw [keyPosition?_eq_some hkey hposition]

/-- A schema is made of columns of different names, and of a key that is one of them. -/
theorem make_ok_iff {fields : List Field} {key : Option String} :
    make fields key = .ok schema ↔
      schema = ⟨fields, key⟩ ∧ (fields.map (·.name)).Nodup ∧
        ∀ name, key = some name → name ∈ fields.map (·.name) := by
  have hnodup : firstRepeat? [] (fields.map (·.name)) = none ↔ (fields.map (·.name)).Nodup := by
    rw [firstRepeat?_eq_none_iff]
    simp
  dsimp only [make]
  cases hrepeat : firstRepeat? [] (fields.map (·.name)) with
  | some name =>
    rw [hrepeat] at hnodup
    have hdiffer : ¬(fields.map (·.name)).Nodup := fun h => nomatch hnodup.mpr h
    simp [hdiffer]
  | none =>
    have hdiffer := hnodup.mp hrepeat
    cases key with
    | none => simp [hdiffer, eq_comm]
    | some key =>
      dsimp only
      by_cases hmem : key ∈ fields.map (·.name)
      · rw [if_pos hmem]
        simp only [Except.ok.injEq, Option.some.injEq, forall_eq', hdiffer, hmem, and_self, and_true]
        exact eq_comm
      · rw [if_neg hmem]
        simp only [reduceCtorEq, Option.some.injEq, forall_eq', hmem, and_false]

/-- What makes no schema is refused because of the schema. -/
theorem kind_of_make {fields : List Field} {key : Option String} {cause : Error}
    (h : make fields key = .error cause) : cause.kind = .schema := by
  unfold make at h
  dsimp only at h
  split at h
  · cases h
    rfl
  · split at h
    · split at h
      · cases h
      · cases h
        rfl
    · cases h

end Schema

/-- A table locates a column as its schema does, or reports that there is none. -/
theorem Table.locate_eq (table : Table) (name : String) :
    (∃ located, table.schema.locate? name = some located ∧ table.locate name = .ok located) ∨
      (table.schema.locate? name = none ∧
        table.locate name = .error (.columnNotFound name table.name)) := by
  unfold Table.locate
  cases table.schema.locate? name with
  | some located => exact .inl ⟨located, rfl, rfl⟩
  | none => exact .inr ⟨rfl, rfl⟩

/-! ## Conditions -/

/-- Values of one type can be compared, unless they are truth values and the comparison needs an
order. -/
theorem Comparison.exists_holds (op : Comparison) {left right : Value}
    (htype : right.type = left.type) (hop : (!op.isOrdering || right.type.isOrdered) = true) :
    ∃ answer, op.holds left right = .ok answer := by
  cases left with
  | integer m =>
    cases right with
    | integer n => exact ⟨_, rfl⟩
    | text | boolean => cases htype
  | text s =>
    cases right with
    | text t => exact ⟨_, rfl⟩
    | integer | boolean => cases htype
  | boolean a =>
    cases right with
    | boolean b =>
      cases op with
      | equal | notEqual => exact ⟨_, rfl⟩
      | less | greater | atMost | atLeast => cases hop
    | integer | text => cases htype

/-- All other values cannot be compared. -/
theorem Comparison.exists_error (op : Comparison) {left right : Value}
    (h : ¬(right.type = left.type ∧ (!op.isOrdering || right.type.isOrdered) = true)) :
    ∃ cause, op.holds left right = .error cause := by
  cases left with
  | integer m =>
    cases right with
    | integer n => exact absurd ⟨rfl, by simp [Value.type, ValueType.isOrdered]⟩ h
    | text | boolean => exact ⟨_, rfl⟩
  | text s =>
    cases right with
    | text t => exact absurd ⟨rfl, by simp [Value.type, ValueType.isOrdered]⟩ h
    | integer | boolean => exact ⟨_, rfl⟩
  | boolean a =>
    cases right with
    | boolean b =>
      cases op with
      | equal | notEqual => exact absurd ⟨rfl, rfl⟩ h
      | less | greater | atMost | atLeast => exact ⟨_, rfl⟩
    | integer | text => exact ⟨_, rfl⟩

/-- A literal passes the check against a column of its own type that has an order if the comparison
needs one; otherwise the check fails with a cause about the schema. -/
theorem Predicate.check_eq (column : String) (op : Comparison) (literal : Value) (field : Field) :
    (literal.type = field.type ∧ (!op.isOrdering || literal.type.isOrdered) = true ∧
        (Predicate.test column op literal).check field = .ok ()) ∨
      (¬(literal.type = field.type ∧ (!op.isOrdering || literal.type.isOrdered) = true) ∧
        ∃ cause, (Predicate.test column op literal).check field = .error cause ∧
          cause.kind = .schema) := by
  unfold check
  by_cases htype : literal.type = field.type
  · by_cases hop : (op.isOrdering && !field.type.isOrdered) = true
    · refine .inr ⟨?_, .unorderedColumn op field.name field.type, by simp [htype, hop], rfl⟩
      rintro ⟨-, hordered⟩
      rw [htype] at hordered
      cases hord : op.isOrdering <;> simp_all
    · refine .inl ⟨htype, ?_, by simp [htype, hop]⟩
      rw [htype]
      cases hord : op.isOrdering <;> simp_all
  · exact .inr ⟨fun h => htype h.1, .wrongLiteral field.name field.type literal,
      by simp [htype], rfl⟩

namespace Table.Holds

variable {table : Table} {rows : List (List Value)}

/-- The mask of a condition that fits the schema says of which rows it holds; any other condition is
refused, whatever the rows are. -/
theorem satisfying_eq (h : table.Holds rows) (condition : Predicate) :
    (condition.fits table.schema = true ∧
        table.satisfying condition = .ok (rows.map fun row => condition.holds table.schema row)) ∨
      (condition.fits table.schema = false ∧
        ∃ cause, table.satisfying condition = .error cause ∧ cause.kind = .schema) := by
  cases condition with
  | always =>
    refine .inl ⟨rfl, ?_⟩
    show Except.ok (List.replicate table.rowCount true) = .ok (rows.map fun _ => true)
    rw [List.map_const', h.count]
  | test column op literal =>
    rcases table.locate_eq column with ⟨⟨field, position⟩, hlocate, hok⟩ | ⟨hlocate, herr⟩
    · obtain ⟨hfield, -⟩ := Schema.locate?_eq_some hlocate
      have hfits : (Predicate.test column op literal).fits table.schema =
          (field.type == literal.type && (!op.isOrdering || literal.type.isOrdered)) := by
        simp [Predicate.fits, Schema.type?, hlocate]
      rcases Predicate.check_eq column op literal field with
        ⟨htype, hop, hcheck⟩ | ⟨hnot, cause, hcheck, hkind⟩
      · refine .inl ⟨by rw [hfits, hop, htype]; simp, ?_⟩
        simp only [satisfying, Predicate.column?, hok, bind, Except.bind, hcheck, h.count]
        rw [← List.length_map (f := fun row => (Predicate.test column op literal).holds _ row)]
        refine mapM_range_ok fun i hi => ?_
        rw [List.length_map] at hi
        -- every row has a value, and it can be compared with the literal
        obtain ⟨value, hvalue, hvtype⟩ := h.stored.exists_value (List.getElem_mem hi) hfield
        obtain ⟨answer, hanswer⟩ := op.exists_holds (htype.trans hvtype.symm) hop
        have hcell : table.cell? i position = some value := by
          rw [h.cell?_eq, List.getElem?_eq_getElem hi, Option.bind_some, hvalue]
        have hvalue? : table.schema.value? column rows[i] = some value := by
          simp [Schema.value?, Schema.position?, hlocate, hvalue]
        rw [hcell, List.getElem_map]
        simp only [Predicate.evaluate, Predicate.holds, hvalue?, hanswer]
      · refine .inr ⟨?_, cause, ?_, hkind⟩
        · rw [hfits, Bool.and_eq_false_iff]
          by_cases htype : literal.type = field.type
          · exact .inr (by simpa using fun hop => hnot ⟨htype, hop⟩)
          · exact .inl (by simpa using Ne.symm htype)
        · simp only [satisfying, Predicate.column?, hok, bind, Except.bind, hcheck]
    · refine .inr ⟨by simp [Predicate.fits, Schema.type?, hlocate],
        .columnNotFound column table.name, ?_, rfl⟩
      simp only [satisfying, Predicate.column?, herr, bind, Except.bind]

end Table.Holds

/-! ## The rows that a mask means -/

namespace Mask

variable {α : Type}

theorem rows_eq (mask : Mask) :
    rows mask = mask.zipIdx.filterMap fun entry => if entry.1 then some entry.2 else none :=
  rfl

theorem rows_cons (meant : Bool) (mask : Mask) :
    rows (meant :: mask) = (if meant then [0] else []) ++ (rows mask).map (· + 1) := by
  rw [rows_eq, rows_eq, List.zipIdx_cons', List.filterMap_cons, List.filterMap_map,
    List.map_filterMap]
  have hstep : ∀ entry : Bool × Nat,
      ((fun entry : Bool × Nat => if entry.1 then some entry.2 else none) ∘
        Prod.map id (· + 1)) entry =
          Option.map (· + 1) (if entry.1 then some entry.2 else none) := by
    rintro ⟨b, i⟩
    cases b <;> rfl
  rw [List.filterMap_congr fun entry _ => hstep entry]
  cases meant <;> simp

theorem lt_of_mem_rows {mask : Mask} {row : Nat} (h : row ∈ mask.rows) : row < mask.length := by
  induction mask generalizing row with
  | nil => cases h
  | cons meant mask ih =>
    rw [rows_cons, List.mem_append] at h
    rcases h with h | h
    · cases meant <;> simp_all
    · obtain ⟨i, hi, rfl⟩ := List.mem_map.mp h
      have hlt := ih hi
      rw [List.length_cons]
      omega

/-- The meant rows of a list are its elements for which the mask was computed as true. -/
theorem map_getElem?_rows (p : α → Bool) (xs : List α) :
    (rows (xs.map p)).map (xs[·]?) = (xs.filter p).map some := by
  induction xs with
  | nil => rfl
  | cons x xs ih =>
    rw [List.map_cons, rows_cons, List.map_append, List.map_map]
    -- the positions behind the first element are counted from one on
    have hshift : ((fun row => (x :: xs)[row]?) ∘ (· + 1)) = fun row => xs[row]? := by
      funext row
      simp
    rw [hshift, ih, List.filter_cons]
    cases p x <;> simp

theorem length_rows_map (p : α → Bool) (xs : List α) :
    (rows (xs.map p)).length = xs.countP p := by
  have hlen := congrArg List.length (map_getElem?_rows p xs)
  simpa [List.countP_eq_length_filter] using hlen

/-- Leaving out the elements for which a mask was computed as true keeps the others. -/
theorem leave_map_self (p : α → Bool) (xs : List α) :
    leave (xs.map p) xs = xs.filter fun x => !p x := by
  induction xs with
  | nil => rfl
  | cons x xs ih =>
    unfold leave at ih ⊢
    rw [List.map_cons, List.zip_cons_cons, List.filterMap_cons, List.filter_cons, ih]
    cases p x <;> rfl

/-- Changing the meant rows one by one changes each of them. -/
theorem foldl_modify_rows {β : Type} (p : α → Bool) (f : α → β) (g : β → β) (xs : List α) :
    (rows (xs.map p)).foldl (fun ys row => ys.modify row g) (xs.map f) =
      xs.map fun x => if p x then g (f x) else f x := by
  -- what is done behind the first element leaves it as it is
  have hshift : ∀ (rows : List Nat) (y : β) (ys : List β),
      (rows.map (· + 1)).foldl (fun ys row => ys.modify row g) (y :: ys) =
        y :: rows.foldl (fun ys row => ys.modify row g) ys := by
    intro rows
    induction rows with
    | nil => intro y ys; rfl
    | cons row rows ih => intro y ys; simpa using ih y (ys.modify row g)
  induction xs with
  | nil => rfl
  | cons x xs ih =>
    rw [List.map_cons, List.map_cons, rows_cons, List.foldl_append, List.map_cons]
    cases hx : p x with
    | true => simp [hshift, ih]
    | false => simp [hshift, ih]

end Mask
end TableStore
