import TableStore.Proofs.Data.Lookup
import TableStore.Proofs.Storage.Rebuild

/-!
# The order in which columns are named

An insertion may name the columns in any order. What counts is which value is given for which column:
a tuple is told by the pairs of a position and the value that goes there, and the order of these pairs
does not matter, neither to the check of the types nor to the row that is made of them.

* `rearranged` — the values of a tuple in another order of the columns.
* `Schema.exists_order?_iff` — a list of columns is resolved exactly if it is a permutation of the
  schema's columns.
* `Table.insert_same` — tuples with the same pairs of positions and values are inserted alike.
* `Table.column_order_free` — a table stores the same rows in whatever order the columns are named.
-/

namespace TableStore

/-! ## What a list is sent to -/

section

variable {α β : Type}

theorem zip_filterMap {f : α → Option β} {xs : List α} (h : ∀ x ∈ xs, ∃ y, f x = some y) :
    xs.zip (xs.filterMap f) = xs.filterMap fun x => (f x).map (x, ·) := by
  induction xs with
  | nil => rfl
  | cons x xs ih =>
    obtain ⟨⟨y, hy⟩, hrest⟩ := List.forall_mem_cons.mp h
    rw [List.filterMap_cons_some hy, List.zip_cons_cons, ih hrest,
      List.filterMap_cons_some (by rw [hy, Option.map_some])]

/-- What all elements are sent to, one after the other. -/
theorem filterMap_eq_of_forall₂ {f : α → Option β} {xs : List α} {ys : List β}
    (h : List.Forall₂ (fun x y => f x = some y) xs ys) : xs.filterMap f = ys := by
  induction h with
  | nil => rfl
  | cons hstep _ ih => rw [List.filterMap_cons_some hstep, ih]

theorem map_eq_map_of_forall₂ {γ : Type} {f : α → γ} {g : β → γ} {xs : List α} {ys : List β}
    (h : List.Forall₂ (fun x y => f x = g y) xs ys) : xs.map f = ys.map g := by
  rw [← List.forall₂_eq_eq_eq, List.forall₂_map_left_iff, List.forall₂_map_right_iff]
  exact h

end

/-! ## Tuples in another order -/

/-- The values of a tuple that goes with `names`, in the order of `others`. -/
def rearranged (names others : List String) (tuple : List Value) : List Value :=
  others.filterMap fun name => (names.zip tuple).lookup name

section

variable {names others : List String} {tuple : List Value}

theorem exists_lookup_zip (hperm : names.Perm others) (hlen : tuple.length = names.length) :
    ∀ name ∈ others, ∃ value, (names.zip tuple).lookup name = some value := by
  intro name hname
  have hkeys : (names.zip tuple).map Prod.fst = names := List.map_fst_zip (by omega)
  rw [← hperm.mem_iff, ← hkeys] at hname
  obtain ⟨entry, hmem, rfl⟩ := List.mem_map.mp hname
  rw [← Option.isSome_iff_exists, List.lookup_isSome_iff]
  exact ⟨entry, hmem, beq_self_eq_true entry.1⟩

theorem length_rearranged (hperm : names.Perm others) (hlen : tuple.length = names.length) :
    (rearranged names others tuple).length = others.length := by
  rw [rearranged, List.filterMap_length_eq_length]
  exact fun name hname => Option.isSome_iff_exists.mpr (exists_lookup_zip hperm hlen name hname)

/-- Beside the names in the other order, a tuple has its values under the same names as before. -/
theorem perm_zip_rearranged (hperm : names.Perm others) (hnodup : names.Nodup)
    (hlen : tuple.length = names.length) :
    (names.zip tuple).Perm (others.zip (rearranged names others tuple)) := by
  have hkeys : (names.zip tuple).map Prod.fst = names := List.map_fst_zip (by omega)
  have hentries := filterMap_lookup (hkeys.symm ▸ hnodup : ((names.zip tuple).map Prod.fst).Nodup)
  rw [hkeys] at hentries
  rw [rearranged, zip_filterMap (exists_lookup_zip hperm hlen)]
  conv_lhs => rw [← hentries]
  exact hperm.filterMap _

end

/-! ## Columns by position -/

namespace Schema

variable {schema : Schema} {names others : List String} {order : List Nat}

theorem order?_some_iff :
    schema.order? (some names) = some order ↔
      List.Forall₂ (fun name position => schema.position? name = some position) names order ∧
        order.Perm (List.range schema.fields.length) := by
  rw [order?, Option.filter_eq_some_iff, mapM_some_iff, List.isPerm_iff]

/-- If the names of the columns differ, then they are found one after the other. -/
theorem forall₂_columnNames (hnodup : schema.columnNames.Nodup) :
    List.Forall₂ (fun name position => schema.position? name = some position)
      schema.columnNames (List.range schema.fields.length) := by
  rw [List.forall₂_iff_get]
  refine ⟨by simp [columnNames], fun i hi hi' => ?_⟩
  simpa using position?_of_nodup hnodup (List.getElem?_eq_getElem hi)

/-- A list of columns is resolved exactly if it is a permutation of the columns. -/
theorem exists_order?_iff (hnodup : schema.columnNames.Nodup) :
    (∃ order, schema.order? (some names) = some order) ↔ names.Perm schema.columnNames := by
  have hall := filterMap_eq_of_forall₂ (forall₂_columnNames hnodup)
  constructor
  · rintro ⟨order, horder⟩
    obtain ⟨hnames, hperm⟩ := order?_some_iff.mp horder
    -- the names stand at the positions, and these are all positions in some order
    have hback : order.filterMap (schema.columnNames[·]?) = names :=
      filterMap_eq_of_forall₂ (hnames.flip.imp fun _ _ => getElem?_columnNames)
    have hschema : (List.range schema.fields.length).filterMap (schema.columnNames[·]?) =
        schema.columnNames :=
      filterMap_eq_of_forall₂ ((forall₂_columnNames hnodup).flip.imp fun _ _ => getElem?_columnNames)
    rw [← hback]
    conv_rhs => rw [← hschema]
    exact hperm.filterMap _
  · intro hperm
    obtain ⟨order, horder⟩ : ∃ order, List.Forall₂
        (fun name position => schema.position? name = some position) names order :=
      exists_forall₂ fun name hname => exists_position? (hperm.mem_iff.mp hname)
    refine ⟨order, order?_some_iff.mpr ⟨horder, ?_⟩⟩
    rw [← filterMap_eq_of_forall₂ horder, ← hall]
    exact hperm.filterMap _

/-- The positions of names, beside the values that go with the names. -/
theorem zip_order {tuple : List Value}
    (h : List.Forall₂ (fun name position => schema.position? name = some position) names order) :
    order.zip tuple = (names.zip tuple).filterMap fun entry =>
      (schema.position? entry.1).map (·, entry.2) := by
  induction h generalizing tuple with
  | nil => rfl
  | @cons name position names order hposition _ ih =>
    cases tuple with
    | nil => rfl
    | cons value tuple =>
      rw [List.zip_cons_cons, List.zip_cons_cons, List.filterMap_cons_some (b := (position, value))
        (by rw [hposition, Option.map_some]), ih]

/-- Whether a tuple has the types of its columns is told by each of its values with its position. -/
theorem accepts_iff (horder : ∀ position ∈ order, position < schema.fields.length)
    {tuple : List Value} (hlen : tuple.length = order.length) :
    schema.accepts order tuple = true ↔
      ∀ entry ∈ order.zip tuple, (schema.fields[entry.1]?).map Field.type = some entry.2.type := by
  rw [accepts, beq_iff_eq]
  induction order generalizing tuple with
  | nil =>
    obtain rfl : tuple = [] := List.length_eq_zero_iff.mp hlen
    simp
  | cons position order ih =>
    obtain ⟨value, tuple, rfl⟩ := List.exists_cons_of_length_eq_add_one hlen
    obtain ⟨hfirst, hrest⟩ := List.forall_mem_cons.mp horder
    have hfield : (schema.fields[position]?).map Field.type = some schema.fields[position].type := by
      rw [List.getElem?_eq_getElem hfirst, Option.map_some]
    have hlater : tuple.length = order.length := by simpa using hlen
    have htypes := ih hrest hlater
    simp only [List.map_cons, List.filterMap_cons, hfield, List.cons.injEq, htypes,
      List.zip_cons_cons, List.forall_mem_cons, Option.some.injEq]
    rw [eq_comm]

end Schema

/-! ## Tuples with the same pairs -/

section

variable {schema : Schema} {order order' : List Nat} {tuple tuple' : List Value}

/-- The same values go to the same positions, which are all positions of the schema in some order. -/
structure SamePairs (schema : Schema) (order order' : List Nat) (tuple tuple' : List Value) :
    Prop where
  all : order.Perm (List.range schema.fields.length)
  all' : order'.Perm (List.range schema.fields.length)
  arity : tuple.length = order.length
  arity' : tuple'.length = order'.length
  pairs : (order.zip tuple).Perm (order'.zip tuple')

namespace SamePairs

theorem accepts_eq (h : SamePairs schema order order' tuple tuple') :
    schema.accepts order tuple = schema.accepts order' tuple' := by
  have hlt : ∀ position ∈ order, position < schema.fields.length := fun position hposition =>
    List.mem_range.mp (h.all.mem_iff.mp hposition)
  have hlt' : ∀ position ∈ order', position < schema.fields.length := fun position hposition =>
    List.mem_range.mp (h.all'.mem_iff.mp hposition)
  rw [Bool.eq_iff_iff, Schema.accepts_iff hlt h.arity, Schema.accepts_iff hlt' h.arity']
  exact forall_congr' fun entry => by rw [h.pairs.mem_iff]

theorem arranged_eq (h : SamePairs schema order order' tuple tuple') :
    arranged order tuple = arranged order' tuple' := by
  have hkeys : ((order.zip tuple).map Prod.fst).Nodup := by
    rw [List.map_fst_zip h.arity.ge, h.all.nodup_iff]
    exact List.nodup_range
  have hlength : order.length = order'.length := h.all.length_eq.trans h.all'.length_eq.symm
  unfold arranged
  rw [hlength]
  exact List.filterMap_congr fun position _ => lookup_eq_of_perm h.pairs hkeys position

/-- A tuple and its rearrangement give the same values to the same columns. -/
theorem of_rearranged {names others : List String} (hperm : names.Perm others) (hnodup : names.Nodup)
    (horder : List.Forall₂ (fun name position => schema.position? name = some position) names order)
    (horder' : List.Forall₂ (fun name position => schema.position? name = some position)
      others order')
    (hall : order.Perm (List.range schema.fields.length))
    (hall' : order'.Perm (List.range schema.fields.length)) (hlen : tuple.length = names.length) :
    SamePairs schema order order' tuple (rearranged names others tuple) where
  all := hall
  all' := hall'
  arity := hlen.trans horder.length_eq
  arity' := (length_rearranged hperm hlen).trans horder'.length_eq
  pairs := by
    rw [Schema.zip_order horder, Schema.zip_order horder']
    exact (perm_zip_rearranged hperm hnodup hlen).filterMap _

end SamePairs

end

/-! ## Insertions -/

namespace Table

/-- Two changes come to the same: the answers or the kinds of the failures are the same, and so are
the tables afterwards. -/
def Change.Same {α : Type} (a b : Change α) : Prop :=
  a.answer.mapError Error.kind = b.answer.mapError Error.kind ∧ a.after = b.after

variable {table : Table} {columns columns' : Option (List String)} {order order' : List Nat}

theorem exists_targets (horder : table.schema.order? columns = some order) :
    ∃ targets, table.targets columns = .ok targets ∧ targets.map (·.2) = order ∧
      order.Perm (List.range table.schema.fields.length) ∧
      ∀ target ∈ targets, table.schema.fields[target.2]? = some target.1 := by
  rcases table.targets_eq columns with ⟨targets, hok, htargets, hperm, hat⟩ | ⟨hnone, -⟩
  · obtain rfl : targets.map (·.2) = order := Option.some.inj (htargets.symm.trans horder)
    exact ⟨targets, hok, rfl, hperm, hat⟩
  · rw [hnone] at horder
    cases horder

/-- Tuples in which the same values go to the same positions are inserted alike. -/
theorem insert_same (horder : table.schema.order? columns = some order)
    (horder' : table.schema.order? columns' = some order') {tuples tuples' : List (List Value)}
    (htuples : List.Forall₂ (SamePairs table.schema order order') tuples tuples') :
    (table.insert columns tuples).Same (table.insert columns' tuples') := by
  obtain ⟨targets, hok, rfl, hperm, hat⟩ := exists_targets horder
  obtain ⟨targets', hok', rfl, hperm', hat'⟩ := exists_targets horder'
  have haccepts : tuples.map (table.schema.accepts (targets.map (·.2))) =
      tuples'.map (table.schema.accepts (targets'.map (·.2))) :=
    map_eq_map_of_forall₂ (htuples.imp fun _ _ => SamePairs.accepts_eq)
  have hrows : tuples.map (arranged (targets.map (·.2))) =
      tuples'.map (arranged (targets'.map (·.2))) :=
    map_eq_map_of_forall₂ (htuples.imp fun _ _ => SamePairs.arranged_eq)
  have hall := congrArg (List.all · id) haccepts
  simp only [List.all_map, Function.id_comp] at hall
  unfold insert
  rcases table.mapM_arrange_eq hperm hat tuples with
    ⟨haccepted, harranged, -⟩ | ⟨hrefused, cause, herr, hkind⟩
  · rcases table.mapM_arrange_eq hperm' hat' tuples' with ⟨-, harranged', -⟩ | ⟨hrefused', -⟩
    · -- the rows are the same, and nothing else of the tuples is looked at any more
      simp only [hok, hok', harranged, harranged', hrows, bind, Except.bind]
      exact ⟨rfl, rfl⟩
    · rw [← hall, haccepted] at hrefused'
      cases hrefused'
  · rcases table.mapM_arrange_eq hperm' hat' tuples' with
      ⟨haccepted', -⟩ | ⟨-, cause', herr', hkind'⟩
    · rw [← hall, hrefused] at haccepted'
      cases haccepted'
    · simp only [hok, hok', herr, herr', bind, Except.bind]
      exact ⟨congrArg Except.error (hkind.trans hkind'.symm), rfl⟩

/-- If the columns are not resolved, then nothing is inserted. -/
theorem insert_refused (hnone : table.schema.order? columns = none) (tuples : List (List Value)) :
    ∃ cause, table.insert columns tuples = .error cause table ∧ cause.kind = .schema := by
  rcases table.targets_eq columns with ⟨targets, -, horder, -⟩ | ⟨-, cause, herr, hkind⟩
  · rw [hnone] at horder
    cases horder
  · exact ⟨cause, by simp only [insert, herr, bind, Except.bind], hkind⟩

/-- A table under a schema of different columns resolves a list of columns exactly if it is a
permutation of them; any other list is refused with whatever tuples. Tuples that go with a permutation
come to the same as the tuples rearranged into schema order and inserted without a list, and as the
tuples rearranged into the order of any other permutation and inserted with that one: the number of
inserted rows or the kind of the failure is the same, and so is the table. -/
theorem column_order_free (table : Table)
    (haccepted : Schema.make table.schema.fields table.schema.primaryKey = .ok table.schema)
    (names : List String) :
    ((∃ targets, table.targets (some names) = .ok targets) ↔
      names.Perm table.schema.columnNames) ∧
    (¬names.Perm table.schema.columnNames → ∀ tuples, ∃ cause,
      table.insert (some names) tuples = .error cause table ∧ cause.kind = .schema) ∧
    (names.Perm table.schema.columnNames → ∀ tuples,
      (∀ tuple ∈ tuples, tuple.length = names.length) →
      (table.insert (some names) tuples).Same
        (table.insert none (tuples.map (rearranged names table.schema.columnNames))) ∧
      ∀ others, others.Perm table.schema.columnNames →
        (table.insert (some names) tuples).Same
          (table.insert (some others) (tuples.map (rearranged names others)))) := by
  have hnodup : table.schema.columnNames.Nodup := (Schema.make_ok_iff.mp haccepted).2.1
  have hresolved : (∃ order, table.schema.order? (some names) = some order) ↔
      names.Perm table.schema.columnNames := Schema.exists_order?_iff hnodup
  refine ⟨⟨?_, ?_⟩, ?_, ?_⟩
  · rintro ⟨targets, hok⟩
    rcases table.targets_eq (some names) with ⟨_, -, horder, -⟩ | ⟨-, cause, herr, -⟩
    · exact hresolved.mp ⟨_, horder⟩
    · cases herr.symm.trans hok
  · intro hperm
    obtain ⟨order, horder⟩ := hresolved.mpr hperm
    obtain ⟨targets, hok, -⟩ := exists_targets horder
    exact ⟨targets, hok⟩
  · intro hnot
    refine insert_refused (Option.eq_none_iff_forall_ne_some.mpr fun order horder => ?_)
    exact hnot (hresolved.mp ⟨order, horder⟩)
  · intro hperm tuples hlen
    obtain ⟨order, horder⟩ := hresolved.mpr hperm
    obtain ⟨hpositions, hall⟩ := Schema.order?_some_iff.mp horder
    have hdiffer : names.Nodup := hperm.nodup_iff.mpr hnodup
    constructor
    · refine insert_same horder rfl (List.forall₂_map_right_iff.mpr (List.forall₂_same.mpr ?_))
      intro tuple htuple
      exact .of_rearranged hperm hdiffer hpositions (Schema.forall₂_columnNames hnodup) hall (.refl _)
        (hlen tuple htuple)
    · intro others hothers
      obtain ⟨order', horder'⟩ := (Schema.exists_order?_iff hnodup).mpr hothers
      obtain ⟨hpositions', hall'⟩ := Schema.order?_some_iff.mp horder'
      refine insert_same horder horder' (List.forall₂_map_right_iff.mpr (List.forall₂_same.mpr ?_))
      intro tuple htuple
      exact .of_rearranged (hperm.trans hothers.symm) hdiffer hpositions hpositions' hall hall'
        (hlen tuple htuple)

/-- Two rows under a schema with two columns of one type, named back to front. -/
theorem column_order_free_reversed :
    let schema : Schema := ⟨[⟨"id", .integer⟩, ⟨"age", .integer⟩, ⟨"name", .text⟩], some "id"⟩
    let table := ((empty "people" schema).insert none
      [[.integer 1, .integer 30, .text "a"]]).after
    let tuples : List (List Value) :=
      [[.text "b", .integer 40, .integer 2], [.text "c", .integer 50, .integer 3]]
    (∃ targets, table.targets (some ["name", "age", "id"]) = .ok targets) ∧
      (∃ cause, table.insert (some ["name", "id"]) tuples = .error cause table) ∧
      (table.insert (some ["name", "age", "id"]) tuples).Same
        (table.insert none
          [[.integer 2, .integer 40, .text "b"], [.integer 3, .integer 50, .text "c"]]) ∧
      (table.insert (some ["name", "age", "id"]) tuples).Same
        (table.insert (some ["age", "name", "id"])
          [[.integer 40, .text "b", .integer 2], [.integer 50, .text "c", .integer 3]]) := by
  intro schema table tuples
  obtain ⟨hresolved, -, hsame⟩ := column_order_free table rfl ["name", "age", "id"]
  obtain ⟨-, hrefused, -⟩ := column_order_free table rfl ["name", "id"]
  have hperm : ["name", "age", "id"].Perm table.schema.columnNames := by decide
  obtain ⟨hnone, hothers⟩ := hsame hperm tuples (by decide)
  obtain ⟨cause, herr, -⟩ := hrefused (by decide) tuples
  exact ⟨hresolved.mpr hperm, ⟨cause, herr⟩, hnone, hothers ["age", "name", "id"] (by decide)⟩

end Table

end TableStore
