import Mathlib.Order.Defs.Unbundled
import TableStore.Proofs.Storage.Keys
import TableStore.Proofs.Storage.Refusals
import TableStore.Proofs.Text.Order

/-!
# Six comparisons, one order

The six comparisons are six ways of reading one answer: whether the one value is less than, equal to
or greater than the other. Two of them that say the opposite of each other do so of every two values
that can be compared at all, so they part the rows of a table between them.

* `Value.compare?` — how two integers or two texts stand to each other.
* `Comparison.negation` — the comparison that holds if another one does not.
* `Comparison.refuses_iff` — which values are not compared.
* `Comparison.isStrictTotalOrder_less` — the order of the integers, and that of the texts.
* `Table.Parted` — two conditions part the rows of a table; `Table.Holds.parted` says that a
  comparison and its negation do.
* `Table.Holds.deleted` — deleting by both leaves nothing.
* `Catalog.comparisons_part_rows` — all of this for every table that comes of requests.
* `Catalog.texts_in_code_point_order` — texts in conditions and the names of tables are in the order
  of their code points, which is that of their bytes.
-/

namespace TableStore

/-! ## How two values stand to each other -/

namespace Value

/-- How two integers or two texts stand to each other. Other values are not ordered. -/
def compare? : Value → Value → Option Ordering
  | .integer m, .integer n => some (compare m n)
  | .text s, .text t => some (compare s t)
  | _, _ => none

variable {left middle right : Value} {standing : Ordering}

/-- Integers stand somehow to integers, and texts to texts. -/
theorem exists_compare? (htype : left.type = right.type)
    (hordered : left.type = .integer ∨ left.type = .text) :
    ∃ standing, left.compare? right = some standing := by
  cases left with
  | integer m =>
    cases right with
    | integer n => exact ⟨_, rfl⟩
    | text | boolean => cases htype
  | text s =>
    cases right with
    | text t => exact ⟨_, rfl⟩
    | integer | boolean => cases htype
  | boolean a => rcases hordered with h | h <;> cases h

/-- No other values do. -/
theorem of_compare?_eq_some (h : left.compare? right = some standing) :
    (∃ m n, left = .integer m ∧ right = .integer n ∧ compare m n = standing) ∨
      ∃ s t, left = .text s ∧ right = .text t ∧ compare s t = standing := by
  cases left with
  | integer m =>
    cases right with
    | integer n => exact .inl ⟨m, n, rfl, rfl, Option.some.inj h⟩
    | text | boolean => cases h
  | text s =>
    cases right with
    | text t => exact .inr ⟨s, t, rfl, rfl, Option.some.inj h⟩
    | integer | boolean => cases h
  | boolean a => cases h

/-- Seen from the other side, values stand the other way round. -/
theorem compare?_swap (left right : Value) :
    right.compare? left = (left.compare? right).map Ordering.swap := by
  cases left <;> cases right <;>
    simp only [compare?, Option.map_some, Option.map_none, Option.some.injEq] <;>
    exact Std.OrientedOrd.eq_swap

/-- Only a value itself is neither less nor greater. -/
theorem eq_of_compare?_eq (h : left.compare? right = some .eq) : left = right := by
  obtain ⟨m, n, rfl, rfl, hcompare⟩ | ⟨s, t, rfl, rfl, hcompare⟩ := of_compare?_eq_some h
  · rw [Std.LawfulEqOrd.eq_of_compare hcompare]
  · rw [Std.LawfulEqOrd.eq_of_compare hcompare]

theorem compare?_self (h : left.compare? left = some standing) : standing = .eq := by
  obtain ⟨m, n, rfl, hsame, hcompare⟩ | ⟨s, t, rfl, hsame, hcompare⟩ := of_compare?_eq_some h
  · cases hsame
    exact hcompare.symm.trans Std.compare_self
  · cases hsame
    exact hcompare.symm.trans Std.compare_self

theorem compare?_lt_trans (hlm : left.compare? middle = some .lt)
    (hmr : middle.compare? right = some .lt) : left.compare? right = some .lt := by
  obtain ⟨l, m, rfl, rfl, hless⟩ | ⟨l, m, rfl, rfl, hless⟩ := of_compare?_eq_some hlm
  · obtain ⟨m', r, hmiddle, rfl, hless'⟩ | ⟨m', r, hmiddle, -⟩ := of_compare?_eq_some hmr
    · cases hmiddle
      exact congrArg some (Std.TransCmp.lt_trans hless hless')
    · cases hmiddle
  · obtain ⟨m', r, hmiddle, -⟩ | ⟨m', r, hmiddle, rfl, hless'⟩ := of_compare?_eq_some hmr
    · cases hmiddle
    · cases hmiddle
      exact congrArg some (Std.TransCmp.lt_trans hless hless')

end Value

/-! ## The laws of the six -/

namespace Comparison

/-- The comparison that holds if another one does not. -/
def negation : Comparison → Comparison
  | .equal => .notEqual
  | .notEqual => .equal
  | .less => .atLeast
  | .atLeast => .less
  | .greater => .atMost
  | .atMost => .greater

/-- Two values stand in the relation that a comparison asks for. -/
def Relates (op : Comparison) (left right : Value) : Prop :=
  op.holds left right = .ok true

variable {op : Comparison} {left right : Value} {answer : Bool}

/-- Values are not compared if their types differ, and truth values not by an order. -/
theorem refuses_iff :
    (∃ cause, op.holds left right = .error cause) ↔
      left.type ≠ right.type ∨
        (left.type = .boolean ∧ right.type = .boolean ∧
          op ∈ [less, greater, atMost, atLeast]) := by
  have hordering : op.isOrdering = true ↔ op ∈ [less, greater, atMost, atLeast] := by
    cases op <;> decide
  have hordered : right.type.isOrdered = false ↔ right.type = .boolean := by
    cases right.type <;> decide
  rw [← hordering]
  constructor
  · rintro ⟨cause, herr⟩
    by_cases htype : left.type = right.type
    · refine .inr ?_
      -- values of one type are compared unless an order is asked for that they do not have
      by_contra hnot
      have hop : (!op.isOrdering || right.type.isOrdered) = true := by
        rw [htype, ← hordered] at hnot
        cases hord : op.isOrdering <;> simp_all
      obtain ⟨answer, hok⟩ := op.exists_holds htype.symm hop
      cases hok.symm.trans herr
    · exact .inl htype
  · intro h
    refine op.exists_error ?_
    rintro ⟨htype, hop⟩
    rcases h with hne | ⟨-, hboolean, hord⟩
    · exact hne htype.symm
    · rw [hord, hordered.mpr hboolean] at hop
      cases hop

/-- Equality of values is the equality that tells primary keys apart. -/
theorem equal_holds (htype : left.type = right.type) :
    equal.holds left right = .ok (decide (left = right)) := by
  obtain ⟨answer, hanswer⟩ := equal.exists_holds htype.symm rfl
  have hsame : answer = true ↔ left = right := by
    rw [← holds_equal, hanswer, Except.ok.injEq]
  rw [hanswer, Bool.eq_iff_iff.mpr (hsame.trans decide_eq_true_iff.symm)]

theorem less_iff : less.Relates left right ↔ left.compare? right = some .lt := by
  unfold Relates
  cases left <;> cases right <;> simp [holds, Value.compare?, accepts]

theorem greater_iff : greater.Relates left right ↔ left.compare? right = some .gt := by
  unfold Relates
  cases left <;> cases right <;> simp [holds, Value.compare?, accepts]

/-- Greater is less the other way round. -/
theorem greater_iff_less : greater.Relates left right ↔ less.Relates right left := by
  rw [greater_iff, less_iff, Value.compare?_swap left right]
  rcases left.compare? right with _ | _ | _ | _ <;> simp

/-- Ordered values are compared by how they stand to each other. -/
theorem relates_iff {standing : Ordering} (h : left.compare? right = some standing) :
    op.Relates left right ↔ op.accepts standing = true := by
  unfold Relates
  obtain ⟨m, n, rfl, rfl, rfl⟩ | ⟨s, t, rfl, rfl, rfl⟩ := Value.of_compare?_eq_some h
  · rw [holds, Except.ok.injEq]
  · rw [holds, Except.ok.injEq]

/-- At most is less or equal, and at least is greater or equal. -/
theorem atMost_iff (htype : left.type = right.type)
    (hordered : left.type = .integer ∨ left.type = .text) :
    (atMost.Relates left right ↔ less.Relates left right ∨ equal.Relates left right) ∧
      (atLeast.Relates left right ↔ greater.Relates left right ∨ equal.Relates left right) := by
  -- all six depend on nothing but how the values stand to each other
  obtain ⟨standing, h⟩ := Value.exists_compare? htype hordered
  simp only [relates_iff h]
  cases standing <;> decide

/-- Less is a strict total order of the integers, and one of the texts. -/
theorem isStrictTotalOrder_less {type : ValueType} (hordered : type = .integer ∨ type = .text) :
    IsStrictTotalOrder { value : Value // value.type = type } fun left right =>
      less.Relates left.1 right.1 where
  trichotomous := by
    rintro ⟨left, hleft⟩ ⟨right, hright⟩ hnot hnot'
    obtain ⟨standing, h⟩ := Value.exists_compare? (hleft.trans hright.symm) (hleft ▸ hordered)
    rw [less_iff, h] at hnot
    rw [← greater_iff_less, greater_iff, h] at hnot'
    -- what is neither less nor greater is the same
    cases standing with
    | eq => exact Subtype.ext (Value.eq_of_compare?_eq h)
    | lt => exact absurd rfl hnot
    | gt => exact absurd rfl hnot'
  irrefl := by
    intro value hless
    cases Value.compare?_self (less_iff.mp hless)
  trans := by
    intro left middle right hlm hmr
    exact less_iff.mpr (Value.compare?_lt_trans (less_iff.mp hlm) (less_iff.mp hmr))

theorem accepts_negation (op : Comparison) (standing : Ordering) :
    op.negation.accepts standing = !op.accepts standing := by
  cases op <;> cases standing <;> rfl

theorem isOrdering_negation (op : Comparison) : op.negation.isOrdering = op.isOrdering := by
  cases op <;> rfl

theorem negation_negation (op : Comparison) : op.negation.negation = op := by
  cases op <;> rfl

theorem holds_negation_of_holds (h : op.holds left right = .ok answer) :
    op.negation.holds left right = .ok (!answer) := by
  cases left <;> cases right <;> simp only [holds, reduceCtorEq, Except.ok.injEq] at h ⊢
  · rw [accepts_negation, h]
  · rw [accepts_negation, h]
  · -- truth values are only equal or different
    cases op <;> cases h <;> simp [negation, bne]

/-- A comparison and its negation have an answer for the same values, and opposite answers. -/
theorem holds_negation :
    op.negation.holds left right = .ok (!answer) ↔ op.holds left right = .ok answer := by
  -- the negation of the negation is the comparison itself
  refine ⟨fun h => ?_, holds_negation_of_holds⟩
  have hagain := holds_negation_of_holds h
  rwa [negation_negation, Bool.not_not] at hagain

end Comparison

/-! ## Conditions that part the rows -/

namespace Predicate

variable {schema : Schema} {row : List Value} {column : String} {op : Comparison}
  {literal value : Value}

/-- A literal passes the check for a comparison exactly if it does for the negation. -/
theorem check_negation (column : String) (op : Comparison) (literal : Value) (field : Field) :
    (Predicate.test column op.negation literal).check field = .ok () ↔
      (Predicate.test column op literal).check field = .ok () := by
  unfold check
  simp only [op.isOrdering_negation]
  -- what is complained of may differ, but not that something is
  split
  · exact iff_of_false nofun nofun
  · split
    · exact iff_of_false nofun nofun
    · exact Iff.rfl

/-- On a row whose value can be compared with the literal, the negation says the opposite. -/
theorem holds_negation (hvalue : schema.value? column row = some value)
    (htype : literal.type = value.type)
    (hop : (!op.isOrdering || literal.type.isOrdered) = true) :
    (Predicate.test column op.negation literal).holds schema row =
      !(Predicate.test column op literal).holds schema row := by
  obtain ⟨answer, hanswer⟩ := op.exists_holds htype hop
  simp only [holds, hvalue, hanswer, Comparison.holds_negation_of_holds hanswer]

end Predicate

namespace Table

variable {table : Table} {rows : List (List Value)} {column : String} {op : Comparison}
  {literal : Value}

theorem admits_negation :
    table.admits (.test column op.negation literal) = .ok () ↔
      table.admits (.test column op literal) = .ok () := by
  simp only [admits, Predicate.column?, bind, Except.bind]
  cases table.locate column with
  | error cause => exact Iff.rfl
  | ok located => exact Predicate.check_negation column op literal located.1

/-- Two conditions part the rows of a table: the mask of the one is the mask of the rows that the other
one does not mean. So each row, with the columns of any projection, is selected by one of them, and
among those that are selected with it the order is that of all rows. -/
structure Parted (table : Table) (mask : Mask) (condition other : Predicate) : Prop where
  length_eq : mask.length = table.rowCount
  satisfying_eq : table.satisfying condition = .ok mask
  satisfying_other : table.satisfying other = .ok mask.others
  select_eq : ∀ projection : Projection, projection.fits table.schema = true →
    ∃ rows, table.select projection .always = .ok rows ∧ rows.length = table.rowCount ∧
      table.select projection condition = .ok (mask.others.leave rows) ∧
      table.select projection other = .ok (mask.leave rows)

namespace Holds

/-- A condition that the table admits is opposite to its negation on each row. -/
theorem holds_negation (h : table.Holds rows)
    (hadmits : table.admits (.test column op literal) = .ok ()) {row : List Value}
    (hrow : row ∈ rows) :
    (Predicate.test column op.negation literal).holds table.schema row =
      !(Predicate.test column op literal).holds table.schema row := by
  have hfits := fits_of_admits hadmits
  simp only [Predicate.fits, Schema.type?, Bool.and_eq_true, beq_iff_eq,
    Option.map_eq_some_iff] at hfits
  obtain ⟨⟨⟨field, position⟩, hlocate, htype⟩, hop⟩ := hfits
  -- the row has a value in the column, and of its type
  obtain ⟨value, hvalue, hvtype⟩ := h.stored.exists_value hrow (Schema.locate?_eq_some hlocate).1
  refine Predicate.holds_negation ?_ (htype.symm.trans hvtype.symm) hop
  rw [Schema.value?, Schema.position?, hlocate, Option.map_some, Option.bind_some, hvalue]

theorem satisfying_ok (h : table.Holds rows) {condition : Predicate}
    (hfits : condition.fits table.schema = true) :
    table.satisfying condition =
      .ok (rows.map fun row => condition.holds table.schema row) := by
  rcases h.satisfying_eq condition with ⟨-, hok⟩ | ⟨hnot, -⟩
  · exact hok
  · cases hfits.symm.trans hnot

theorem delete_ok (h : table.Holds rows) {condition : Predicate}
    (hfits : condition.fits table.schema = true) :
    ∃ after, table.delete condition =
        .ok (rows.countP fun row => condition.holds table.schema row) after ∧
      after.name = table.name ∧ after.schema = table.schema ∧
      after.Holds (rows.filter fun row => !condition.holds table.schema row) := by
  rcases h.delete_eq condition with ⟨-, hok⟩ | ⟨hnot, -⟩
  · exact hok
  · cases hfits.symm.trans hnot

/-- A comparison and its negation part the rows. -/
theorem parted (h : table.Holds rows)
    (hadmits : table.admits (.test column op literal) = .ok ()) :
    ∃ mask, table.Parted mask (.test column op literal) (.test column op.negation literal) := by
  have hfits := fits_of_admits hadmits
  have hfits' := fits_of_admits (admits_negation.mpr hadmits)
  -- the mask is the one of the comparison; row by row, the negation says the opposite
  let meant (row : List Value) : Bool := (Predicate.test column op literal).holds table.schema row
  have hopposite : (rows.map fun row =>
      (Predicate.test column op.negation literal).holds table.schema row) =
        Mask.others (rows.map meant) := by
    rw [Mask.others, List.map_map]
    exact List.map_congr_left fun row hrow => h.holds_negation hadmits hrow
  refine ⟨rows.map meant, ?_, h.satisfying_ok hfits, ?_, fun projection hprojection => ?_⟩
  · rw [List.length_map, h.count]
  · rw [h.satisfying_ok hfits', hopposite]
  · refine ⟨rows.map (table.schema.collect · projection), ?_, ?_, ?_, ?_⟩
    · rw [h.select_ok hprojection rfl]
      simp [Predicate.holds]
    · rw [List.length_map, h.count]
    · rw [h.select_ok hprojection hfits, Mask.leave_map, Mask.others, List.map_map,
        Mask.leave_map_self]
      simp only [Function.comp_apply, Bool.not_not, meant]
    · rw [h.select_ok hprojection hfits', Mask.leave_map, Mask.leave_map_self,
        List.filter_congr fun row hrow => h.holds_negation hadmits hrow]

/-- Deleting by a comparison and then by its negation leaves no row, and the counts add up. -/
theorem deleted (h : table.Holds rows)
    (hadmits : table.admits (.test column op literal) = .ok ()) :
    ∃ first between second, table.delete (.test column op literal) = .ok first between ∧
      between.delete (.test column op.negation literal) =
        .ok second (Table.empty table.name table.schema) ∧
      first + second = table.rowCount := by
  let meant (row : List Value) : Bool := (Predicate.test column op literal).holds table.schema row
  obtain ⟨between, hfirst, hname, hschema, hbetween⟩ := h.delete_ok (fits_of_admits hadmits)
  have hfits := fits_of_admits (admits_negation.mpr hadmits)
  rw [← hschema] at hfits
  obtain ⟨last, hsecond, hname', hschema', hlast⟩ := hbetween.delete_ok hfits
  -- the negation holds of all the rows that the first deletion keeps
  have hall : ∀ row ∈ rows.filter fun row => !meant row,
      (Predicate.test column op.negation literal).holds between.schema row = true := by
    intro row hrow
    obtain ⟨hmem, hnot⟩ := List.mem_filter.mp hrow
    rw [hschema, h.holds_negation hadmits hmem]
    exact hnot
  have hnone : ((rows.filter fun row => !meant row).filter fun row =>
      !(Predicate.test column op.negation literal).holds between.schema row) = [] := by
    rw [List.filter_eq_nil_iff]
    intro row hrow
    rw [hall row hrow]
    decide
  rw [hnone] at hlast
  obtain rfl : last = Table.empty table.name table.schema :=
    hlast.unique (holds_empty _ _) (hname'.trans hname) (hschema'.trans hschema)
  refine ⟨_, between, _, hfirst, hsecond, ?_⟩
  -- the first deletion counts the rows it means, and the second one all the others
  rw [List.countP_eq_length.mpr hall, h.count, ← List.countP_eq_length_filter,
    List.length_eq_countP_add_countP meant]
  simp only [Bool.not_eq_true, Bool.decide_eq_false, meant]

end Holds

end Table

namespace Catalog

/-- Values are not compared if their types differ, and truth values not by an order. Otherwise equality
is equality; less is a strict total order of the integers and one of the texts, greater is less the
other way round, at most and at least are unions with equality, and a comparison and its negation are
opposite. So in every table that comes of requests, they part the rows if a literal is admitted, and
deleting by both leaves nothing. -/
theorem comparisons_part_rows :
    (∀ (op : Comparison) (left right : Value), (∃ cause, op.holds left right = .error cause) ↔
      left.type ≠ right.type ∨
        (left.type = .boolean ∧ right.type = .boolean ∧
          op ∈ [.less, .greater, .atMost, .atLeast])) ∧
    (∀ left right : Value, left.type = right.type →
      Comparison.equal.holds left right = .ok (decide (left = right))) ∧
    (∀ type : ValueType, type = .integer ∨ type = .text →
      IsStrictTotalOrder { value : Value // value.type = type } fun left right =>
        Comparison.less.Relates left.1 right.1) ∧
    (∀ left right : Value,
      Comparison.greater.Relates left right ↔ Comparison.less.Relates right left) ∧
    (∀ left right : Value, left.type = right.type → left.type = .integer ∨ left.type = .text →
      (Comparison.atMost.Relates left right ↔
        Comparison.less.Relates left right ∨ Comparison.equal.Relates left right) ∧
      (Comparison.atLeast.Relates left right ↔
        Comparison.greater.Relates left right ∨ Comparison.equal.Relates left right)) ∧
    (∀ (op : Comparison) (left right : Value) (answer : Bool),
      op.negation.holds left right = .ok (!answer) ↔ op.holds left right = .ok answer) ∧
    ∀ (name : String) (commands : List Command), ∀ table ∈ ((empty name).run commands).tables,
      ∀ (column : String) (op : Comparison) (literal : Value),
        table.admits (.test column op literal) = .ok () →
          table.admits (.test column op.negation literal) = .ok () ∧
          (∃ mask,
            table.Parted mask (.test column op literal) (.test column op.negation literal)) ∧
          ∃ first between second,
            table.delete (.test column op literal) = .ok first between ∧
            between.delete (.test column op.negation literal) =
              .ok second (Table.empty table.name table.schema) ∧
            first + second = table.rowCount := by
  refine ⟨fun op left right => Comparison.refuses_iff,
    fun left right htype => Comparison.equal_holds htype,
    fun type hordered => Comparison.isStrictTotalOrder_less hordered,
    fun left right => Comparison.greater_iff_less,
    fun left right htype hordered => Comparison.atMost_iff htype hordered,
    fun op left right answer => Comparison.holds_negation,
    fun name commands table htable column op literal hadmits => ?_⟩
  obtain ⟨rows, hrows⟩ := (sound_run name commands).tables table htable
  exact ⟨Table.admits_negation.mpr hadmits, hrows.holds.parted hadmits,
    hrows.holds.deleted hadmits⟩

/-- Three rows, one of them with a number less than 2. -/
theorem comparisons_part_rows_numbers :
    let schema : Schema := ⟨[⟨"id", .integer⟩, ⟨"name", .text⟩], some "id"⟩
    let catalog := (empty "main").run
      [.create "t" schema,
       .call "t" (.insert none [[.integer 2, .text "b"], [.integer 1, .text "a"],
         [.integer 3, .text "c"]])]
    let early : Predicate := .test "id" .less (.integer 2)
    let late : Predicate := .test "id" .atLeast (.integer 2)
    ∃ table ∈ catalog.tables, table.admits early = .ok () ∧ table.admits late = .ok () ∧
      table.Parted [false, true, false] early late ∧
      ∃ first between second, table.delete early = .ok first between ∧
        between.delete late = .ok second (Table.empty "t" schema) ∧ first + second = 3 := by
  intro schema catalog early late
  obtain ⟨table, htables, hadmits, hmask, hname, hschema, hcount⟩ :
      ∃ table, catalog.tables = [table] ∧ table.admits early = .ok () ∧
        table.satisfying early = .ok [false, true, false] ∧ table.name = "t" ∧
        table.schema = schema ∧ table.rowCount = 3 :=
    ⟨_, rfl, rfl, rfl, rfl, rfl, rfl⟩
  have htable : table ∈ catalog.tables := by
    rw [htables]
    exact List.mem_singleton_self table
  obtain ⟨-, -, -, -, -, -, htables'⟩ := comparisons_part_rows
  obtain ⟨hlate, ⟨mask, hparted⟩, hdeleted⟩ := htables' "main" _ table htable _ _ _ hadmits
  cases hparted.satisfying_eq.symm.trans hmask
  rw [hname, hschema, hcount] at hdeleted
  exact ⟨table, htable, hadmits, hlate, hparted, hdeleted⟩

/-- The order of texts is that of their code points, which is the order of their bytes. Conditions on
texts ask for it, and it is the order in which the names of tables stand in every catalog that comes of
requests. -/
theorem texts_in_code_point_order :
    (∀ s t : String, compare (Utf8.codePoints s) (Utf8.codePoints t) =
      compare (Utf8.bytes s) (Utf8.bytes t)) ∧
    (∀ s t : String,
      let order := compare (Utf8.codePoints s) (Utf8.codePoints t)
      Comparison.equal.holds (.text s) (.text t) = .ok (order == .eq) ∧
      Comparison.notEqual.holds (.text s) (.text t) = .ok (order != .eq) ∧
      Comparison.less.holds (.text s) (.text t) = .ok (order == .lt) ∧
      Comparison.greater.holds (.text s) (.text t) = .ok (order == .gt) ∧
      Comparison.atMost.holds (.text s) (.text t) = .ok (order != .gt) ∧
      Comparison.atLeast.holds (.text s) (.text t) = .ok (order != .lt)) ∧
    ∀ (name : String) (commands : List Command),
      ((empty name).run commands).tableNames.Pairwise fun a b =>
        compare (Utf8.codePoints a) (Utf8.codePoints b) = .lt ∧
          compare (Utf8.bytes a) (Utf8.bytes b) = .lt := by
  refine ⟨Utf8.compare_codePoints, fun s t => ?_, fun name commands => ?_⟩
  · rw [← Utf8.compare_eq_compare_codePoints]
    exact ⟨rfl, rfl, rfl, rfl, rfl, rfl⟩
  · refine List.pairwise_map.mpr ((sound_run name commands).ordered.imp fun {a b} hlt => ?_)
    rw [← Utf8.compare_codePoints, ← Utf8.compare_eq_compare_codePoints, and_self]
    exact compareOfLessAndEq_eq_lt.mpr hlt

end Catalog

end TableStore
