import TableStore.Storage.Column

/-!
# A column behaves as the list of its values

A column of each type stores its values in an array of its own kind. Whoever pushes, reads, replaces
and takes out values sees none of this: step by step a column does what a plain list of values does,
however often it is used and whatever it is asked for. The invariant is that the column stands for the
list; a column without rows stands for the empty one, and each step keeps it.

* `Column.Step`, `Column.perform`, `Column.after` — the steps, what comes of one, and any number of them.
* `ValueList` — a list of values that takes the same steps; `ValueList.refusal?` says which it refuses.
* `Column.Shows` — the invariant, in terms of what can be seen of a column.
* `Column.Shows.perform`, `Column.Shows.after` — one step on both sides, and a run of steps.
* `Column.steps_on_list` — columns of every name and type, after any steps.
-/

namespace TableStore

/-! ## Steps on a column -/

namespace Column

/-- A step on a column. -/
inductive Step where
  | push (value : Value)
  | get (row : Nat)
  | set (row : Nat) (value : Value)
  | remove (mask : Mask)
  deriving DecidableEq, Repr

/-- What a step answers with. -/
inductive Answer where
  /-- Nothing but that it is done. -/
  | done
  /-- The value of a row, if there is such a row. -/
  | read (value : Option Value)
  deriving DecidableEq, Repr

/-- What comes of a change, with the column as it is afterwards. A refused change leaves it as it
was. -/
def settle (column : Column) : Except Error Column → Except Error Answer × Column
  | .ok after => (.ok .done, after)
  | .error cause => (.error cause, column)

/-- Takes a step. -/
def perform (column : Column) : Step → Except Error Answer × Column
  | .push value => column.settle (column.push value)
  | .get row => (.ok (.read (column.get? row)), column)
  | .set row value => column.settle (column.set row value)
  | .remove mask => column.settle (column.remove mask)

/-- The column after steps, taken one after the other whether they succeed or fail. -/
def after (column : Column) (steps : List Step) : Column :=
  steps.foldl (fun column step => (column.perform step).2) column

/-- When a step is refused, and the kind of the failure. It depends on the type and the number of the
values only. -/
inductive Step.Refused (type : ValueType) (length : Nat) : Step → Failure.Kind → Prop where
  | push {value : Value} (htype : value.type ≠ type) : Refused type length (.push value) .schema
  | row {row : Nat} {value : Value} (hrow : length ≤ row) :
      Refused type length (.set row value) .runtime
  | set {row : Nat} {value : Value} (hrow : row < length) (htype : value.type ≠ type) :
      Refused type length (.set row value) .schema
  | remove {mask : Mask} (hlength : mask.length ≠ length) :
      Refused type length (.remove mask) .runtime

end Column

/-! ## Lists of values -/

/-- A list of values, with the name and the type that are told when a step is refused. -/
structure ValueList where
  name : String
  type : ValueType
  values : List Value
  deriving DecidableEq, Repr

namespace ValueList

/-- No values of a type. -/
def empty (name : String) (type : ValueType) : ValueList :=
  ⟨name, type, []⟩

/-- The values at the positions where a mask is clear. -/
def unmarked (mask : Mask) (values : List Value) : List Value :=
  (values.zipIdx.filter fun (_, row) => mask[row]? = some false).map (·.1)

/-- Why a step is refused, if it is. -/
def refusal? (list : ValueList) : Column.Step → Option Error
  | .push value =>
    if value.type = list.type then none else some (.wrongType value list.name list.type)
  | .get _ => none
  | .set row value =>
    if list.values.length ≤ row then some (.rowOutOfBounds row list.name)
    else if value.type = list.type then none
    else some (.wrongType value list.name list.type)
  | .remove mask =>
    if mask.length = list.values.length then none
    else some (.wrongMaskLength mask.length list.name list.values.length)

/-- What a step answers with if it is not refused. -/
def answer (list : ValueList) : Column.Step → Column.Answer
  | .get row => .read list.values[row]?
  | .push _ | .set .. | .remove _ => .done

/-- The values after a step that is not refused. -/
def next (values : List Value) : Column.Step → List Value
  | .push value => values ++ [value]
  | .get _ => values
  | .set row value => values.set row value
  | .remove mask => unmarked mask values

/-- Takes a step. -/
def perform (list : ValueList) (step : Column.Step) : Except Error Column.Answer × ValueList :=
  match list.refusal? step with
  | some cause => (.error cause, list)
  | none => (.ok (list.answer step), { list with values := next list.values step })

/-- The list after steps, taken one after the other whether they succeed or fail. -/
def after (list : ValueList) (steps : List Column.Step) : ValueList :=
  steps.foldl (fun list step => (list.perform step).2) list

theorem unmarked_nil (values : List Value) : unmarked [] values = [] := by
  simp [unmarked]

theorem unmarked_cons (meant : Bool) (mask : Mask) (value : Value) (values : List Value) :
    unmarked (meant :: mask) (value :: values) =
      if meant then unmarked mask values else value :: unmarked mask values := by
  unfold unmarked
  -- behind the first value every position is one more than in the rest
  rw [List.zipIdx_cons, List.zipIdx_succ, List.filter_cons, List.filter_map]
  cases meant <;> simp [Function.comp_def]

/-- Leaving out the values that a mask means is keeping those at the positions where it is clear. -/
theorem leave_eq_unmarked (mask : Mask) (values : List Value) :
    mask.leave values = unmarked mask values := by
  induction values generalizing mask with
  | nil => rfl
  | cons value values ih =>
    cases mask with
    | nil => exact (unmarked_nil _).symm
    | cons meant mask =>
      rw [unmarked_cons, ← ih]
      cases meant <;> rfl

/-! ### Refusals of a list -/

section

variable {list : ValueList} {step : Column.Step}

theorem perform_eq_error {cause : Error} :
    (list.perform step).1 = .error cause ↔ list.refusal? step = some cause := by
  unfold perform
  cases list.refusal? step <;> simp

/-- A list gives a cause of a kind exactly for the steps that are refused for this kind. -/
theorem kind_of_refusal_iff {kind : Failure.Kind} :
    (list.refusal? step).map Error.kind = some kind ↔
      step.Refused list.type list.values.length kind := by
  constructor
  · intro h
    cases step with
    | push value =>
      rw [refusal?] at h
      split at h
      · cases h
      · rename_i htype
        cases h
        exact .push htype
    | get row => cases h
    | set row value =>
      rw [refusal?] at h
      split at h
      · rename_i hrow
        cases h
        exact .row hrow
      · rename_i hrow
        split at h
        · cases h
        · rename_i htype
          cases h
          exact .set (Nat.lt_of_not_le hrow) htype
    | remove mask =>
      rw [refusal?] at h
      split at h
      · cases h
      · rename_i hlength
        cases h
        exact .remove hlength
  · intro h
    cases h with
    | push htype =>
      rw [refusal?, if_neg htype]
      rfl
    | row hrow =>
      rw [refusal?, if_pos hrow]
      rfl
    | set hrow htype =>
      rw [refusal?, if_neg (Nat.not_le_of_lt hrow), if_neg htype]
      rfl
    | remove hlength =>
      rw [refusal?, if_neg hlength]
      rfl

theorem kind_of_perform_iff {kind : Failure.Kind} :
    (list.perform step).1.mapError Error.kind = .error kind ↔
      step.Refused list.type list.values.length kind := by
  rw [← kind_of_refusal_iff, perform]
  cases list.refusal? step with
  | none =>
    show Except.ok (list.answer step) = .error kind ↔ none = some kind
    simp
  | some cause =>
    show Except.error cause.kind = .error kind ↔ some cause.kind = some kind
    rw [Except.error.injEq, Option.some.injEq]

/-- A list has no cells that could fail to fit. -/
theorem refusal?_ne (list : ValueList) (step : Column.Step) :
    list.refusal? step ≠ some .storageMismatch := by
  intro h
  cases step <;> simp only [refusal?] at h <;> grind

end

/-- No step gives a list another type. -/
theorem type_perform (list : ValueList) (step : Column.Step) :
    (list.perform step).2.type = list.type ∧ (list.perform step).2.name = list.name := by
  unfold perform
  cases list.refusal? step <;> exact ⟨rfl, rfl⟩

theorem type_after (list : ValueList) (steps : List Column.Step) :
    (list.after steps).type = list.type ∧ (list.after steps).name = list.name := by
  induction steps generalizing list with
  | nil => exact ⟨rfl, rfl⟩
  | cons step steps ih =>
    obtain ⟨htype, hname⟩ := list.type_perform step
    rw [← htype, ← hname]
    exact ih (list.perform step).2

end ValueList

/-! ## A column shows its list -/

/-- What can be seen of a column is what there is of a list: the name, the type, how many values there
are and the value of each row, all of the column's type. -/
structure Column.Shows (column : Column) (list : ValueList) : Prop where
  name_eq : column.name = list.name
  type_eq : column.type = list.type
  length_eq : column.length = list.values.length
  get?_eq (row : Nat) : column.get? row = list.values[row]?
  type_of_mem (value : Value) (hmem : value ∈ list.values) : value.type = list.type

namespace Column

variable {column : Column} {list : ValueList}

/-- A column shows the list of its values, and no other. -/
theorem shows_iff :
    column.Shows list ↔
      column.name = list.name ∧ column.type = list.type ∧ column.values = list.values := by
  constructor
  · intro h
    refine ⟨h.name_eq, h.type_eq, List.ext_getElem? fun row => ?_⟩
    rw [← get?_eq_getElem?, h.get?_eq]
  · rintro ⟨hname, htype, hvalues⟩
    exact
      { name_eq := hname
        type_eq := htype
        length_eq := by rw [← hvalues, length_values]
        get?_eq := fun row => by rw [get?_eq_getElem?, hvalues]
        type_of_mem := fun value hmem => by
          rw [← htype]
          exact type_of_mem_values (hvalues ▸ hmem) }

theorem shows_empty (name : String) (type : ValueType) :
    (empty name type).Shows (.empty name type) :=
  shows_iff.mpr ⟨rfl, rfl, values_empty name type⟩

namespace Shows

/-- One step on both sides: the answers agree, and afterwards the column shows the list again. -/
theorem perform (h : column.Shows list) (step : Step) :
    (column.perform step).1 = (list.perform step).1 ∧
      (column.perform step).2.Shows (list.perform step).2 := by
  obtain ⟨hname, htype, hvalues⟩ := shows_iff.mp h
  have hlength := h.length_eq
  cases step with
  | push value =>
    rcases column.push_eq value with ⟨after, hpush, hfits, hkept⟩ | ⟨hpush, hfits⟩
    · have hrefusal : list.refusal? (.push value) = none := if_pos (hfits.trans htype)
      rw [Column.perform, hpush, ValueList.perform, hrefusal]
      rw [hname, htype, hvalues] at hkept
      exact ⟨rfl, shows_iff.mpr hkept⟩
    · have hrefusal : list.refusal? (.push value) =
          some (.wrongType value column.name column.type) := by
        rw [hname, htype]
        exact if_neg (htype ▸ hfits)
      rw [Column.perform, hpush, ValueList.perform, hrefusal]
      exact ⟨rfl, h⟩
  | get row =>
    refine ⟨?_, h⟩
    show Except.ok (Answer.read (column.get? row)) = .ok (.read list.values[row]?)
    rw [h.get?_eq]
  | set row value =>
    rcases column.set_eq row value with
      ⟨after, hset, hrow, hfits, hkept⟩ | ⟨hset, hrow⟩ | ⟨hset, hrow, hfits⟩
    · have hrefusal : list.refusal? (.set row value) = none := by
        rw [ValueList.refusal?, if_neg (by omega), if_pos (hfits.trans htype)]
      rw [Column.perform, hset, ValueList.perform, hrefusal]
      rw [hname, htype, hvalues] at hkept
      exact ⟨rfl, shows_iff.mpr hkept⟩
    · -- the row is looked at first, whatever the value
      have hrefusal : list.refusal? (.set row value) =
          some (.rowOutOfBounds row column.name) := by
        rw [hname]
        exact if_pos (by omega)
      rw [Column.perform, hset, ValueList.perform, hrefusal]
      exact ⟨rfl, h⟩
    · have hrefusal : list.refusal? (.set row value) =
          some (.wrongType value column.name column.type) := by
        rw [ValueList.refusal?, if_neg (by omega), if_neg (htype ▸ hfits), hname, htype]
      rw [Column.perform, hset, ValueList.perform, hrefusal]
      exact ⟨rfl, h⟩
  | remove mask =>
    rcases column.remove_eq mask with ⟨after, hremove, hfits, hkept⟩ | ⟨hremove, hfits⟩
    · have hrefusal : list.refusal? (.remove mask) = none := if_pos (hfits.trans hlength)
      rw [Column.perform, hremove, ValueList.perform, hrefusal]
      rw [hname, htype, hvalues, ValueList.leave_eq_unmarked] at hkept
      exact ⟨rfl, shows_iff.mpr hkept⟩
    · have hrefusal : list.refusal? (.remove mask) =
          some (.wrongMaskLength mask.length column.name column.length) := by
        rw [hname, hlength]
        exact if_neg (hlength ▸ hfits)
      rw [Column.perform, hremove, ValueList.perform, hrefusal]
      exact ⟨rfl, h⟩

/-- What one step preserves, any number of them does. -/
theorem after (h : column.Shows list) (steps : List Step) :
    (column.after steps).Shows (list.after steps) := by
  induction steps generalizing column list with
  | nil => exact h
  | cons step steps ih => exact ih (h.perform step).2

end Shows

/-- A refused step leaves the column as it was. -/
theorem perform_of_error {step : Step} {cause : Error}
    (h : (column.perform step).1 = .error cause) : (column.perform step).2 = column := by
  -- only a change that succeeds puts another column in the place
  have hsettle : ∀ change : Except Error Column,
      (column.settle change).1 = .error cause → (column.settle change).2 = column := by
    rintro (other | after) hchange
    · rfl
    · cases hchange
  cases step with
  | push value => exact hsettle _ h
  | get row => rfl
  | set row value => exact hsettle _ h
  | remove mask => exact hsettle _ h

/-- A column of any name and type, after any steps: what can be seen of it is what there is of the list
that has taken the same steps, and all its values are of its type. Any further step has the same answer
on both sides. It is refused exactly if a value is of another type, if a row does not exist, which is
reported first, or if a mask is of another length, and then the column is left as it was. The cells
always take a value that the column takes. -/
theorem steps_on_list (name : String) (type : ValueType) (steps : List Step) :
    let column := (empty name type).after steps
    let list := (ValueList.empty name type).after steps
    column.name = name ∧ column.type = type ∧ column.length = list.values.length ∧
      (∀ row, column.get? row = list.values[row]?) ∧ (∀ value ∈ list.values, value.type = type) ∧
      ∀ step,
        (column.perform step).1 = (list.perform step).1 ∧
        (∀ kind, (column.perform step).1.mapError Error.kind = .error kind ↔
          step.Refused type list.values.length kind) ∧
        (∀ cause, (column.perform step).1 = .error cause → (column.perform step).2 = column) ∧
        (column.perform step).1 ≠ .error .storageMismatch := by
  intro column list
  have hshows : column.Shows list := (shows_empty name type).after steps
  obtain ⟨htype, hname⟩ : list.type = type ∧ list.name = name :=
    (ValueList.empty name type).type_after steps
  refine ⟨hshows.name_eq.trans hname, hshows.type_eq.trans htype, hshows.length_eq,
    hshows.get?_eq, fun value hmem => (hshows.type_of_mem value hmem).trans htype, fun step => ?_⟩
  have hanswer := (hshows.perform step).1
  refine ⟨hanswer, fun kind => ?_, fun cause => perform_of_error, fun hinternal => ?_⟩
  · rw [hanswer, ValueList.kind_of_perform_iff, htype]
  · rw [hanswer, ValueList.perform_eq_error] at hinternal
    exact list.refusal?_ne step hinternal

/-- A column of truth values that has refused an integer and lost its first row. Of two reasons to
refuse a step the row is told, and the column stays as it is. -/
theorem steps_on_list_booleans :
    let column := (empty "read" .boolean).after
      [.push (.boolean true), .push (.boolean false), .push (.integer 1), .remove [true, false]]
    column.length = 1 ∧ column.get? 0 = some (.boolean false) ∧ column.get? 1 = none ∧
      (column.perform (.set 1 (.integer 1))).1.mapError Error.kind = .error .runtime ∧
      (column.perform (.set 1 (.integer 1))).2 = column := by
  intro column
  obtain ⟨-, -, hlength, hget, -, hstep⟩ := steps_on_list "read" .boolean
    [.push (.boolean true), .push (.boolean false), .push (.integer 1), .remove [true, false]]
  obtain ⟨hanswer, hkind, hsame, -⟩ := hstep (.set 1 (.integer 1))
  have hrefused : Step.Refused .boolean 1 (.set 1 (.integer 1)) .runtime := .row (Nat.le_refl 1)
  exact ⟨hlength, hget 0, hget 1, (hkind .runtime).mpr hrefused, hsame _ hanswer⟩

end Column

end TableStore
