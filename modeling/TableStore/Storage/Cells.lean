import TableStore.Data.Mask
import TableStore.Data.Value

/-!
# Cells

The values of a column are stored in one array without tags. There is a kind of array for each type,
and the kind tells how a stored value is to be read.

* `Cells` — the array; `Cells.type` is the type it is for, and `Cells.values` the list of values that
  it stands for.
* `Cells.push?`, `Cells.set?` — add a value, replace a value; there is no result if the value is of
  another type than the cells.
* `Cells.leave` — the values that stand at the rows which a mask does not mean.
-/

namespace TableStore

/-- Values of one type, without tags, from the first row to the last. -/
inductive Cells where
  | integers (xs : Array Int64)
  | texts (xs : Array String)
  | booleans (xs : Array Bool)

namespace Cells

/-- No values of a type. -/
def empty : ValueType → Cells
  | .integer => .integers #[]
  | .text => .texts #[]
  | .boolean => .booleans #[]

/-- The type of the values. -/
def type : Cells → ValueType
  | .integers _ => .integer
  | .texts _ => .text
  | .booleans _ => .boolean

/-- The number of values. -/
def length : Cells → Nat
  | .integers xs => xs.size
  | .texts xs => xs.size
  | .booleans xs => xs.size

/-- The value of a row. -/
def get? (cells : Cells) (row : Nat) : Option Value :=
  match cells with
  | .integers xs => xs[row]?.map .integer
  | .texts xs => xs[row]?.map .text
  | .booleans xs => xs[row]?.map .boolean

/-- The values from the first row to the last. -/
def values : Cells → List Value
  | .integers xs => xs.toList.map .integer
  | .texts xs => xs.toList.map .text
  | .booleans xs => xs.toList.map .boolean

/-- Adds a value behind the last row. -/
def push? : Cells → Value → Option Cells
  | .integers xs, .integer n => some (.integers (xs.push n))
  | .texts xs, .text s => some (.texts (xs.push s))
  | .booleans xs, .boolean b => some (.booleans (xs.push b))
  | _, _ => none

/-- Replaces the value of a row, if there is such a row. -/
def set? (cells : Cells) (row : Nat) (value : Value) : Option Cells :=
  match cells, value with
  | .integers xs, .integer n => some (.integers (xs.setIfInBounds row n))
  | .texts xs, .text s => some (.texts (xs.setIfInBounds row s))
  | .booleans xs, .boolean b => some (.booleans (xs.setIfInBounds row b))
  | _, _ => none

/-- The values at the rows that a mask does not mean. -/
def leave (mask : Mask) : Cells → Cells
  | .integers xs => .integers (mask.leave xs.toList).toArray
  | .texts xs => .texts (mask.leave xs.toList).toArray
  | .booleans xs => .booleans (mask.leave xs.toList).toArray

/-! ## The list that cells stand for -/

@[simp] theorem type_empty (type : ValueType) : (empty type).type = type := by
  cases type <;> rfl

@[simp] theorem type_leave (mask : Mask) (cells : Cells) : (cells.leave mask).type = cells.type := by
  cases cells <;> rfl

@[simp] theorem values_empty (type : ValueType) : (empty type).values = [] := by
  cases type <;> rfl

@[simp] theorem length_values (cells : Cells) : cells.values.length = cells.length := by
  cases cells <;> simp [values, length]

theorem get?_eq_getElem? (cells : Cells) (row : Nat) : cells.get? row = cells.values[row]? := by
  cases cells <;> simp [get?, values]

theorem values_leave (mask : Mask) (cells : Cells) :
    (cells.leave mask).values = mask.leave cells.values := by
  cases cells <;> simp [leave, values, Mask.leave_map]

theorem type_of_mem_values {cells : Cells} {value : Value} (h : value ∈ cells.values) :
    value.type = cells.type := by
  cases cells <;> obtain ⟨x, -, rfl⟩ := List.mem_map.mp h <;> rfl

/-- Cells of one type with the same values are the same. -/
theorem eq_of_values {a b : Cells} (htype : a.type = b.type) (hvalues : a.values = b.values) :
    a = b := by
  have hinteger : ∀ m n, Value.integer m = .integer n → m = n := fun m n => Value.integer.inj
  have htext : ∀ s t, Value.text s = .text t → s = t := fun s t => Value.text.inj
  have hboolean : ∀ x y, Value.boolean x = .boolean y → x = y := fun x y => Value.boolean.inj
  -- cells of different types are told apart by their types
  cases a <;> cases b <;> cases htype
  · exact congrArg integers (Array.toList_inj.mp (List.map_inj_right hinteger |>.mp hvalues))
  · exact congrArg texts (Array.toList_inj.mp (List.map_inj_right htext |>.mp hvalues))
  · exact congrArg booleans (Array.toList_inj.mp (List.map_inj_right hboolean |>.mp hvalues))

/-! ## Storing a value -/

theorem type_push? {cells after : Cells} {value : Value} (h : cells.push? value = some after) :
    after.type = cells.type := by
  cases cells <;> cases value <;> cases h <;> rfl

theorem type_set? {cells after : Cells} {row : Nat} {value : Value}
    (h : cells.set? row value = some after) : after.type = cells.type := by
  cases cells <;> cases value <;> cases h <;> rfl

/-- A value of the cells' type goes to the end. -/
theorem exists_push? {cells : Cells} {value : Value} (h : value.type = cells.type) :
    ∃ after, cells.push? value = some after ∧ after.values = cells.values ++ [value] := by
  cases cells <;> cases value <;> cases h
  · exact ⟨_, rfl, by simp [values]⟩
  · exact ⟨_, rfl, by simp [values]⟩
  · exact ⟨_, rfl, by simp [values]⟩

/-- A value of the cells' type takes the place of the row's value. -/
theorem exists_set? {cells : Cells} {value : Value} (h : value.type = cells.type) (row : Nat) :
    ∃ after, cells.set? row value = some after ∧ after.values = cells.values.set row value := by
  cases cells <;> cases value <;> cases h
  · exact ⟨_, rfl, by simp [values, List.map_set]⟩
  · exact ⟨_, rfl, by simp [values, List.map_set]⟩
  · exact ⟨_, rfl, by simp [values, List.map_set]⟩

end Cells

end TableStore
