import TableStore.Data.Value

/-!
# Rows of an answer

An answer's row gives a value to each of its columns, in the order in which the columns were first
named. Naming a column again replaces its value and leaves it in place.

* `Row` — a row; `Row.push` gives a value to a column.
* `Row.get?`, `Row.columns` — the value of a column, and the columns in order.
-/

namespace TableStore

/-- The columns of an answer's row, in order, with their values. -/
structure Row where
  entries : List (String × Value)
  deriving DecidableEq, Repr

namespace Row

/-- The row without columns. -/
def empty : Row := ⟨[]⟩

/-- Gives `column` a value: at its place if it has one, else at the end. -/
def put (column : String) (value : Value) : List (String × Value) → List (String × Value)
  | [] => [(column, value)]
  | entry :: rest =>
    if entry.1 = column then (column, value) :: rest else entry :: put column value rest

/-- Gives a value to a column. -/
def push (row : Row) (column : String) (value : Value) : Row :=
  ⟨put column value row.entries⟩

/-- The row after giving values to columns one by one. -/
def ofList (entries : List (String × Value)) : Row :=
  entries.foldl (fun row (column, value) => row.push column value) empty

/-- The value of a column. -/
def get? (row : Row) (column : String) : Option Value :=
  row.entries.lookup column

/-- The columns in order. -/
def columns (row : Row) : List String :=
  row.entries.map (·.1)

/-- The values in the order of their columns. -/
def values (row : Row) : List Value :=
  row.entries.map (·.2)

/-! ## What a row holds after a push -/

theorem lookup_put (column name : String) (value : Value) (entries : List (String × Value)) :
    (put column value entries).lookup name =
      if name = column then some value else entries.lookup name := by
  induction entries with
  | nil => grind [put]
  | cons entry rest ih => grind [put]

/-- A column holds the value given to it last. -/
theorem get?_push (row : Row) (column name : String) (value : Value) :
    (row.push column value).get? name = if name = column then some value else row.get? name :=
  lookup_put column name value row.entries

/-- A new column goes to the end, and a known one stays where it is. -/
theorem columns_push (row : Row) (column : String) (value : Value) :
    (row.push column value).columns =
      if column ∈ row.columns then row.columns else row.columns ++ [column] := by
  unfold columns push
  generalize row.entries = entries
  induction entries with
  | nil => simp [put]
  | cons entry rest ih =>
    obtain ⟨key, old⟩ := entry
    by_cases hkey : key = column
    · simp [put, hkey]
    · have hne : ¬ column = key := fun h => hkey h.symm
      simp only [put, hkey, ↓reduceIte, List.map_cons, ih, List.mem_cons, hne, false_or]
      split <;> simp

end Row

end TableStore
