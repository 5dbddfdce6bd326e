import TableStore.Text.Decimal

/-!
# Values

A cell or a literal is a 64-bit integer, a text or a truth value. There is no absent value: a row
holds one value for each column of its table.

* `ValueType` — the three types, and the words that declare them.
* `Value` — a value; `Value.type` is its type and `Value.display` the text that shows it.
-/

namespace TableStore

/-- The type of a value, and of the column that holds it. -/
inductive ValueType where
  | integer
  | text
  | boolean
  deriving DecidableEq, Repr

namespace ValueType

/-- The word that declares a column of the type. -/
def keyword : ValueType → String
  | .integer => "INTEGER"
  | .text => "TEXT"
  | .boolean => "BOOLEAN"

/-- The type that a word declares; the word is in upper case. -/
def ofKeyword? (word : String) : Option ValueType :=
  [integer, text, boolean].find? (·.keyword == word)

/-- Whether the type's values can be compared by order, and not only for equality. -/
def isOrdered : ValueType → Bool
  | .integer | .text => true
  | .boolean => false

end ValueType

/-- A cell of a table, or a literal of a statement. -/
inductive Value where
  | integer (n : Int64)
  | text (s : String)
  | boolean (b : Bool)
  deriving DecidableEq, Repr

namespace Value

/-- The type of a value. -/
def type : Value → ValueType
  | .integer _ => .integer
  | .text _ => .text
  | .boolean _ => .boolean

/-- The text that shows a value: a text stands without quotes. -/
def display : Value → String
  | .integer n => Decimal.write n
  | .text s => s
  | .boolean true => "true"
  | .boolean false => "false"

end Value

end TableStore
