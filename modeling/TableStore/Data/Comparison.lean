import TableStore.Data.Value

/-!
# Comparisons

The six ways in which a statement compares a column with a literal.

* `Comparison` — the comparisons; `Comparison.symbol` is how they are written.
* `Comparison.accepts` — which of less, equal and greater a comparison stands for.
-/

namespace TableStore

/-- A comparison of two values. -/
inductive Comparison where
  | equal
  | notEqual
  | less
  | greater
  | atMost
  | atLeast
  deriving DecidableEq, Repr

namespace Comparison

/-- Every comparison. -/
def all : List Comparison :=
  [equal, notEqual, less, greater, atMost, atLeast]

/-- How a comparison is written. -/
def symbol : Comparison → String
  | .equal => "="
  | .notEqual => "!="
  | .less => "<"
  | .greater => ">"
  | .atMost => "<="
  | .atLeast => ">="

/-- The comparison that is written so. -/
def ofSymbol? (s : String) : Option Comparison :=
  all.find? (·.symbol == s)

/-- Whether a comparison needs an order, and not only equality. -/
def isOrdering : Comparison → Bool
  | .equal | .notEqual => false
  | _ => true

/-- Whether a comparison holds of values that stand so to each other. -/
def accepts : Comparison → Ordering → Bool
  | .equal, o => o == .eq
  | .notEqual, o => o != .eq
  | .less, o => o == .lt
  | .greater, o => o == .gt
  | .atMost, o => o != .gt
  | .atLeast, o => o != .lt

end Comparison

end TableStore
