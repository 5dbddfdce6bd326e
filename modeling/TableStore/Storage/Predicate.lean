import TableStore.Storage.Schema

/-!
# Predicates

The condition of a statement: none, or one comparison of a column with a literal. It is checked
against the column before any row is read, so a literal of the wrong type fails the statement also
on an empty table.

* `Comparison.holds` — whether a comparison holds between two values. Integers are ordered by value
  and texts by their code points; truth values are only equal or different.
* `Predicate` — a condition; `Predicate.check` and `Predicate.evaluate`.
-/

namespace TableStore

/-- Whether a comparison holds. Values of different types are not compared at all. -/
def Comparison.holds (op : Comparison) (left right : Value) : Except Error Bool :=
  match left, right with
  | .integer m, .integer n => .ok (op.accepts (compare m n))
  | .text s, .text t => .ok (op.accepts (compare s t))
  | .boolean a, .boolean b =>
    match op with
    | .equal => .ok (a == b)
    | .notEqual => .ok (a != b)
    | _ => .error (.unorderedBooleans op)
  | _, _ => .error (.incomparable left.type right.type)

/-- The condition of a statement. -/
inductive Predicate where
  /-- Holds of every row. -/
  | always
  /-- Compares the row's value of a column with a literal. -/
  | test (column : String) (op : Comparison) (literal : Value)
  deriving DecidableEq, Repr

namespace Predicate

/-- The column that a predicate reads. -/
def column? : Predicate → Option String
  | .always => none
  | .test column _ _ => some column

/-- Whether a predicate may be evaluated on a column's values: the literal has the column's type,
and an ordering applies to an ordered type. -/
def check (predicate : Predicate) (field : Field) : Except Error Unit :=
  match predicate with
  | .always => .ok ()
  | .test _ op literal =>
    if literal.type ≠ field.type then .error (.wrongLiteral field.name field.type literal)
    else if op.isOrdering && !field.type.isOrdered then
      .error (.unorderedColumn op field.name field.type)
    else .ok ()

/-- Whether a predicate holds, given the row's value of the column it reads. -/
def evaluate (predicate : Predicate) (value : Option Value) : Except Error Bool :=
  match predicate, value with
  | .always, _ => .ok true
  | .test _ op literal, some left => op.holds left literal
  | .test column _ _, none => .error (.missingValue column)

end Predicate

end TableStore
