/-!
# Signed decimals

The decimal form of a 64-bit integer: at most one sign, then digits, with any number of leading
zeros. Reading goes from left to right and stops at the first fault, so a text that is both too long
and malformed has the fault that comes first.

* `Decimal.read` — the integer that a text denotes, or its first fault.
* `Decimal.write` — the shortest text of an integer: no plus sign and no leading zero.
-/

namespace TableStore.Decimal

/-- Why a text denotes no 64-bit integer. -/
inductive Fault where
  /-- There is no character at all. -/
  | empty
  /-- A character is no digit, or a sign stands alone. -/
  | invalidDigit
  /-- The value is above the greatest integer. -/
  | tooLarge
  /-- The value is below the least integer. -/
  | tooSmall
  deriving DecidableEq, Repr

/-- The wording of a fault. -/
def Fault.message : Fault → String
  | .empty => "cannot parse integer from empty string"
  | .invalidDigit => "invalid digit found in string"
  | .tooLarge => "number too large to fit in target type"
  | .tooSmall => "number too small to fit in target type"

/-- The value of an ASCII digit. -/
def digit? (c : Char) : Option Nat :=
  if c.isDigit then some (c.toNat - '0'.toNat) else none

/-- Reads digits behind `value`, which the digits before them denote. `excess` is the fault of a
value above `limit`; a character that is no digit is noticed before the value grows. -/
def magnitude (limit : Nat) (excess : Fault) (value : Nat) : List Char → Except Fault Nat
  | [] => .ok value
  | c :: rest =>
    match digit? c with
    | none => .error .invalidDigit
    | some d =>
      if 10 * value + d ≤ limit then magnitude limit excess (10 * value + d) rest else .error excess

/-- The greatest integer, one below the 63rd power of two. -/
def greatest : Nat := 9223372036854775807

/-- The magnitude of the least integer, which is one above the greatest. -/
def leastMagnitude : Nat := 9223372036854775808

/-- Digits without a sign; there has to be one. -/
def unsigned (limit : Nat) (excess : Fault) : List Char → Except Fault Nat
  | [] => .error .invalidDigit
  | ds => magnitude limit excess 0 ds

/-- The integer that a text denotes, or the first fault from the left. -/
def read : List Char → Except Fault Int64
  | [] => .error .empty
  | c :: rest =>
    if c = '-' then (unsigned leastMagnitude .tooSmall rest).map fun (n : Nat) => Int64.ofInt (-n)
    else if c = '+' then (unsigned greatest .tooLarge rest).map fun (n : Nat) => Int64.ofInt n
    else (unsigned greatest .tooLarge (c :: rest)).map fun (n : Nat) => Int64.ofInt n

/-- The shortest text of an integer. -/
def write (n : Int64) : String :=
  toString n.toInt

end TableStore.Decimal
