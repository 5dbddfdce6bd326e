import TableStore.Data.Comparison
import TableStore.Sql.SyntaxError

/-!
# Why a statement fails

Every cause for which reading or running a statement fails, its kind, and its wording.

* `Error` — a cause.
* `Failure` — what a caller is told: the kind and a detail, from which the message is formed.
* `Error.failure` — the kind and the wording of a cause.
-/

namespace TableStore

/-- The kinds of failure. -/
inductive Failure.Kind where
  /-- The text is no statement. -/
  | malformed
  /-- There is no such table. -/
  | notFound
  /-- There is such a table already. -/
  | alreadyExists
  /-- A column, a number of values or a type does not fit the schema. -/
  | schema
  /-- Two rows would have the same primary key. -/
  | constraint
  /-- The stored columns do not fit together. -/
  | runtime
  deriving DecidableEq, Repr

/-- What a caller is told about a failure. -/
structure Failure where
  kind : Failure.Kind
  /-- The table's name if the kind says that it is missing or exists, else the wording. -/
  detail : String
  deriving DecidableEq, Repr

/-- The whole message of a failure. -/
def Failure.message (f : Failure) : String :=
  match f.kind with
  | .malformed => "syntax error: " ++ f.detail
  | .notFound => "Relation \"" ++ f.detail ++ "\" does not exist"
  | .alreadyExists => "Relation \"" ++ f.detail ++ "\" already exists"
  | .schema | .constraint | .runtime => f.detail

/-- Why a statement fails. -/
inductive Error where
  /-- The text is no statement. -/
  | malformed (cause : Sql.SyntaxError)
  | tableNotFound (table : String)
  | tableExists (table : String)
  /-- A list of columns names one twice. -/
  | columnRepeated (column : String)
  /-- The primary key names no column. -/
  | keyColumnNotFound (key : String)
  | columnNotFound (column table : String)
  /-- A list of columns leaves one out. -/
  | columnMissing (column table : String)
  /-- A tuple has another number of values than there are columns to fill. -/
  | wrongArity (given expected : Nat)
  /-- A value is put into a column of another type. -/
  | wrongType (value : Value) (column : String) (type : ValueType)
  /-- A column is compared with a literal of another type. -/
  | wrongLiteral (column : String) (type : ValueType) (literal : Value)
  /-- A column without order is compared by order. -/
  | unorderedColumn (op : Comparison) (column : String) (type : ValueType)
  /-- Truth values are compared by order. -/
  | unorderedBooleans (op : Comparison)
  /-- Values of different types are compared. -/
  | incomparable (left right : ValueType)
  /-- A primary key would be stored twice. -/
  | duplicateKey (key table : String) (value : Value)
  /-- A row lacks a value for a column of its schema. -/
  | incompleteRow
  /-- A row has no stored value. -/
  | missingRow (row : Nat)
  /-- A row has no value to evaluate a predicate on. -/
  | missingValue (column : String)
  /-- A column has no such row. -/
  | rowOutOfBounds (row : Nat) (column : String)
  /-- A mask and a column differ in length. -/
  | wrongMaskLength (mask : Nat) (column : String) (rows : Nat)
  /-- A column's cells are of another type than the column. -/
  | storageMismatch
  deriving DecidableEq, Repr

/-- The kind and the wording of a cause. -/
def Error.failure : Error → Failure
  | .malformed cause => ⟨.malformed, cause.message⟩
  | .tableNotFound table => ⟨.notFound, table⟩
  | .tableExists table => ⟨.alreadyExists, table⟩
  | .columnRepeated column => ⟨.schema, "column \"" ++ column ++ "\" specified more than once"⟩
  | .keyColumnNotFound key => ⟨.schema, "primary key column \"" ++ key ++ "\" does not exist"⟩
  | .columnNotFound column table =>
    ⟨.schema, "column \"" ++ column ++ "\" of relation \"" ++ table ++ "\" does not exist"⟩
  | .columnMissing column table =>
    ⟨.schema, "missing value for column \"" ++ column ++ "\" of relation \"" ++ table ++ "\""⟩
  | .wrongArity given expected =>
    ⟨.schema, "INSERT has " ++ toString given ++ " values but " ++ toString expected ++
      " columns were expected"⟩
  | .wrongType value column type =>
    ⟨.schema, "value " ++ value.display ++ " has type " ++ value.type.keyword ++
      " while column \"" ++ column ++ "\" has type " ++ type.keyword⟩
  | .wrongLiteral column type literal =>
    ⟨.schema, "cannot compare column \"" ++ column ++ "\" of type " ++ type.keyword ++ " with " ++
      literal.type.keyword ++ " value " ++ literal.display⟩
  | .unorderedColumn op column type =>
    ⟨.schema, "operator " ++ op.symbol ++ " is not supported for column \"" ++ column ++
      "\" of type " ++ type.keyword⟩
  | .unorderedBooleans op =>
    ⟨.schema, "operator " ++ op.symbol ++ " is not supported for BOOLEAN values"⟩
  | .incomparable left right =>
    ⟨.schema, "type mismatch: cannot compare " ++ left.keyword ++ " with " ++ right.keyword⟩
  | .duplicateKey key table value =>
    ⟨.constraint, "duplicate key value violates primary key \"" ++ key ++ "\" of relation \"" ++
      table ++ "\": " ++ value.display⟩
  | .incompleteRow => ⟨.runtime, "incomplete row after column mapping"⟩
  | .missingRow row => ⟨.runtime, "row " ++ toString row ++ " is missing from storage"⟩
  | .missingValue column => ⟨.runtime, "row has no value for column \"" ++ column ++ "\""⟩
  | .rowOutOfBounds row column =>
    ⟨.runtime, "row index " ++ toString row ++ " is out of bounds for column \"" ++ column ++ "\""⟩
  | .wrongMaskLength mask column rows =>
    ⟨.runtime, "deletion mask covers " ++ toString mask ++ " rows but column \"" ++ column ++
      "\" has " ++ toString rows⟩
  | .storageMismatch => ⟨.runtime, "internal error: column type mismatch"⟩

/-- The kind of a cause. -/
def Error.kind (e : Error) : Failure.Kind :=
  e.failure.kind

/-- The whole message of a cause. -/
def Error.message (e : Error) : String :=
  e.failure.message

end TableStore
