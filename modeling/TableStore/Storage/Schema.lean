import TableStore.Data.Distinct
import TableStore.Error

/-!
# Schemas

A schema lists the columns of a table by name and type, and may name one of them as the primary key.

* `Schema` — a schema; any list of columns and any key make one.
* `Schema.make` — the checked way to one: column names differ, and the key names a column.
* `Schema.locate?` — the first column of a name, with its position.
-/

namespace TableStore

/-- The name and type of a column. -/
structure Field where
  name : String
  type : ValueType
  deriving DecidableEq, Repr

/-- The columns of a table in order, and the name of its primary key. -/
structure Schema where
  fields : List Field
  primaryKey : Option String
  deriving DecidableEq, Repr

namespace Schema

/-- The column names in order. -/
def columnNames (schema : Schema) : List String :=
  schema.fields.map (·.name)

/-- A schema whose column names differ and whose primary key is one of them. A repeated name is
reported before a key that names no column. -/
def make (fields : List Field) (primaryKey : Option String) : Except Error Schema :=
  let names := fields.map (·.name)
  match firstRepeat? [] names with
  | some name => .error (.columnRepeated name)
  | none =>
    match primaryKey with
    | some key =>
      if key ∈ names then .ok ⟨fields, some key⟩ else .error (.keyColumnNotFound key)
    | none => .ok ⟨fields, none⟩

/-- The first column of a name, with its position. -/
def locate? (schema : Schema) (name : String) : Option (Field × Nat) :=
  schema.fields.zipIdx.find? (·.1.name == name)

/-- The position of the first column of a name. -/
def position? (schema : Schema) (name : String) : Option Nat :=
  (schema.locate? name).map (·.2)

/-- The position of the primary key, if it names a column. -/
def keyPosition? (schema : Schema) : Option Nat :=
  schema.primaryKey.bind schema.position?

end Schema

end TableStore
