import TableStore.Proofs.Sql.Phrases

/-!
# The statements that can be written

Not every statement can be the meaning of a text: its names have to be words that are not reserved,
its integers must not be negative, its texts have to lack one kind of quote, and its lists must not be
empty. What can be written has tokens, which are given here part by part.

* `Sql.Statement.IsWritable` — which statements can be written.
* `Sql.Statement.tokens` — the tokens of a statement.
-/

namespace TableStore.Sql

/-! ## What can be written -/

/-- A value that a literal can stand for. -/
def IsLiteral : Value → Prop
  | .integer n => 0 ≤ n.toInt
  | .text s => '\'' ∉ s.toList ∨ '"' ∉ s.toList
  | .boolean _ => True

/-- A column's name, with or without the name of its table in front of it. -/
inductive IsReference : String → Prop where
  | column {name : String} (hname : IsName name.toList) : IsReference name
  | ofTable {table column : String} (htable : IsName table.toList)
      (hcolumn : IsName column.toList) : IsReference (table ++ "." ++ column)

/-- A list that is not empty, and whose members are all as given. -/
def IsList {α : Type} (good : α → Prop) (xs : List α) : Prop :=
  xs ≠ [] ∧ ∀ x ∈ xs, good x

/-- A condition of a word and a literal, or none. -/
def IsCondition : Predicate → Prop
  | .always => True
  | .test column _ literal => IsName column.toList ∧ IsLiteral literal

/-- A second table with the columns it is joined on. -/
structure Join.IsWritable (join : Join) : Prop where
  table : IsName join.table.toList
  left : IsReference join.left
  right : IsReference join.right

/-- All columns, or a list of names. -/
def IsProjection : Projection → Prop
  | .all => True
  | .columns names => IsList (fun name => IsName name.toList) names

/-- A statement whose names are words that are not reserved, whose integers are not negative, whose
texts lack one kind of quote, and whose lists are not empty. -/
def Statement.IsWritable : Statement → Prop
  | .createTable table declarations =>
    IsName table.toList ∧
      IsList (fun declaration => IsName declaration.field.name.toList) declarations
  | .dropTable table => IsName table.toList
  | .insert table columns tuples =>
    IsName table.toList ∧ (∀ names ∈ columns, IsList (fun name => IsName name.toList) names) ∧
      IsList (IsList IsLiteral) tuples
  | .select projection table join condition =>
    IsProjection projection ∧ IsName table.toList ∧ (∀ second ∈ join, second.IsWritable) ∧
      IsCondition condition
  | .update table assignments condition =>
    IsName table.toList ∧
      IsList (fun assignment => IsName assignment.column.toList ∧ IsLiteral assignment.value)
        assignments ∧
      IsCondition condition
  | .delete table condition => IsName table.toList ∧ IsCondition condition

/-! ## The tokens of a statement -/

/-- A reference is cut at its first dot. -/
def reference (name : String) : List Token :=
  match name.toList.dropWhile (· ≠ '.') with
  | [] => [⟨.identifier, name⟩]
  | _ :: column =>
    [⟨.identifier, String.ofList (name.toList.takeWhile (· ≠ '.'))⟩, ⟨.dot, "."⟩,
      ⟨.identifier, String.ofList column⟩]

/-- A condition behind its reserved word, or nothing. -/
def restriction : Predicate → List Token
  | .always => []
  | .test column op value =>
    [⟨.keyword, "WHERE"⟩, ⟨.identifier, column⟩, ⟨.operator, op.symbol⟩, literal value]

/-- A second table behind its reserved words, or nothing. -/
def second : Option Join → List Token
  | none => []
  | some join =>
    ⟨.keyword, "INNER"⟩ :: ⟨.keyword, "JOIN"⟩ :: ⟨.identifier, join.table⟩ :: ⟨.keyword, "ON"⟩ ::
      (reference join.left ++ ⟨.operator, "="⟩ :: reference join.right)

/-- Names with commas between them. -/
def names : List String → List Token :=
  commas fun name => [⟨.identifier, name⟩]

/-- An asterisk or names. -/
def selected : Projection → List Token
  | .all => [⟨.asterisk, "*"⟩]
  | .columns columns => names columns

/-- Names between parentheses, or nothing. -/
def targets : Option (List String) → List Token
  | none => []
  | some columns => parens (names columns)

/-- Literals with commas between them, between parentheses. -/
def tuple (values : List Value) : List Token :=
  parens (commas (fun value => [literal value]) values)

/-- A column and the literal that it gets. -/
def assigned (assignment : Assignment) : List Token :=
  [⟨.identifier, assignment.column⟩, ⟨.operator, "="⟩, literal assignment.value]

/-- The tokens of a statement, without a semicolon. -/
def Statement.tokens : Statement → List Token
  | .createTable table declarations =>
    ⟨.keyword, "CREATE"⟩ :: ⟨.keyword, "TABLE"⟩ :: ⟨.identifier, table⟩ ::
      parens (commas Declaration.tokens declarations)
  | .dropTable table => [⟨.keyword, "DROP"⟩, ⟨.keyword, "TABLE"⟩, ⟨.identifier, table⟩]
  | .insert table columns tuples =>
    ⟨.keyword, "INSERT"⟩ :: ⟨.keyword, "INTO"⟩ :: ⟨.identifier, table⟩ ::
      (targets columns ++ ⟨.keyword, "VALUES"⟩ :: commas tuple tuples)
  | .select projection table join condition =>
    ⟨.keyword, "SELECT"⟩ :: (selected projection ++ ⟨.keyword, "FROM"⟩ :: ⟨.identifier, table⟩ ::
      (second join ++ restriction condition))
  | .update table assignments condition =>
    ⟨.keyword, "UPDATE"⟩ :: ⟨.identifier, table⟩ :: ⟨.keyword, "SET"⟩ ::
      (commas assigned assignments ++ restriction condition)
  | .delete table condition =>
    ⟨.keyword, "DELETE"⟩ :: ⟨.keyword, "FROM"⟩ :: ⟨.identifier, table⟩ :: restriction condition

end TableStore.Sql
