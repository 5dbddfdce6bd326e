import TableStore.Proofs.Text.Decimal
import TableStore.Sql.Statement
import TableStore.Sql.Token

/-!
# The grammar of statements

Which tokens a statement consists of, told without saying how they are read: one relation between
tokens and what they stand for, for each notion of the grammar. Marks are known by their kind alone,
and reserved words, types and operators by kind and text.

* `Sql.Denotes` — the literal that a token stands for.
* `Sql.Listed`, `Sql.Enclosed` — items with commas between them, and between parentheses.
* `Sql.Derives` — the tokens of a statement; `Sql.Sentence` adds the semicolon that may end it.
-/

namespace TableStore.Sql

/-- A token stands for a literal. -/
inductive Denotes : Token → Value → Prop where
  | text (s : String) : Denotes ⟨.text, s⟩ (.text s)
  | number {numeral : String} {n : Int64} (hnumeral : Decimal.Numeral numeral.toList n) :
      Denotes ⟨.number, numeral⟩ (.integer n)
  | yes : Denotes ⟨.keyword, "TRUE"⟩ (.boolean true)
  | no : Denotes ⟨.keyword, "FALSE"⟩ (.boolean false)

/-! ## Lists -/

section

variable {α : Type} (item : List Token → α → Prop)

/-- Items, each with a comma in front of it. -/
inductive MoreItems : List Token → List α → Prop where
  | none : MoreItems [] []
  | more (mark : String) {phrase rest : List Token} {x : α} {xs : List α} (hitem : item phrase x)
      (hrest : MoreItems rest xs) : MoreItems (⟨.comma, mark⟩ :: (phrase ++ rest)) (x :: xs)

/-- One or more items, with commas between them. -/
inductive Listed : List Token → List α → Prop where
  | items {phrase rest : List Token} {x : α} {xs : List α} (hitem : item phrase x)
      (hrest : MoreItems item rest xs) : Listed (phrase ++ rest) (x :: xs)

/-- An item between parentheses. -/
inductive Enclosed : List Token → α → Prop where
  | item (opening closing : String) {phrase : List Token} {x : α} (hitem : item phrase x) :
      Enclosed (⟨.leftParen, opening⟩ :: (phrase ++ [⟨.rightParen, closing⟩])) x

end

section

variable {α : Type} {item : List Token → α → Prop} {phrase : List Token} {x : α} {xs : List α}

theorem exists_of_mem_moreItems (h : MoreItems item phrase xs) (hx : x ∈ xs) :
    ∃ part, (∀ token ∈ part, token ∈ phrase) ∧ item part x := by
  induction h with
  | none => cases hx
  | @more mark part rest y ys hitem _ ih =>
    rcases List.mem_cons.mp hx with rfl | hx
    · exact ⟨part, fun token htoken => by simp [htoken], hitem⟩
    · obtain ⟨part', hpart', hitem'⟩ := ih hx
      exact ⟨part', fun token htoken => by simp [hpart' token htoken], hitem'⟩

/-- Each item of a list has its tokens among those of the list. -/
theorem exists_of_mem_listed (h : Listed item phrase xs) (hx : x ∈ xs) :
    ∃ part, (∀ token ∈ part, token ∈ phrase) ∧ item part x := by
  cases h with
  | @items part rest y ys hitem hrest =>
    rcases List.mem_cons.mp hx with rfl | hx
    · exact ⟨part, fun token htoken => by simp [htoken], hitem⟩
    · obtain ⟨part', hpart', hitem'⟩ := exists_of_mem_moreItems hrest hx
      exact ⟨part', fun token htoken => by simp [hpart' token htoken], hitem'⟩

theorem ne_nil_of_listed (h : Listed item phrase xs) : xs ≠ [] := by
  cases h
  exact List.cons_ne_nil _ _

/-- An item between parentheses has its tokens among those with the parentheses. -/
theorem exists_of_enclosed (h : Enclosed item phrase x) :
    ∃ part, (∀ token ∈ part, token ∈ phrase) ∧ item part x := by
  cases h with
  | @item opening closing part x hitem =>
    exact ⟨part, fun token htoken => by simp [htoken], hitem⟩

end

/-! ## Parts of statements -/

/-- The name of a column or a table. -/
inductive Named : List Token → String → Prop where
  | name (name : String) : Named [⟨.identifier, name⟩] name

/-- A single literal. -/
inductive Literal : List Token → Value → Prop where
  | token {token : Token} {value : Value} (h : Denotes token value) : Literal [token] value

/-- A column of a table to be created. -/
inductive Declares : List Token → Declaration → Prop where
  | plain (name : String) (type : ValueType) :
      Declares [⟨.identifier, name⟩, ⟨.keyword, type.keyword⟩] ⟨⟨name, type⟩, false⟩
  | key (name : String) (type : ValueType) :
      Declares [⟨.identifier, name⟩, ⟨.keyword, type.keyword⟩, ⟨.keyword, "PRIMARY"⟩,
        ⟨.keyword, "KEY"⟩] ⟨⟨name, type⟩, true⟩

/-- A condition, or none. -/
inductive Restricts : List Token → Predicate → Prop where
  | always : Restricts [] .always
  | test (column : String) (op : Comparison) {token : Token} {literal : Value}
      (hliteral : Denotes token literal) :
      Restricts [⟨.keyword, "WHERE"⟩, ⟨.identifier, column⟩, ⟨.operator, op.symbol⟩, token]
        (.test column op literal)

/-- A column's name, with or without the name of its table. -/
inductive Refers : List Token → String → Prop where
  | column (name : String) : Refers [⟨.identifier, name⟩] name
  | ofTable (table column dot : String) :
      Refers [⟨.identifier, table⟩, ⟨.dot, dot⟩, ⟨.identifier, column⟩] (table ++ "." ++ column)

/-- A second table, or none. -/
inductive Joins : List Token → Option Join → Prop where
  | none : Joins [] none
  | inner (table : String) {left right : List Token} {column column' : String}
      (hleft : Refers left column) (hright : Refers right column') :
      Joins (⟨.keyword, "INNER"⟩ :: ⟨.keyword, "JOIN"⟩ :: ⟨.identifier, table⟩ ::
        ⟨.keyword, "ON"⟩ :: (left ++ ⟨.operator, "="⟩ :: right)) (some ⟨table, column, column'⟩)

/-- The columns that a selection keeps. -/
inductive Projects : List Token → Projection → Prop where
  | all (mark : String) : Projects [⟨.asterisk, mark⟩] .all
  | columns {phrase : List Token} {names : List String} (hnames : Listed Named phrase names) :
      Projects phrase (.columns names)

/-- The column list of an insertion, or none. -/
inductive Targets : List Token → Option (List String) → Prop where
  | none : Targets [] none
  | columns {phrase : List Token} {names : List String}
      (hnames : Enclosed (Listed Named) phrase names) : Targets phrase (some names)

/-- A column and the literal that it gets. -/
inductive Assigns : List Token → Assignment → Prop where
  | equals (column : String) {token : Token} {value : Value} (hvalue : Denotes token value) :
      Assigns [⟨.identifier, column⟩, ⟨.operator, "="⟩, token] ⟨column, value⟩

/-! ## Statements -/

/-- The tokens of a statement. -/
inductive Derives : List Token → Statement → Prop where
  | createTable (table : String) {phrase : List Token} {declarations : List Declaration}
      (hcolumns : Enclosed (Listed Declares) phrase declarations) :
      Derives (⟨.keyword, "CREATE"⟩ :: ⟨.keyword, "TABLE"⟩ :: ⟨.identifier, table⟩ :: phrase)
        (.createTable table declarations)
  | dropTable (table : String) :
      Derives [⟨.keyword, "DROP"⟩, ⟨.keyword, "TABLE"⟩, ⟨.identifier, table⟩] (.dropTable table)
  | insert (table : String) {names rows : List Token} {columns : Option (List String)}
      {tuples : List (List Value)} (hnames : Targets names columns)
      (hrows : Listed (Enclosed (Listed Literal)) rows tuples) :
      Derives (⟨.keyword, "INSERT"⟩ :: ⟨.keyword, "INTO"⟩ :: ⟨.identifier, table⟩ ::
        (names ++ ⟨.keyword, "VALUES"⟩ :: rows)) (.insert table columns tuples)
  | select (table : String) {columns second restriction : List Token} {projection : Projection}
      {join : Option Join} {condition : Predicate} (hcolumns : Projects columns projection)
      (hsecond : Joins second join) (hrestriction : Restricts restriction condition) :
      Derives (⟨.keyword, "SELECT"⟩ :: (columns ++ ⟨.keyword, "FROM"⟩ :: ⟨.identifier, table⟩ ::
        (second ++ restriction))) (.select projection table join condition)
  | update (table : String) {changes restriction : List Token} {assignments : List Assignment}
      {condition : Predicate} (hchanges : Listed Assigns changes assignments)
      (hrestriction : Restricts restriction condition) :
      Derives (⟨.keyword, "UPDATE"⟩ :: ⟨.identifier, table⟩ :: ⟨.keyword, "SET"⟩ ::
        (changes ++ restriction)) (.update table assignments condition)
  | delete (table : String) {restriction : List Token} {condition : Predicate}
      (hrestriction : Restricts restriction condition) :
      Derives (⟨.keyword, "DELETE"⟩ :: ⟨.keyword, "FROM"⟩ :: ⟨.identifier, table⟩ :: restriction)
        (.delete table condition)

/-- The tokens of a statement, with or without a semicolon behind them. -/
inductive Sentence : List Token → Statement → Prop where
  | bare {phrase : List Token} {statement : Statement} (h : Derives phrase statement) :
      Sentence phrase statement
  | ended (mark : String) {phrase : List Token} {statement : Statement}
      (h : Derives phrase statement) : Sentence (phrase ++ [⟨.semicolon, mark⟩]) statement

end TableStore.Sql
