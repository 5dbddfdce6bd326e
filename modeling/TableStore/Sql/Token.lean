import TableStore.Text.Quoted

/-!
# Tokens

The words and marks of a statement. A token is its kind and its text; a reader of tokens may also be
given tokens that no text contains, such as a number with a sign.

* `Sql.Token`, `Sql.Token.Kind` — a token and its kind.
* `Sql.keywords` — the reserved words, and `Sql.Token.ofWord`, which tells them from names.
* `Sql.Terminal` — the tokens that one place of the grammar admits.
-/

namespace TableStore.Sql

/-- What kind of word or mark a token is. -/
inductive Token.Kind where
  /-- A reserved word, in upper case. -/
  | keyword
  /-- The name of a table or a column, as it was written. -/
  | identifier
  /-- A run of digits. -/
  | number
  /-- A text without its quotes. -/
  | text
  /-- A comparison. -/
  | operator
  | comma
  | leftParen
  | rightParen
  | semicolon
  | asterisk
  | dot
  deriving DecidableEq, Repr

/-- The name of a kind in messages. -/
def Token.Kind.label : Token.Kind → String
  | .keyword => "KEYWORD"
  | .identifier => "IDENTIFIER"
  | .number => "NUMBER"
  | .text => "STRING"
  | .operator => "OPERATOR"
  | .comma => "COMMA"
  | .leftParen => "LPAREN"
  | .rightParen => "RPAREN"
  | .semicolon => "SEMICOLON"
  | .asterisk => "ASTERISK"
  | .dot => "DOT"

/-- A word or mark of a statement. -/
structure Token where
  kind : Token.Kind
  text : String
  deriving DecidableEq, Repr

/-- The reserved words. -/
def keywords : List String :=
  ["SELECT", "FROM", "WHERE", "INSERT", "INTO", "VALUES", "UPDATE", "SET", "DELETE", "CREATE",
   "DROP", "TABLE", "PRIMARY", "KEY", "INTEGER", "TEXT", "BOOLEAN", "TRUE", "FALSE", "AND", "OR",
   "INNER", "JOIN", "ON"]

namespace Token

/-- A token as messages show it. -/
def describe (t : Token) : String :=
  t.kind.label ++ " " ++ Text.quoted t.text

/-- The token of a word: a reserved word in any mix of letter case is a keyword, and every other
word is a name, which keeps its case. -/
def ofWord (word : List Char) : Token :=
  let upper := String.ofList (word.map Char.toUpper)
  if upper ∈ keywords then ⟨.keyword, upper⟩ else ⟨.identifier, String.ofList word⟩

end Token

/-- The tokens that one place of the grammar admits. -/
inductive Terminal where
  /-- Every token of a kind. -/
  | anyOf (kind : Token.Kind)
  /-- One token. -/
  | only (token : Token)
  deriving DecidableEq, Repr

namespace Terminal

/-- The reserved word, and nothing else. -/
def word (keyword : String) : Terminal :=
  .only ⟨.keyword, keyword⟩

/-- The sign of equality, which also assigns. -/
def equals : Terminal :=
  .only ⟨.operator, "="⟩

/-- Whether a place admits a token. -/
def admits : Terminal → Token → Bool
  | .anyOf kind, t => t.kind == kind
  | .only token, t => t == token

/-- What messages say was wanted at a place. -/
def describe : Terminal → String
  | .anyOf kind => kind.label
  | .only token => Text.quoted token.text

end Terminal

end TableStore.Sql
