import TableStore.Sql.Lexer
import TableStore.Sql.Statement

/-!
# From tokens to statements

A statement is read from left to right with one token of foresight. The first token that fits no
rule ends the reading; the tokens that are left are kept then too, so that a later reading can go
on.

* `Sql.Rule` — a rule of the grammar: what it reads, or why it refuses, and the tokens left.
* `Sql.Rule.statement` — a whole statement, with at most one semicolon and nothing behind it.
* `Sql.Statement.ofTokens`, `Sql.Statement.ofText` — the statement of a token list and of a text.
-/

namespace TableStore.Sql

/-- A rule of the grammar, on the tokens that are left. -/
abbrev Rule (α : Type) := EStateM SyntaxError (List Token) α

namespace Rule

/-! ## Single tokens -/

/-- The next token, which stays. -/
def peek : Rule (Option Token) :=
  return (← get).head?

/-- Whether the next token is one of those that a place admits. -/
def looksAt (place : Terminal) : Rule Bool :=
  return (← peek).any place.admits

/-- The next token, whatever it is. -/
def take : Rule Token := do
  match ← get with
  | [] => throw .endOfInput
  | token :: rest => set rest; return token

/-- The next token, which has to be one of those that a place admits; if it is not, it stays. -/
def expect (place : Terminal) : Rule Token := do
  match ← get with
  | [] => throw (.expected place none)
  | token :: rest =>
    if place.admits token then set rest; return token
    else throw (.expected place (some token))

/-- A reserved word. -/
def word (keyword : String) : Rule Unit :=
  discard (expect (.word keyword))

/-- A mark that is a token by itself. -/
def mark (kind : Token.Kind) : Rule Unit :=
  discard (expect (.anyOf kind))

/-- The name of a table or a column. -/
def identifier : Rule String :=
  return (← expect (.anyOf .identifier)).text

/-! ## Lists -/

/-- What `item` reads, as often as a comma stands in front of it, at most `bound` times. -/
def afterCommas {α : Type} (item : Rule α) : Nat → Rule (List α)
  | 0 => return []
  | bound + 1 => do
    if ← looksAt (.anyOf .comma) then
      discard take
      let x ← item
      return x :: (← afterCommas item bound)
    else return []

/-- One or more of what `item` reads, with commas between them. Each comma is a token, so their
number bounds the length of the list. -/
def commaSeparated {α : Type} (item : Rule α) : Rule (List α) := do
  let x ← item
  return x :: (← afterCommas item (← get).length)

/-- What `item` reads, between parentheses. -/
def parenthesised {α : Type} (item : Rule α) : Rule α := do
  mark .leftParen
  let x ← item
  mark .rightParen
  return x

/-! ## Parts of statements -/

/-- The type of a column. A keyword that is no type is read before it is refused. -/
def columnType : Rule ValueType := do
  let token ← expect (.anyOf .keyword)
  match ValueType.ofKeyword? token.text with
  | some type => return type
  | none => throw (.notColumnType token)

/-- A literal: a text, an integer or a truth value. Any token is read before it is refused. -/
def literal : Rule Value := do
  let token ← take
  match token.kind with
  | .text => return .text token.text
  | .number =>
    match Decimal.read token.text.toList with
    | .ok n => return .integer n
    | .error fault => throw (.numberToken fault)
  | .keyword =>
    if token.text = "TRUE" then return .boolean true
    else if token.text = "FALSE" then return .boolean false
    else throw (.notLiteral token)
  | _ => throw (.notLiteral token)

/-- A comparison. An operator that is none is read before it is refused. -/
def comparison : Rule Comparison := do
  let token ← expect (.anyOf .operator)
  match Comparison.ofSymbol? token.text with
  | some op => return op
  | none => throw (.unknownOperator token)

/-- A column's name, which may follow a table's name and a dot. -/
def reference : Rule String := do
  let first ← identifier
  if ← looksAt (.anyOf .dot) then
    discard take
    return first ++ "." ++ (← identifier)
  else return first

/-- A condition, which may be left out. -/
def condition : Rule Predicate := do
  if ← looksAt (.word "WHERE") then
    discard take
    let column ← identifier
    let op ← comparison
    return .test column op (← literal)
  else return .always

/-- A column of a table to be created. -/
def declaration : Rule Declaration := do
  let name ← identifier
  let type ← columnType
  if ← looksAt (.word "PRIMARY") then
    discard take
    word "KEY"
    return ⟨⟨name, type⟩, true⟩
  else return ⟨⟨name, type⟩, false⟩

/-! ## Statements -/

/-- The statement `CREATE TABLE name (column, …)`. -/
def createTable : Rule Statement := do
  word "CREATE"
  word "TABLE"
  let table ← identifier
  return .createTable table (← parenthesised (commaSeparated declaration))

/-- The statement `DROP TABLE name`. -/
def dropTable : Rule Statement := do
  word "DROP"
  word "TABLE"
  return .dropTable (← identifier)

/-- The column list of an insertion, which may be left out. -/
def insertColumns : Rule (Option (List String)) := do
  if ← looksAt (.anyOf .leftParen) then
    return some (← parenthesised (commaSeparated identifier))
  else return none

/-- The statement `INSERT INTO name [(column, …)] VALUES (literal, …), …`. -/
def insert : Rule Statement := do
  word "INSERT"
  word "INTO"
  let table ← identifier
  let columns ← insertColumns
  word "VALUES"
  return .insert table columns (← commaSeparated (parenthesised (commaSeparated literal)))

/-- An asterisk, or column names. -/
def projection : Rule Projection := do
  if ← looksAt (.anyOf .asterisk) then
    discard take
    return .all
  else return .columns (← commaSeparated identifier)

/-- A second table, `INNER JOIN name ON reference = reference`, which may be left out. -/
def join : Rule (Option Join) := do
  if ← looksAt (.word "INNER") then
    discard take
    word "JOIN"
    let table ← identifier
    word "ON"
    let left ← reference
    discard (expect .equals)
    return some ⟨table, left, ← reference⟩
  else return none

/-- The statement `SELECT columns FROM name [join] [condition]`. -/
def select : Rule Statement := do
  word "SELECT"
  let columns ← projection
  word "FROM"
  let table ← identifier
  let second ← join
  return .select columns table second (← condition)

/-- An assignment, `column = literal`. -/
def assignment : Rule Assignment := do
  let column ← identifier
  discard (expect .equals)
  return ⟨column, ← literal⟩

/-- The statement `UPDATE name SET assignment, … [condition]`. -/
def update : Rule Statement := do
  word "UPDATE"
  let table ← identifier
  word "SET"
  let assignments ← commaSeparated assignment
  return .update table assignments (← condition)

/-- The statement `DELETE FROM name [condition]`. -/
def delete : Rule Statement := do
  word "DELETE"
  word "FROM"
  let table ← identifier
  return .delete table (← condition)

/-- The rule of the statement that a keyword starts. -/
def ofKeyword? (keyword : String) : Option (Rule Statement) :=
  [("CREATE", createTable), ("DROP", dropTable), ("INSERT", insert), ("SELECT", select),
   ("UPDATE", update), ("DELETE", delete)].lookup keyword

/-- The statement that the next token starts. A token that starts none stays. -/
def body : Rule Statement := do
  match ← peek with
  | none => throw .emptyStatement
  | some token =>
    if token.kind = .keyword then
      match ofKeyword? token.text with
      | some rule => rule
      | none => throw (.unexpectedKeyword token.text)
    else throw (.unexpectedToken token)

/-- A statement, at most one semicolon, and nothing else. -/
def statement : Rule Statement := do
  let found ← body
  if ← looksAt (.anyOf .semicolon) then discard take
  match ← peek with
  | none => return found
  | some token => throw (.trailingToken token)

end Rule

namespace Statement

/-- The statement that tokens make, or why they make none, and the tokens left. -/
def ofTokens (tokens : List Token) : EStateM.Result SyntaxError (List Token) Statement :=
  Rule.statement.run tokens

/-- The statement of a text, or why it is none. -/
def ofText (text : String) : Except SyntaxError Statement :=
  match Lexer.tokens text.toList with
  | .error cause _ => .error cause
  | .ok tokens _ =>
    match ofTokens tokens with
    | .ok found _ => .ok found
    | .error cause _ => .error cause

end Statement

end TableStore.Sql
