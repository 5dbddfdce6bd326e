import TableStore.Sql.Token
import TableStore.Text.Decimal

/-!
# Why a text is no statement

The causes for which the lexer or the grammar refuses a text, and their wording.

* `Sql.SyntaxError` — a cause.
* `Sql.SyntaxError.message` — its wording.
-/

namespace TableStore.Sql

/-- Why a text is no statement. -/
inductive SyntaxError where
  /-- No token starts with the character. -/
  | unexpectedCharacter (c : Char)
  /-- A run of digits denotes no integer. -/
  | integerLiteral (digits : String) (fault : Decimal.Fault)
  /-- A text has no closing quote. -/
  | unterminatedText
  /-- There is no token at all. -/
  | emptyStatement
  /-- The first token is no keyword. -/
  | unexpectedToken (token : Token)
  /-- The first keyword starts no statement. -/
  | unexpectedKeyword (word : String)
  /-- A token follows a complete statement. -/
  | trailingToken (token : Token)
  /-- The tokens end where one is needed. -/
  | endOfInput
  /-- A place of the grammar admits other tokens than the one found, or found none. -/
  | expected (wanted : Terminal) (found : Option Token)
  /-- A keyword stands for no column type. -/
  | notColumnType (token : Token)
  /-- The text of a number token denotes no integer. -/
  | numberToken (fault : Decimal.Fault)
  /-- A token is no literal. -/
  | notLiteral (token : Token)
  /-- An operator token is no comparison. -/
  | unknownOperator (token : Token)
  deriving DecidableEq, Repr

/-- The wording of a cause. -/
def SyntaxError.message : SyntaxError → String
  | .unexpectedCharacter c => "unexpected character: " ++ Text.quotedChar c
  | .integerLiteral digits fault => "invalid integer literal " ++ digits ++ ": " ++ fault.message
  | .unterminatedText => "unterminated string literal"
  | .emptyStatement => "empty statement"
  | .unexpectedToken token => "unexpected token: " ++ token.describe
  | .unexpectedKeyword word => "unexpected keyword: " ++ word
  | .trailingToken token => "unexpected token after statement: " ++ token.describe
  | .endOfInput => "unexpected end of input"
  | .expected wanted found =>
    "expected " ++ wanted.describe ++ ", found " ++ (found.map Token.describe).getD "end of input"
  | .notColumnType token => token.describe ++ " is not a column type"
  | .numberToken fault => fault.message
  | .notLiteral token => "expected a literal, found " ++ token.describe
  | .unknownOperator token => "unknown operator " ++ token.describe

end TableStore.Sql
