import TableStore.Sql.SyntaxError
import TableStore.Text.Blank

/-!
# From text to tokens

A text is a sequence of tokens with blanks between them. Each token is the longest one that the text
continues with. When the text continues with no token, the cause is returned together with the rest
of the text, from which a later reading goes on.

* `Sql.Lexer.next` — the token at the head of a text, and the rest.
* `Sql.Lexer.tokens` — the tokens of a whole text.
* `Sql.Lexer.next_rest_length_le` — reading a token never lengthens the rest, so the reading ends.
-/

namespace TableStore.Sql.Lexer

/-- What reading yields: an answer or a cause, and the rest of the text in both cases. -/
abbrev Reading (α : Type) := EStateM.Result SyntaxError (List Char) α

/-! ## Characters -/

/-- Whether a word may start with the character. -/
def isWordStart (c : Char) : Bool :=
  c.isAlpha || c == '_'

/-- Whether a word may go on with the character. -/
def isWordPart (c : Char) : Bool :=
  c.isAlphanum || c == '_'

/-- The kind of a mark that is a token by itself. -/
def punctuation? (c : Char) : Option Token.Kind :=
  match c with
  | ',' => some .comma
  | '(' => some .leftParen
  | ')' => some .rightParen
  | ';' => some .semicolon
  | '*' => some .asterisk
  | '.' => some .dot
  | _ => none

/-! ## Single tokens -/

/-- A text up to the closing `quote`. There are no escapes: the text ends at the first such quote.
-/
def quotedText (quote : Char) (rest : List Char) : Reading Token :=
  match rest.dropWhile (· ≠ quote) with
  | [] => .error .unterminatedText []
  | _ :: after => .ok ⟨.text, String.ofList (rest.takeWhile (· ≠ quote))⟩ after

/-- A run of digits, which has to denote an integer. -/
def number (cs : List Char) : Reading Token :=
  let digits := cs.takeWhile Char.isDigit
  let after := cs.dropWhile Char.isDigit
  match Decimal.read digits with
  | .ok _ => .ok ⟨.number, String.ofList digits⟩ after
  | .error fault => .error (.integerLiteral (String.ofList digits) fault) after

/-- A comparison; one of two characters wins over one of a single character. -/
def operator (c : Char) (rest : List Char) : Reading Token :=
  match rest with
  | '=' :: after =>
    if c = '=' then .ok ⟨.operator, "="⟩ rest
    else .ok ⟨.operator, String.ofList [c, '=']⟩ after
  | _ =>
    if c = '!' then .error (.unexpectedCharacter c) (c :: rest)
    else .ok ⟨.operator, String.singleton c⟩ rest

/-- The token that starts with `c` and goes on in `rest`. -/
def next (c : Char) (rest : List Char) : Reading Token :=
  if c = '\'' || c = '"' then quotedText c rest
  else if c.isDigit then number (c :: rest)
  else if c = '!' || c = '<' || c = '>' || c = '=' then operator c rest
  else if isWordStart c then
    .ok (Token.ofWord (c :: rest.takeWhile isWordPart)) (rest.dropWhile isWordPart)
  else
    match punctuation? c with
    | some kind => .ok ⟨kind, String.singleton c⟩ rest
    | none => .error (.unexpectedCharacter c) (c :: rest)

/-! ## Whole texts -/

theorem length_dropWhile_le {α : Type} (p : α → Bool) (xs : List α) :
    (xs.dropWhile p).length ≤ xs.length :=
  (List.dropWhile_sublist p).length_le

/-- Reading a token leaves no more than what follows its first character. -/
theorem next_rest_length_le {c : Char} {rest after : List Char} {token : Token}
    (h : next c rest = .ok token after) : after.length ≤ rest.length := by
  unfold next at h
  split at h
  · unfold quotedText at h
    have hle := length_dropWhile_le (· ≠ c) rest
    split at h
    · cases h
    · rename_i x tail htail
      cases h
      rw [htail] at hle
      simp only [List.length_cons] at hle
      omega
  split at h
  · rename_i hdigit
    unfold number at h
    simp only [List.dropWhile_cons, hdigit, ↓reduceIte] at h
    split at h <;> cases h
    exact length_dropWhile_le _ _
  split at h
  · unfold operator at h
    split at h <;> split at h <;> cases h <;> simp
  split at h
  · cases h
    exact length_dropWhile_le _ _
  split at h <;> cases h
  exact Nat.le_refl _

set_option linter.unusedVariables false in
/-- The tokens of a text. Blanks are skipped before each token, also before one that is refused. -/
def tokens (cs : List Char) : Reading (List Token) :=
  match hcs : cs.dropWhile Text.isBlank with
  | [] => .ok [] []
  | c :: rest =>
    match hnext : next c rest with
    | .error cause after => .error cause after
    | .ok token after =>
      match tokens after with
      | .ok more last => .ok (token :: more) last
      | .error cause last => .error cause last
termination_by cs.length
decreasing_by
  have hle := length_dropWhile_le Text.isBlank cs
  have hafter := next_rest_length_le hnext
  rw [hcs, List.length_cons] at hle
  omega

end TableStore.Sql.Lexer
