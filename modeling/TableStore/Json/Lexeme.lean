import TableStore.Text.Utf8

/-!
# The lexemes of JSON

JSON text as a sequence of brackets, marks, words, numerals and texts. The lexer works on what bytes
spell and does not decode texts: it only sees to it that escapes are complete and that no control
character stands in a text. What a text spells is found by `Json.decode?`, which refuses stray bytes
and halves of surrogate pairs.

* `Json.Lexeme`, `Json.lexemes?` — the lexemes of a sequence of symbols.
* `Json.Letter`, `Json.decode?` — a text as it is written, and the text that it spells.
* `Json.isNumeral` — the form of a number.
-/

namespace TableStore.Json

open Utf8 (Symbol)

/-- A unit of a text as it is written. -/
inductive Letter where
  /-- What stands there itself, or behind a backslash. -/
  | plain (symbol : Symbol)
  /-- A code unit of UTF-16, given by four hexadecimal digits. -/
  | codeUnit (value : Nat)
  deriving DecidableEq, Repr

/-- A bracket, mark, word, numeral or text. -/
inductive Lexeme where
  | leftBracket
  | rightBracket
  | leftBrace
  | rightBrace
  | colon
  | comma
  | null
  | boolean (b : Bool)
  | number (numeral : String)
  | text (letters : List Letter)
  deriving DecidableEq, Repr

/-! ## Texts -/

/-- The value of a hexadecimal digit in either letter case. -/
def hexDigit? (c : Char) : Option Nat :=
  if c.isDigit then some (c.toNat - '0'.toNat)
  else if 'a' ≤ c && c ≤ 'f' then some (c.toNat - 'a'.toNat + 10)
  else if 'A' ≤ c && c ≤ 'F' then some (c.toNat - 'A'.toNat + 10)
  else none

/-- The value of a symbol that is a hexadecimal digit. -/
def hexSymbol? : Symbol → Option Nat
  | .char c => hexDigit? c
  | .stray _ => none

/-- The value of four hexadecimal digits. -/
def codeUnit? (a b c d : Symbol) : Option Nat := do
  return ((16 * (← hexSymbol? a) + (← hexSymbol? b)) * 16 + (← hexSymbol? c)) * 16 +
    (← hexSymbol? d)

/-- What a backslash and a character other than `u` stand for. -/
def shortEscape? (c : Char) : Option Char :=
  match c with
  | '"' => some '"'
  | '\\' => some '\\'
  | '/' => some '/'
  | 'b' => some '\x08'
  | 'f' => some '\x0c'
  | 'n' => some '\n'
  | 'r' => some '\r'
  | 't' => some '\t'
  | _ => none

/-- The letters of a text up to its closing quote, and what follows the quote. -/
def letters? : List Symbol → Option (List Letter × List Symbol)
  | [] => none
  | .stray byte :: rest => do
    let (letters, after) ← letters? rest
    return (.plain (.stray byte) :: letters, after)
  | .char c :: rest =>
    if c = '"' then some ([], rest)
    else if c.toNat < 0x20 then none
    else if c = '\\' then
      match rest with
      | .char e :: rest =>
        if e = 'u' then
          match rest with
          | h₁ :: h₂ :: h₃ :: h₄ :: rest => do
            let value ← codeUnit? h₁ h₂ h₃ h₄
            let (letters, after) ← letters? rest
            return (.codeUnit value :: letters, after)
          | _ => none
        else do
          let meant ← shortEscape? e
          let (letters, after) ← letters? rest
          return (.plain (.char meant) :: letters, after)
      | _ => none
    else do
      let (letters, after) ← letters? rest
      return (.plain (.char c) :: letters, after)

/-- Whether a code unit is the first half of a surrogate pair. -/
def isLeading (value : Nat) : Bool :=
  0xd800 ≤ value && value < 0xdc00

/-- Whether a code unit is the second half of a surrogate pair. -/
def isTrailing (value : Nat) : Bool :=
  0xdc00 ≤ value && value < 0xe000

/-- The characters that letters spell. Two halves of a surrogate pair make one character; a stray
byte or a half alone makes none. -/
def chars? : List Letter → Option (List Char)
  | [] => some []
  | .plain (.char c) :: rest => (chars? rest).map (c :: ·)
  | .plain (.stray _) :: _ => none
  | .codeUnit high :: rest =>
    if isLeading high then
      match rest with
      | .codeUnit low :: rest =>
        if isTrailing low then
          (chars? rest).map (Char.ofNat (0x10000 + (high - 0xd800) * 0x400 + (low - 0xdc00)) :: ·)
        else none
      | _ => none
    else if isTrailing high then none
    else (chars? rest).map (Char.ofNat high :: ·)

/-- The text that letters spell. -/
def decode? (letters : List Letter) : Option String :=
  (chars? letters).map String.ofList

/-! ## Numbers -/

/-- An exponent, which may be left out. -/
def isExponent : List Char → Bool
  | [] => true
  | mark :: rest =>
    let digits := match rest with
      | [] => []
      | sign :: digits => if sign = '+' || sign = '-' then digits else sign :: digits
    (mark == 'e' || mark == 'E') && !digits.isEmpty && digits.all Char.isDigit

/-- A fraction, which may be left out, and an exponent. -/
def isFraction : List Char → Bool
  | [] => true
  | c :: rest =>
    if c = '.' then
      !(rest.takeWhile Char.isDigit).isEmpty && isExponent (rest.dropWhile Char.isDigit)
    else isExponent (c :: rest)

/-- A number without a sign; a leading zero stands alone before the fraction. -/
def isUnsigned : List Char → Bool
  | [] => false
  | c :: rest =>
    if c = '0' then isFraction rest else c.isDigit && isFraction (rest.dropWhile Char.isDigit)

/-- Whether characters have the form of a number. -/
def isNumeral : List Char → Bool
  | [] => false
  | c :: rest => if c = '-' then isUnsigned rest else isUnsigned (c :: rest)

/-! ## Lexemes -/

/-- The characters at the head of a sequence that satisfy `p`, and the rest. -/
def run (p : Char → Bool) : List Symbol → List Char × List Symbol
  | [] => ([], [])
  | .stray byte :: rest => ([], .stray byte :: rest)
  | .char c :: rest =>
    if p c then (c :: (run p rest).1, (run p rest).2) else ([], .char c :: rest)

/-- Whether a character may stand in a number. -/
def isNumeric (c : Char) : Bool :=
  c.isDigit || c == '-' || c == '+' || c == '.' || c == 'e' || c == 'E'

/-- Whether a character may stand between lexemes. -/
def isSpace (c : Char) : Bool :=
  c == ' ' || c == '\t' || c == '\n' || c == '\r'

/-- A lexeme of one character. -/
def single? (c : Char) : Option Lexeme :=
  match c with
  | '[' => some .leftBracket
  | ']' => some .rightBracket
  | '\x7b' => some .leftBrace
  | '\x7d' => some .rightBrace
  | ':' => some .colon
  | ',' => some .comma
  | _ => none

/-- The lexeme of a word. -/
def word? (letters : List Char) : Option Lexeme :=
  [("null", Lexeme.null), ("true", .boolean true), ("false", .boolean false)].lookup
    (String.ofList letters)

/-- The lexeme that starts with `c` and goes on in `rest`, and what follows it. -/
def next? (c : Char) (rest : List Symbol) : Option (Lexeme × List Symbol) :=
  match single? c with
  | some lexeme => some (lexeme, rest)
  | none =>
    if c = '"' then (letters? rest).map fun (letters, after) => (.text letters, after)
    else if c = '-' || c.isDigit then
      if isNumeral (c :: (run isNumeric rest).1) then
        some (.number (String.ofList (c :: (run isNumeric rest).1)), (run isNumeric rest).2)
      else none
    else (word? (c :: (run Char.isLower rest).1)).map (·, (run Char.isLower rest).2)

theorem length_letters?_le {symbols after : List Symbol} {letters : List Letter}
    (h : letters? symbols = some (letters, after)) : after.length ≤ symbols.length := by
  fun_induction letters? symbols generalizing letters <;>
    simp_all [Option.bind_eq_some_iff] <;> grind

theorem length_run_le (p : Char → Bool) (symbols : List Symbol) :
    (run p symbols).2.length ≤ symbols.length := by
  fun_induction run p symbols with
  | case1 => simp
  | case2 => simp
  | case3 c rest _ ih =>
    simp only [List.length_cons]
    omega
  | case4 => simp

/-- Reading a lexeme leaves no more than what follows its first character. -/
theorem length_next?_le {c : Char} {rest after : List Symbol} {lexeme : Lexeme}
    (h : next? c rest = some (lexeme, after)) : after.length ≤ rest.length := by
  unfold next? at h
  split at h
  · simp_all
  split at h
  · obtain ⟨⟨letters, last⟩, hl, heq⟩ := Option.map_eq_some_iff.mp h
    cases heq
    exact length_letters?_le hl
  split at h
  · split at h <;> cases h
    exact length_run_le _ _
  · obtain ⟨_, _, heq⟩ := Option.map_eq_some_iff.mp h
    cases heq
    exact length_run_le _ _

set_option linter.unusedVariables false in
/-- The lexemes of a sequence, unless it contains something else. -/
def lexemes? : List Symbol → Option (List Lexeme)
  | [] => some []
  | .stray _ :: _ => none
  | .char c :: rest =>
    if isSpace c then lexemes? rest
    else
      match h : next? c rest with
      | none => none
      | some (lexeme, after) => (lexemes? after).map (lexeme :: ·)
termination_by symbols => symbols.length
decreasing_by
  · simp
  · have := length_next?_le h
    simp only [List.length_cons]
    omega

end TableStore.Json
