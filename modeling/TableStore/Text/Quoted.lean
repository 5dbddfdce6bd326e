import TableStore.Text.Printable

/-!
# Quoted text

Messages show characters and texts between quotes, in a form that a terminal can always print: NUL,
tab, line feed, carriage return, the backslash and the quote itself have short escapes, and every
other character that is not printable is written by its code point.

* `Text.escaped` — one character between given quotes.
* `Text.quotedChar`, `Text.quoted` — a character in single quotes, a text in double quotes.
-/

namespace TableStore.Text

/-- The code point in lower-case hexadecimal, between braces. -/
def codePoint (c : Char) : List Char :=
  '\\' :: 'u' :: '\x7b' :: (Nat.toDigits 16 c.toNat ++ ['\x7d'])

/-- A character as it stands between two `quote`s. -/
def escaped (quote c : Char) : List Char :=
  if c = '\x00' then ['\\', '0']
  else if c = '\t' then ['\\', 't']
  else if c = '\r' then ['\\', 'r']
  else if c = '\n' then ['\\', 'n']
  else if c = '\\' || c = quote then ['\\', c]
  else if isPrintable c then [c]
  else codePoint c

/-- A character in single quotes; a double quote needs no escape there. -/
def quotedChar (c : Char) : String :=
  String.ofList ('\'' :: (escaped '\'' c ++ ['\'']))

/-- A text in double quotes; a single quote needs no escape there. -/
def quoted (s : String) : String :=
  String.ofList ('"' :: (s.toList.flatMap (escaped '"') ++ ['"']))

end TableStore.Text
