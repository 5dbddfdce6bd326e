/-!
# UTF-8

A sequence of bytes spells characters, except where a byte belongs to no well-formed character. Such
a byte is kept as it is: a reader that skips a part of its input need not care what the part spells.

* `Utf8.Symbol` — a character, or a byte that belongs to none.
* `Utf8.symbols` — what a sequence of bytes spells.
* `Utf8.text?` — the text that it spells, if it is well formed throughout.
-/

namespace TableStore.Utf8

/-- A character, or a byte that belongs to no well-formed character. -/
inductive Symbol where
  | char (c : Char)
  | stray (byte : UInt8)
  deriving DecidableEq, Repr

/-- What bytes spell, from left to right. A character takes at most four bytes. -/
def symbols : List UInt8 → List Symbol
  | [] => []
  | byte :: rest =>
    match ((byte :: rest).take 4).toByteArray.utf8DecodeChar? 0 with
    | some c => .char c :: symbols (rest.drop (c.utf8Size - 1))
    | none => .stray byte :: symbols rest
termination_by bytes => bytes.length

/-- The characters of a sequence without stray bytes. -/
def chars? : List Symbol → Option (List Char)
  | [] => some []
  | .char c :: rest => (chars? rest).map (c :: ·)
  | .stray _ :: _ => none

/-- The text that bytes spell, unless a byte is stray. -/
def text? (bytes : List UInt8) : Option String :=
  (chars? (symbols bytes)).map String.ofList

end TableStore.Utf8
