import TableStore.Json.Basic
import TableStore.Json.Lexeme

/-!
# Reading JSON

A tree is read from its lexemes from left to right. The places that still wait for a value are kept
in a list, innermost first, so arrays and objects may be nested to any depth.

* `Json.Hole` — a place that waits for a value.
* `Json.value?`, `Json.filled?` — read a value, and go on behind one.
* `Json.read?` — the tree that bytes are the text of, with its texts not yet decoded.
-/

namespace TableStore.Json

/-- A place that waits for a value: in an array behind some items, or in an object behind some
members and a key. -/
inductive Hole (τ : Type) where
  | item (before : List (Json τ))
  | member (before : List (τ × Json τ)) (key : τ)

mutual

/-- Reads a value for the innermost hole, or the whole tree if there is none. -/
def value? (holes : List (Hole (List Letter))) : List Lexeme → Option (Json (List Letter))
  | .null :: rest => filled? .null holes rest
  | .boolean b :: rest => filled? (.boolean b) holes rest
  | .number numeral :: rest => filled? (.number numeral) holes rest
  | .text letters :: rest => filled? (.text letters) holes rest
  | .leftBracket :: .rightBracket :: rest => filled? (.array []) holes rest
  | .leftBracket :: rest => value? (.item [] :: holes) rest
  | .leftBrace :: .rightBrace :: rest => filled? (.object []) holes rest
  | .leftBrace :: .text key :: .colon :: rest => value? (.member [] key :: holes) rest
  | _ => none

/-- Goes on behind a value that fills the innermost hole. -/
def filled? (json : Json (List Letter)) (holes : List (Hole (List Letter))) :
    List Lexeme → Option (Json (List Letter))
  | [] =>
    match holes with
    | [] => some json
    | _ :: _ => none
  | .comma :: .text key :: .colon :: rest =>
    match holes with
    | .member before last :: holes => value? (.member (before ++ [(last, json)]) key :: holes) rest
    | _ => none
  | .comma :: rest =>
    match holes with
    | .item before :: holes => value? (.item (before ++ [json]) :: holes) rest
    | _ => none
  | .rightBracket :: rest =>
    match holes with
    | .item before :: holes => filled? (.array (before ++ [json])) holes rest
    | _ => none
  | .rightBrace :: rest =>
    match holes with
    | .member before last :: holes => filled? (.object (before ++ [(last, json)])) holes rest
    | _ => none
  | _ => none

end

/-- The tree that bytes are the text of, with its texts as they are written. -/
def read? (bytes : List UInt8) : Option (Json (List Letter)) :=
  (lexemes? (Utf8.symbols bytes)).bind (value? [])

end TableStore.Json
