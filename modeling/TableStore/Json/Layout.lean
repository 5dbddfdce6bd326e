import TableStore.Json.Basic

/-!
# Writing JSON

A JSON tree is written in one of two layouts, which differ in the blanks between its lexemes only.

* `Json.Layout` — where blanks stand; `Json.Layout.compact` has none, and `Json.Layout.indented`
  gives each item and member a line of its own, two spaces deeper than the line it belongs to.
* `Json.quote` — a text between quotes, with its escapes.
* `Json.write` — the text of a tree.
-/

namespace TableStore.Json

/-- Where blanks stand in the text of a tree. -/
structure Layout where
  /-- What stands before an item, a member or a closing bracket at a depth. -/
  gap : Nat → List Char
  /-- What stands between a colon and the value of a member. -/
  afterColon : List Char

namespace Layout

/-- No blanks at all. -/
def compact : Layout :=
  ⟨fun _ => [], []⟩

/-- Each item and member on a line of its own. -/
def indented : Layout :=
  ⟨fun depth => '\n' :: List.replicate (2 * depth) ' ', [' ']⟩

end Layout

/-- A character of a text. Quotes, backslashes and control characters are escaped. -/
def escape (c : Char) : List Char :=
  if c = '"' || c = '\\' then ['\\', c]
  else if c = '\x08' then ['\\', 'b']
  else if c = '\x0c' then ['\\', 'f']
  else if c = '\n' then ['\\', 'n']
  else if c = '\r' then ['\\', 'r']
  else if c = '\t' then ['\\', 't']
  else if c.toNat < 0x20 then
    ['\\', 'u', '0', '0', Nat.digitChar (c.toNat / 16), Nat.digitChar (c.toNat % 16)]
  else [c]

/-- A text between quotes. -/
def quote (s : String) : List Char :=
  '"' :: (s.toList.flatMap escape ++ ['"'])

mutual

/-- Writes a tree at a depth. An array or object without content stays on its line. -/
def print (layout : Layout) (depth : Nat) : Json String → List Char
  | .null => "null".toList
  | .boolean true => "true".toList
  | .boolean false => "false".toList
  | .number numeral => numeral.toList
  | .text s => quote s
  | .array [] => ['[', ']']
  | .array (item :: items) =>
    '[' :: (layout.gap (depth + 1) ++ print layout (depth + 1) item ++
      moreItems layout (depth + 1) items ++ layout.gap depth ++ [']'])
  | .object [] => ['\x7b', '\x7d']
  | .object ((key, value) :: members) =>
    '\x7b' :: (layout.gap (depth + 1) ++ quote key ++ ':' :: layout.afterColon ++
      print layout (depth + 1) value ++ moreMembers layout (depth + 1) members ++
      layout.gap depth ++ ['\x7d'])

/-- The items behind the first, each after a comma. -/
def moreItems (layout : Layout) (depth : Nat) : List (Json String) → List Char
  | [] => []
  | item :: items =>
    ',' :: (layout.gap depth ++ print layout depth item ++ moreItems layout depth items)

/-- The members behind the first, each after a comma. -/
def moreMembers (layout : Layout) (depth : Nat) : List (String × Json String) → List Char
  | [] => []
  | (key, value) :: members =>
    ',' :: (layout.gap depth ++ quote key ++ ':' :: layout.afterColon ++
      print layout depth value ++ moreMembers layout depth members)

end

/-- The text of a tree. -/
def write (layout : Layout) (json : Json String) : String :=
  String.ofList (print layout 0 json)

end TableStore.Json
