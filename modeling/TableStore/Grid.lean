import TableStore.Data.Row

/-!
# Rows as a grid of text

Rows are shown as lines: the column names, a rule, and a line for each row, all with the same column
widths, and at last the number of rows. The first row says which columns there are.

* `Grid.width` — the width of a column: the length of its longest text.
* `Grid.render` — the text of some rows.
-/

namespace TableStore.Grid

/-- The texts of a row's values. -/
def cells (row : Row) : List (List Char) :=
  row.values.map (·.display.toList)

/-- The length of the longest text in the column at a position, and at least of its header. -/
def width (lines : List (List (List Char))) (header : List Char) (position : Nat) : Nat :=
  (lines.filterMap (·[position]?)).foldl (fun widest cell => max widest cell.length) header.length

/-- A text with blanks behind it up to a width. -/
def pad (text : List Char) (width : Nat) : List Char :=
  text ++ List.replicate (width - text.length) ' '

/-- A line of texts, each padded to the width of its column. Texts without a column are left out. -/
def line (widths : List Nat) (texts : List (List Char)) : List Char :=
  " | ".toList.intercalate (List.zipWith pad texts widths)

/-- The line between the column names and the rows. -/
def rule (widths : List Nat) : List Char :=
  "-+-".toList.intercalate (widths.map fun width => List.replicate width '-')

/-- The number of rows. -/
def footer (count : Nat) : List Char :=
  ("(" ++ toString count ++ " rows)").toList

/-- The text of some rows. Without rows there are no columns to show. -/
def render : List Row → String
  | [] => String.ofList (footer 0)
  | first :: others =>
    let headers := first.columns.map String.toList
    let lines := (first :: others).map cells
    let widths := headers.zipIdx.map fun (header, position) => width lines header position
    let shown := line widths headers :: rule widths :: lines.map (line widths)
    String.ofList (shown.flatMap (· ++ ['\n']) ++ footer lines.length)

end TableStore.Grid
