import TableStore.Proofs.Grid.Lines
import TableStore.Proofs.Session.Integrity
import TableStore.Proofs.Session.Replies

/-!
# The columns of a grid are aligned

The columns of a grid start and end at the same places in all of its lines, whatever is in the texts:
they are cut by their lengths alone, and blanks, bars and line feeds in a text count like other
characters. Rows of different lengths show what there is a column for. If all rows have the same number
of columns, as those of a selection do, then all lines are of one length.

* `Grid.Aligned` — the lines of a grid, cut by the widths of its columns.
* `Grid.lines_aligned` — the text of any rows consists of such lines.
-/

namespace TableStore.Grid

/-- The lines of a grid for a first row and others: the column names, the rule and a line for each row,
which all are cut by the same widths. No column is wider than its texts need. -/
structure Aligned (first : Row) (others : List Row) (widths : List Nat) (top rule : List Char)
    (lines : List (List Char)) : Prop where
  length_widths : widths.length = first.columns.length
  isLeast {position width : Nat} {header : String}
    (hheader : first.columns[position]? = some header)
    (hwidth : widths[position]? = some width) :
    IsLeast {bound | WideEnough (first :: others) position header bound} width
  top : Shows widths (first.columns.map String.toList) top
  rule : IsRule widths rule
  lines : List.Forall₂ (fun row line => Shows widths (row.values.map (·.display.toList)) line)
    (first :: others) lines

theorem length_cells (row : Row) : (cells row).length = row.columns.length := by
  rw [cells, List.length_map, Row.values, List.length_map, Row.columns, List.length_map]

/-- Lines for rows of equal length are of equal length, and the lines above them are as long. -/
theorem Aligned.length_eq {first : Row} {others : List Row} {widths : List Nat}
    {top rule : List Char} {lines : List (List Char)} (h : Aligned first others widths top rule lines)
    (hcolumns : ∀ row ∈ first :: others, row.columns.length = first.columns.length) :
    ∀ line ∈ top :: rule :: lines,
      line.length = widths.sum + 3 * (first.columns.length - 1) := by
  intro line hline
  rw [← h.length_widths]
  rcases List.mem_cons.mp hline with rfl | hline
  · exact h.top.length_of_eq (by rw [List.length_map, h.length_widths])
  rcases List.mem_cons.mp hline with rfl | hline
  · exact h.rule.length_eq
  · obtain ⟨row, hrow, hshows⟩ := exists_of_mem_forall₂ h.lines hline
    refine hshows.length_of_eq ?_
    rw [h.length_widths, ← hcolumns row hrow]
    exact length_cells row

/-- The lines that a grid is rendered as are aligned. -/
theorem aligned_render (first : Row) (others : List Row) :
    Aligned first others (widths first others)
      (line (widths first others) (first.columns.map String.toList)) (rule (widths first others))
      ((first :: others).map fun row => line (widths first others) (cells row)) where
  length_widths := length_widths first others
  isLeast := isLeast_widths
  top := shows_line (fits_headers first others)
  rule := isRule_rule (widths first others)
  lines := by
    rw [List.forall₂_map_right_iff, List.forall₂_same]
    exact fun row hrow => shows_line (fits_cells hrow)

/-- The text of any rows consists of aligned lines, each ended by a line feed, and the number of rows
behind them. The lines have one length, that of all columns with the gaps between them, if the rows are
of one length; and so are the rows in each reply of a session. -/
theorem lines_aligned (first : Row) (others : List Row) :
    (∃ (widths : List Nat) (top rule : List Char) (lines : List (List Char)),
      (render (first :: others)).toList = (top :: rule :: lines).flatMap (· ++ ['\n']) ++
        ("(" ++ toString (first :: others).length ++ " rows)").toList ∧
      Aligned first others widths top rule lines ∧
      ((∀ row ∈ first :: others, row.columns.length = first.columns.length) →
        ∀ line ∈ top :: rule :: lines,
          line.length = widths.sum + 3 * (first.columns.length - 1))) ∧
    ∀ (name : String) (inputs : List Catalog.Input) (text : String),
      (((Catalog.empty name).acceptAll inputs).execute text).reply.rows = some (first :: others) →
        ∀ row ∈ first :: others, row.columns = first.columns := by
  constructor
  · have haligned := aligned_render first others
    exact ⟨_, _, _, _, toList_render first others, haligned, haligned.length_eq⟩
  · intro name inputs text hrows
    have hsound := (Catalog.sound_empty name).acceptAll inputs
    obtain ⟨table, projection, condition, hselect⟩ := hsound.rows_execute hrows
    obtain ⟨columns, hcolumns⟩ := Table.columns_select hselect
    intro row hrow
    rw [hcolumns row hrow, hcolumns first List.mem_cons_self]

/-- Two rows that a session replies with, with values of all types; one of them has a line feed in a
text, and one the empty text. -/
theorem lines_aligned_two_rows :
    let first := Row.ofList [("say", .text "x\ny | z"), ("n", .integer 1), ("ok", .boolean true)]
    let others := [Row.ofList [("say", .text ""), ("n", .integer 20), ("ok", .boolean false)]]
    (((Catalog.empty "main").acceptAll [.text "CREATE TABLE t (say TEXT, n INTEGER, ok BOOLEAN)",
      .text "INSERT INTO t VALUES ('x\ny | z', 1, TRUE), ('', 20, FALSE)"]).execute
        "SELECT * FROM t").reply.rows = some (first :: others) ∧
    render (first :: others) =
      "say     | n  | ok   \n" ++
      "--------+----+------\n" ++
      "x\ny | z | 1  | true \n" ++
      "        | 20 | false\n" ++
      "(2 rows)" ∧
    ∃ (widths : List Nat) (top rule : List Char) (lines : List (List Char)),
      (render (first :: others)).toList =
        (top :: rule :: lines).flatMap (· ++ ['\n']) ++ "(2 rows)".toList ∧
      ∀ line ∈ top :: rule :: lines, line.length = widths.sum + 6 := by
  intro first others
  have hreply : (((Catalog.empty "main").acceptAll
      [.text "CREATE TABLE t (say TEXT, n INTEGER, ok BOOLEAN)",
      .text "INSERT INTO t VALUES ('x\ny | z', 1, TRUE), ('', 20, FALSE)"]).execute
        "SELECT * FROM t").reply.rows = some (first :: others) := by
    decide +kernel
  have hfooter : ("(" ++ toString (first :: others).length ++ " rows)") = "(2 rows)" := by decide
  obtain ⟨⟨widths, top, rule, lines, htext, -, hlength⟩, hcolumns⟩ := lines_aligned first others
  rw [hfooter] at htext
  refine ⟨hreply, by decide +kernel, widths, top, rule, lines, htext, hlength fun row hrow => ?_⟩
  rw [hcolumns _ _ _ hreply row hrow]

end TableStore.Grid
