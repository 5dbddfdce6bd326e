import Mathlib.Data.List.DropRight
import TableStore.Proofs.Grid.Alignment

/-!
# What a grid tells of its rows

Nothing is escaped in a grid: bars, line feeds and even a number of rows may stand in a text. Still the
texts can be told from the grid, up to the blanks at their ends. The number of rows stands behind the
last bracket that opens. The lines are all of one length, so their number tells how long they are and
where each of them ends. The crosses of the rule tell the widths of the columns, and these cut the lines.

* `Grid.footer_inj` — the number of rows, and what stands before it.
* `Grid.lines_inj` — the lines.
* `Grid.rule_inj` — the widths of the columns.
* `Grid.Shows.stripped_eq` — the texts of a line, up to the blanks at their ends.
* `Grid.texts_recovered` — rows with one grid show the same texts.
-/

namespace TableStore

/-! ## Cutting at a mark -/

section

variable {α : Type} {mark : α} {before before' after after' : List α}

/-- There is one way to cut a list at the first mark in it. -/
theorem cut_at_first (hbefore : mark ∉ before) (hbefore' : mark ∉ before')
    (h : before ++ mark :: after = before' ++ mark :: after') : before = before' ∧ after = after' := by
  induction before generalizing before' with
  | nil =>
    cases before' with
    | nil => exact ⟨rfl, (List.cons.inj h).2⟩
    | cons x rest => exact absurd ((List.cons.inj h).1 ▸ List.mem_cons_self) hbefore'
  | cons y before ih =>
    cases before' with
    | nil => exact absurd ((List.cons.inj h).1 ▸ List.mem_cons_self) hbefore
    | cons x before' =>
      obtain ⟨rfl, hrest⟩ := List.cons.inj h
      obtain ⟨rfl, hafter⟩ := ih (List.not_mem_of_not_mem_cons hbefore)
        (List.not_mem_of_not_mem_cons hbefore') hrest
      exact ⟨rfl, hafter⟩

/-- There is one way to cut a list at the last mark in it. -/
theorem cut_at_last (hafter : mark ∉ after) (hafter' : mark ∉ after')
    (h : before ++ mark :: after = before' ++ mark :: after') : before = before' ∧ after = after' := by
  have hreverse : after.reverse ++ mark :: before.reverse =
      after'.reverse ++ mark :: before'.reverse := by
    simpa using congrArg List.reverse h
  obtain ⟨hsame, hsame'⟩ := cut_at_first (by simpa using hafter) (by simpa using hafter') hreverse
  exact ⟨List.reverse_injective hsame', List.reverse_injective hsame⟩

end

namespace Grid

/-! ## The number of rows -/

theorem footer_eq (count : Nat) :
    footer count = '(' :: (Nat.toDigits 10 count ++ " rows)".toList) := by
  rw [footer, String.toList_append, String.toList_append, Nat.toString_eq_repr, Nat.toList_repr]
  rfl

/-- No bracket opens behind the first one. -/
theorem bracket_not_mem (count : Nat) : '(' ∉ Nat.toDigits 10 count ++ " rows)".toList := by
  intro h
  rcases List.mem_append.mp h with hdigit | hword
  · have hisDigit := Nat.isDigit_of_mem_toDigits (by decide) (by decide) hdigit
    exact absurd hisDigit (by decide)
  · exact absurd hword (by decide)

/-- The number of rows is found from the end, whatever stands before it. -/
theorem footer_inj {front front' : List Char} {count count' : Nat}
    (h : front ++ footer count = front' ++ footer count') : front = front' ∧ count = count' := by
  rw [footer_eq, footer_eq] at h
  obtain ⟨hfront, hbehind⟩ := cut_at_last (bracket_not_mem count) (bracket_not_mem count') h
  have hdigits := congrArg (Nat.ofDigitChars 10 · 0) (List.append_cancel_right hbehind)
  simp only [Nat.ofDigitChars_ten_toDigits] at hdigits
  exact ⟨hfront, hdigits⟩

/-! ## The lines -/

theorem length_ended {lines : List (List Char)} {length : Nat}
    (h : ∀ line ∈ lines, line.length = length) :
    (lines.flatMap (· ++ ['\n'])).length = lines.length * (length + 1) := by
  induction lines with
  | nil => simp
  | cons line lines ih =>
    obtain ⟨hline, hlines⟩ := List.forall_mem_cons.mp h
    rw [List.flatMap_cons, List.length_append, List.length_append, hline, List.length_singleton,
      ih hlines, List.length_cons, Nat.succ_mul, Nat.add_comm]

/-- Lines of one length are told apart wherever line feeds stand in them. -/
theorem lines_inj_of_length {length : Nat} {lines lines' : List (List Char)}
    (hcount : lines.length = lines'.length) (hlines : ∀ line ∈ lines, line.length = length)
    (hlines' : ∀ line ∈ lines', line.length = length)
    (h : lines.flatMap (· ++ ['\n']) = lines'.flatMap (· ++ ['\n'])) : lines = lines' := by
  induction lines generalizing lines' with
  | nil => exact (List.length_eq_zero_iff.mp hcount.symm).symm
  | cons line lines ih =>
    obtain ⟨line', rest', rfl⟩ := List.exists_cons_of_length_eq_add_one hcount.symm
    obtain ⟨hline, hrest⟩ := List.forall_mem_cons.mp hlines
    obtain ⟨hline', hrest'⟩ := List.forall_mem_cons.mp hlines'
    rw [List.flatMap_cons, List.flatMap_cons] at h
    obtain ⟨hhead, htail⟩ := List.append_inj h (by simp [hline, hline'])
    rw [List.append_cancel_right hhead, ih (Nat.succ.inj hcount) hrest hrest' htail]

/-- It need not be known how long the lines are, only how many there are: all of them together tell
their length. -/
theorem lines_inj {length length' : Nat} {lines lines' : List (List Char)} (hne : lines ≠ [])
    (hcount : lines.length = lines'.length) (hlines : ∀ line ∈ lines, line.length = length)
    (hlines' : ∀ line ∈ lines', line.length = length')
    (h : lines.flatMap (· ++ ['\n']) = lines'.flatMap (· ++ ['\n'])) : lines = lines' := by
  have hlength : length = length' := by
    -- all characters are shared out among the same number of lines
    have hsame := congrArg List.length h
    rw [length_ended hlines, length_ended hlines', ← hcount] at hsame
    exact Nat.succ.inj (Nat.eq_of_mul_eq_mul_left (List.length_pos_iff.mpr hne) hsame)
  subst hlength
  exact lines_inj_of_length hcount hlines hlines' h

/-! ## The widths -/

theorem cross_not_mem (width : Nat) : '+' ∉ List.replicate width '-' := by
  intro h
  exact absurd (List.eq_of_mem_replicate h) (by decide)

theorem cross_mem_rule (width next : Nat) (widths : List Nat) :
    '+' ∈ rule (width :: next :: widths) := by
  rw [rule_cons_cons]
  exact List.mem_append_right _ List.mem_cons_self

theorem rule_singleton (width : Nat) : rule [width] = List.replicate width '-' :=
  List.append_nil _

/-- The dashes before the first cross tell the width of the first column, and so on. -/
theorem rule_inj {widths widths' : List Nat} (hne : widths ≠ []) (hne' : widths' ≠ [])
    (h : rule widths = rule widths') : widths = widths' := by
  induction widths generalizing widths' with
  | nil => exact absurd rfl hne
  | cons width rest ih =>
    match rest, widths', hne' with
    | [], [width'], _ =>
      rw [rule_singleton, rule_singleton] at h
      simpa using congrArg List.length h
    | [], width' :: next' :: rest', _ =>
      -- a single column has no gap, and so no cross
      rw [rule_singleton] at h
      exact absurd (h ▸ cross_mem_rule width' next' rest') (cross_not_mem width)
    | next :: rest, [width'], _ =>
      rw [rule_singleton] at h
      exact absurd (h ▸ cross_mem_rule width next rest) (cross_not_mem width')
    | next :: rest, width' :: next' :: rest', _ =>
      -- the first cross ends the first column, and the rule of the others goes on behind it
      rw [rule_cons_cons, rule_cons_cons] at h
      obtain ⟨hdashes, hbehind⟩ := cut_at_first (cross_not_mem _) (cross_not_mem _) h
      have hwidth : width = width' := by simpa using congrArg List.length hdashes
      rw [hwidth, ih (by simp) (by simp) (List.cons.inj hbehind).2]

/-! ## The texts -/

/-- A text without the blanks at its end. -/
def stripped (text : List Char) : List Char :=
  text.rdropWhile (· == ' ')

theorem stripped_append_blanks (text : List Char) (count : Nat) :
    stripped (text ++ List.replicate count ' ') = stripped text := by
  induction count with
  | zero => rw [List.replicate_zero, List.append_nil]
  | succ count ih =>
    rw [List.replicate_succ', ← List.append_assoc, stripped, List.rdropWhile_concat_pos _ _ _ rfl]
    exact ih

/-- The widths cut a line into its texts. -/
theorem Shows.stripped_eq {widths : List Nat} {texts texts' : List (List Char)} {line : List Char}
    (h : Shows widths texts line) (h' : Shows widths texts' line)
    (hlength : texts.length = widths.length) (hlength' : texts'.length = widths.length) :
    texts.map stripped = texts'.map stripped := by
  refine List.ext_getElem (by rw [List.length_map, List.length_map, hlength, hlength']) ?_
  intro position hposition hposition'
  rw [List.length_map] at hposition hposition'
  have hwidth : position < widths.length := hlength ▸ hposition
  obtain ⟨-, hfield⟩ := h.field (List.getElem?_eq_getElem hposition) (List.getElem?_eq_getElem hwidth)
  obtain ⟨-, hfield'⟩ := h'.field (List.getElem?_eq_getElem hposition')
    (List.getElem?_eq_getElem hwidth)
  -- the same characters are either text with blanks behind it
  rw [List.getElem_map, List.getElem_map, ← stripped_append_blanks, ← hfield, hfield',
    stripped_append_blanks]

/-- Lines of padded texts that are the same show the same texts. -/
theorem stripped_eq_of_line_eq {widths : List Nat} {texts texts' : List (List Char)}
    (h : Fits widths texts) (h' : Fits widths texts') (hlength : texts.length = widths.length)
    (hlength' : texts'.length = widths.length) (hline : line widths texts = line widths texts') :
    texts.map stripped = texts'.map stripped :=
  (shows_line h).stripped_eq (hline ▸ shows_line h') hlength hlength'

/-! ## The rows -/

/-- The values of two rows show the same texts, up to the blanks at their ends. -/
def Alike (row row' : Row) : Prop :=
  List.Forall₂ (fun value value' => stripped value.display.toList = stripped value'.display.toList)
    row.values row'.values

theorem alike_iff {row row' : Row} :
    Alike row row' ↔ (cells row).map stripped = (cells row').map stripped := by
  rw [cells, cells, List.map_map, List.map_map, ← List.forall₂_eq_eq_eq, List.forall₂_map_left_iff,
    List.forall₂_map_right_iff]
  rfl

section

variable {first first' : Row} {others others' : List Row}

/-- Grids that are the same have the same lines, if the rows of each of them have the same columns. -/
theorem lines_eq_of_render_eq
    (hcolumns : ∀ row ∈ first :: others, row.columns = first.columns)
    (hcolumns' : ∀ row ∈ first' :: others', row.columns = first'.columns)
    (h : render (first :: others) = render (first' :: others')) :
    line (widths first others) (first.columns.map String.toList) =
        line (widths first' others') (first'.columns.map String.toList) ∧
      rule (widths first others) = rule (widths first' others') ∧
      (first :: others).map (fun row => line (widths first others) (cells row)) =
        (first' :: others').map (fun row => line (widths first' others') (cells row)) := by
  have htext := congrArg String.toList h
  rw [toList_render, toList_render] at htext
  -- from the end: the number of rows, and with it the number of lines
  obtain ⟨hfront, hcount⟩ := footer_inj htext
  have hlines := lines_inj (List.cons_ne_nil _ _) (by simpa using hcount)
    ((aligned_render first others).length_eq fun row hrow => by rw [hcolumns row hrow])
    ((aligned_render first' others').length_eq fun row hrow => by rw [hcolumns' row hrow]) hfront
  obtain ⟨htop, hbelow⟩ := List.cons.inj hlines
  exact ⟨htop, List.cons.inj hbelow⟩

end

/-- Rows that all have the same columns, and rows that all have the same columns, are as many and show
the same texts if their grids are the same, up to the blanks at the ends of the texts. So only these
and the types of the values are lost, whatever stands in the texts and in the names. -/
theorem texts_recovered {rows rows' : List Row} {names names' : List String} (hrows : rows ≠ [])
    (hrows' : rows' ≠ []) (hnames : names ≠ []) (hnames' : names' ≠ [])
    (hcolumns : ∀ row ∈ rows, row.columns = names) (hcolumns' : ∀ row ∈ rows', row.columns = names')
    (h : render rows = render rows') :
    rows.length = rows'.length ∧
      names.map (stripped ·.toList) = names'.map (stripped ·.toList) ∧
      List.Forall₂ Alike rows rows' := by
  obtain ⟨first, others, rfl⟩ := List.exists_cons_of_ne_nil hrows
  obtain ⟨first', others', rfl⟩ := List.exists_cons_of_ne_nil hrows'
  obtain rfl := hcolumns first List.mem_cons_self
  obtain rfl := hcolumns' first' List.mem_cons_self
  obtain ⟨htop, hrule, hlines⟩ := lines_eq_of_render_eq hcolumns hcolumns' h
  have hwidths : widths first others = widths first' others' := by
    refine rule_inj ?_ ?_ hrule
    · exact List.ne_nil_of_length_pos (length_widths first others ▸ List.length_pos_iff.mpr hnames)
    · exact List.ne_nil_of_length_pos (length_widths first' others' ▸ List.length_pos_iff.mpr hnames')
  have hcount : (first :: others).length = (first' :: others').length := by
    simpa using congrArg List.length hlines
  have hlength := length_widths first others
  have hlength' := length_widths first' others'
  rw [← hwidths] at htop hlines hlength'
  have hfilled : ∀ row ∈ first :: others, (cells row).length = (widths first others).length :=
    fun row hrow => by rw [length_cells, hcolumns row hrow, hlength]
  have hfilled' : ∀ row ∈ first' :: others', (cells row).length = (widths first others).length :=
    fun row hrow => by rw [length_cells, hcolumns' row hrow, hlength']
  refine ⟨hcount, ?_, List.forall₂_iff_get.mpr ⟨hcount, fun i hi hi' => alike_iff.mpr ?_⟩⟩
  · have htexts := stripped_eq_of_line_eq (fits_headers first others)
      (hwidths ▸ fits_headers first' others') (by rw [List.length_map, hlength])
      (by rw [List.length_map, hlength']) htop
    rwa [List.map_map, List.map_map] at htexts
  · have hrow := List.getElem_mem hi
    have hrow' := List.getElem_mem hi'
    have hline := congrArg (·[i]?) hlines
    rw [List.getElem?_map, List.getElem?_map, List.getElem?_eq_getElem hi,
      List.getElem?_eq_getElem hi'] at hline
    exact stripped_eq_of_line_eq (fits_cells hrow) (hwidths ▸ fits_cells hrow')
      (hfilled _ hrow) (hfilled' _ hrow') (Option.some.inj hline)

/-- One grid of an integer, of truth values and of texts, with and without blanks at their ends. A bar in
a name, dashes with a cross and a number of rows below a line feed mislead nobody. -/
theorem texts_recovered_two_rows :
    let rows := [
      Row.ofList [("a | b", .integer (-1)), ("c", .text "x\n(1 rows)"), ("d", .boolean true)],
      Row.ofList [("a | b", .text "-+- "), ("c", .text " | "), ("d", .boolean false)]]
    let rows' := [
      Row.ofList [("a | b", .text "-1 "), ("c", .text "x\n(1 rows)"), ("d", .text "true")],
      Row.ofList [("a | b", .text "-+-"), ("c", .text " |"), ("d", .text "false")]]
    let grid :=
      "a | b | c          | d    \n" ++
      "------+------------+------\n" ++
      "-1    | x\n(1 rows) | true \n" ++
      "-+-   |  |         | false\n" ++
      "(2 rows)"
    rows ≠ rows' ∧ render rows = grid ∧ render rows' = grid ∧ List.Forall₂ Alike rows rows' := by
  intro rows rows' grid
  have hgrid : render rows = grid := by decide +kernel
  have hgrid' : render rows' = grid := by decide +kernel
  have hcolumns : ∀ row ∈ rows, row.columns = ["a | b", "c", "d"] := by decide
  have hcolumns' : ∀ row ∈ rows', row.columns = ["a | b", "c", "d"] := by decide
  obtain ⟨-, -, halike⟩ := texts_recovered (by decide) (by decide) (by decide) (by decide) hcolumns
    hcolumns' (hgrid.trans hgrid'.symm)
  exact ⟨by decide, hgrid, hgrid', halike⟩

end Grid

end TableStore
