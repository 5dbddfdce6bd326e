import Mathlib.Order.Bounds.Basic
import TableStore.Grid
import TableStore.Proofs.Text.Joined

/-!
# Lines of a grid

All lines of a grid are cut in the same way: the widths of the columns tell where each column starts,
and the texts of a line stand there whole, with blanks behind them. A line of fewer texts ends sooner.

* `Grid.start` — where a column starts, in every line.
* `Grid.Shows`, `Grid.shows_line` — a line that shows texts.
* `Grid.IsRule`, `Grid.isRule_rule` — the line between the column names and the rows.
* `Grid.widths`, `Grid.isLeast_widths` — a column is as wide as it has to be and no wider.
* `Grid.toList_render` — the lines that the text of some rows is made of.
-/

namespace TableStore.Grid

/-- Where the column at a position starts in a line: behind the columns before it and the gaps behind
these. -/
def start (widths : List Nat) (position : Nat) : Nat :=
  (widths.take position).sum + 3 * position

/-! ## Lines of texts -/

/-- A line shows texts in columns of the given widths, as many of them as there are columns. Each text
stands where its column starts, whole and with nothing but blanks behind it up to the width of the
column, a bar in the middle of each gap keeps two texts apart, and there is nothing else. -/
structure Shows (widths : List Nat) (texts : List (List Char)) (line : List Char) : Prop where
  length_eq : line.length =
    (widths.take texts.length).sum + 3 * (min texts.length widths.length - 1)
  field {position width : Nat} {text : List Char} (htext : texts[position]? = some text)
    (hwidth : widths[position]? = some width) :
    text.length ≤ width ∧
      (line.drop (start widths position)).take width =
        text ++ List.replicate (width - text.length) ' '
  gap {position width : Nat} (hwidth : widths[position]? = some width)
    (hnext : position + 1 < min texts.length widths.length) :
    (line.drop (start widths position + width)).take 3 = [' ', '|', ' ']

/-- No text is longer than its column is wide. -/
def Fits (widths : List Nat) (texts : List (List Char)) : Prop :=
  ∀ {position width : Nat} {text : List Char}, texts[position]? = some text →
    widths[position]? = some width → text.length ≤ width

theorem length_pad {text : List Char} {width : Nat} (h : text.length ≤ width) :
    (pad text width).length = width := by
  rw [pad, List.length_append, List.length_replicate]
  omega

/-- What fits is as long as its column is wide when it is padded. -/
theorem map_length_padded {widths : List Nat} {texts : List (List Char)} (h : Fits widths texts) :
    (List.zipWith pad texts widths).map List.length = widths.take texts.length := by
  refine List.ext_getElem? fun position => ?_
  rw [List.getElem?_map, List.getElem?_zipWith, List.getElem?_take]
  by_cases hlt : position < texts.length
  · rw [List.getElem?_eq_getElem hlt, if_pos hlt]
    cases hwidth : widths[position]? with
    | none => rfl
    | some width => exact congrArg some (length_pad (h (List.getElem?_eq_getElem hlt) hwidth))
  · rw [List.getElem?_eq_none (Nat.le_of_not_lt hlt), if_neg hlt]
    rfl

/-- The fields before a position take as much room as their columns. -/
theorem offset_padded {widths : List Nat} {texts : List (List Char)} (h : Fits widths texts)
    {position : Nat} (hlt : position < texts.length) :
    Text.offset " | ".toList (List.zipWith pad texts widths) position = start widths position := by
  rw [Text.offset, List.map_take, map_length_padded h, List.take_take, Nat.min_eq_left hlt.le]
  rfl

theorem getElem?_padded {widths : List Nat} {texts : List (List Char)} {position width : Nat}
    {text : List Char} (htext : texts[position]? = some text)
    (hwidth : widths[position]? = some width) :
    (List.zipWith pad texts widths)[position]? = some (pad text width) := by
  rw [List.getElem?_zipWith, htext, hwidth]

/-- A line shows its texts if they fit. -/
theorem shows_line {widths : List Nat} {texts : List (List Char)} (h : Fits widths texts) :
    Shows widths texts (line widths texts) where
  length_eq := by
    rw [line, Text.length_intercalate, map_length_padded h, List.length_zipWith]
    rfl
  field := by
    intro position width text htext hwidth
    have hfits := h htext hwidth
    have hlt : position < texts.length := (List.getElem?_eq_some_iff.mp htext).1
    have hcut := Text.take_field " | ".toList (getElem?_padded htext hwidth)
    rw [offset_padded h hlt, length_pad hfits] at hcut
    exact ⟨hfits, hcut⟩
  gap := by
    intro position width hwidth hnext
    have hlt : position < texts.length := by omega
    have htext := List.getElem?_eq_getElem hlt
    have hcut := Text.take_separator " | ".toList (getElem?_padded htext hwidth)
      (by rwa [List.length_zipWith])
    rwa [offset_padded h hlt, length_pad (h htext hwidth)] at hcut

/-- A line that shows a text in each column is as long as all columns and the gaps between them. -/
theorem Shows.length_of_eq {widths : List Nat} {texts : List (List Char)} {line : List Char}
    (h : Shows widths texts line) (hlength : texts.length = widths.length) :
    line.length = widths.sum + 3 * (widths.length - 1) := by
  rw [h.length_eq, hlength, List.take_length, Nat.min_self]

/-! ## The rule -/

/-- The line between the column names and the rows is as long as the others. It has a cross in the
middle of each gap, and is made of dashes elsewhere. -/
structure IsRule (widths : List Nat) (rule : List Char) : Prop where
  length_eq : rule.length = widths.sum + 3 * (widths.length - 1)
  cross_iff (i : Nat) : rule[i]? = some '+' ↔
    ∃ position width, widths[position]? = some width ∧ position + 1 < widths.length ∧
      i = start widths position + width + 1
  dash {c : Char} (hmem : c ∈ rule) : c = '+' ∨ c = '-'

theorem rule_cons_cons (width next : Nat) (widths : List Nat) :
    rule (width :: next :: widths) =
      List.replicate (width + 1) '-' ++ '+' :: '-' :: rule (next :: widths) := by
  rw [rule, List.map_cons, List.map_cons, List.intercalate_cons_cons, List.replicate_succ']
  simp [rule]

theorem start_cons_succ (width : Nat) (widths : List Nat) (position : Nat) :
    start (width :: widths) (position + 1) = width + 3 + start widths position := by
  rw [start, start, List.take_succ_cons, List.sum_cons]
  omega

/-- The first cross stands in the gap behind the first column, the others stand further behind. -/
theorem cross_rule_cons_iff (width next : Nat) (widths : List Nat) (i : Nat) :
    (rule (width :: next :: widths))[i]? = some '+' ↔
      i = width + 1 ∨ ∃ j, i = width + 3 + j ∧ (rule (next :: widths))[j]? = some '+' := by
  rw [rule_cons_cons]
  rcases Nat.lt_or_ge i (width + 1) with hlt | hge
  · -- dashes under the first column
    rw [List.getElem?_append_left (by simpa using hlt), List.getElem?_replicate]
    constructor
    · intro h
      simp at h
    · rintro (rfl | ⟨j, rfl, -⟩) <;> omega
  · obtain ⟨k, rfl⟩ := Nat.exists_eq_add_of_le hge
    rw [List.getElem?_append_right (by simp), List.length_replicate, Nat.add_sub_cancel_left]
    match k with
    | 0 => simp
    | 1 =>
      constructor
      · intro h
        simp at h
      · rintro (h | ⟨j, h, -⟩) <;> omega
    | k + 2 =>
      rw [List.getElem?_cons_succ, List.getElem?_cons_succ]
      constructor
      · exact fun h => .inr ⟨k, by omega, h⟩
      · rintro (h | ⟨j, hj, h⟩)
        · omega
        · rwa [show k = j by omega]

/-- Crosses stand in the middle of the gaps. -/
theorem cross_rule_iff (widths : List Nat) (i : Nat) :
    (rule widths)[i]? = some '+' ↔
      ∃ position width, widths[position]? = some width ∧ position + 1 < widths.length ∧
        i = start widths position + width + 1 := by
  induction widths generalizing i with
  | nil => simp [rule]
  | cons width rest ih =>
    cases rest with
    | nil => simp [rule, List.getElem?_replicate]
    | cons next rest =>
      rw [cross_rule_cons_iff]
      constructor
      · rintro (rfl | ⟨j, rfl, hcross⟩)
        · exact ⟨0, width, rfl, by simp, by simp [start]⟩
        · obtain ⟨position, found, hfound, hnext, rfl⟩ := (ih j).mp hcross
          refine ⟨position + 1, found, hfound, Nat.succ_lt_succ hnext, ?_⟩
          rw [start_cons_succ]
          omega
      · rintro ⟨position, found, hfound, hnext, rfl⟩
        cases position with
        | zero =>
          obtain rfl : width = found := Option.some.inj hfound
          exact .inl (by simp [start])
        | succ position =>
          refine .inr ⟨start (next :: rest) position + found + 1, ?_, ?_⟩
          · rw [start_cons_succ]
            omega
          · exact (ih _).mpr ⟨position, found, hfound, Nat.lt_of_succ_lt_succ hnext, rfl⟩

theorem mem_rule {widths : List Nat} {c : Char} (h : c ∈ rule widths) : c = '+' ∨ c = '-' := by
  induction widths with
  | nil => simp [rule] at h
  | cons width rest ih =>
    cases rest with
    | nil => exact .inr (List.eq_of_mem_replicate (by simpa [rule] using h))
    | cons next rest =>
      rw [rule_cons_cons, List.mem_append, List.mem_cons, List.mem_cons] at h
      rcases h with hdash | rfl | rfl | hrest
      · exact .inr (List.eq_of_mem_replicate hdash)
      · exact .inl rfl
      · exact .inr rfl
      · exact ih hrest

theorem isRule_rule (widths : List Nat) : IsRule widths (rule widths) where
  length_eq := by
    rw [rule, Text.length_intercalate, List.map_map, List.length_map]
    simp [Function.comp_def]
  cross_iff := cross_rule_iff widths
  dash := mem_rule

/-! ## Widths -/

/-- A column is wide enough for its name and for the text of each row's value in it. -/
def WideEnough (rows : List Row) (position : Nat) (header : String) (width : Nat) : Prop :=
  header.length ≤ width ∧
    ∀ row ∈ rows, ∀ value ∈ row.values[position]?, value.display.length ≤ width

/-- The widths of the columns, for a first row and others. -/
def widths (first : Row) (others : List Row) : List Nat :=
  (first.columns.map String.toList).zipIdx.map fun (header, position) =>
    width ((first :: others).map cells) header position

theorem foldl_max_length_le_iff {texts : List (List Char)} {least bound : Nat} :
    texts.foldl (fun widest text => max widest text.length) least ≤ bound ↔
      least ≤ bound ∧ ∀ text ∈ texts, text.length ≤ bound := by
  induction texts generalizing least with
  | nil => simp
  | cons text texts ih =>
    rw [List.foldl_cons, ih, List.forall_mem_cons, Nat.max_le, and_assoc]

theorem width_le_iff {rows : List Row} {header : String} {position bound : Nat} :
    width (rows.map cells) header.toList position ≤ bound ↔ WideEnough rows position header bound := by
  rw [width, foldl_max_length_le_iff, String.length_toList, WideEnough]
  refine and_congr_right fun _ => ?_
  constructor
  · intro h row hrow value hvalue
    have htext : (cells row)[position]? = some value.display.toList := by
      rw [cells, List.getElem?_map, Option.mem_def.mp hvalue]
      rfl
    have hle := h _ (List.mem_filterMap.mpr ⟨cells row, List.mem_map_of_mem hrow, htext⟩)
    rwa [String.length_toList] at hle
  · intro h text htext
    obtain ⟨line, hline, htext⟩ := List.mem_filterMap.mp htext
    obtain ⟨row, hrow, rfl⟩ := List.mem_map.mp hline
    rw [cells, List.getElem?_map, Option.map_eq_some_iff] at htext
    obtain ⟨value, hvalue, rfl⟩ := htext
    rw [String.length_toList]
    exact h row hrow value hvalue

theorem getElem?_widths (first : Row) (others : List Row) (position : Nat) :
    (widths first others)[position]? = first.columns[position]?.map fun header =>
      width ((first :: others).map cells) header.toList position := by
  rw [widths, List.getElem?_map, List.getElem?_zipIdx, List.getElem?_map]
  cases first.columns[position]? <;> simp

theorem length_widths (first : Row) (others : List Row) :
    (widths first others).length = first.columns.length := by
  simp [widths]

/-- A column is as wide as it has to be, and no wider. -/
theorem isLeast_widths {first : Row} {others : List Row} {position width : Nat} {header : String}
    (hheader : first.columns[position]? = some header)
    (hwidth : (widths first others)[position]? = some width) :
    IsLeast {bound | WideEnough (first :: others) position header bound} width := by
  rw [getElem?_widths, hheader] at hwidth
  obtain rfl := Option.some.inj hwidth
  exact ⟨width_le_iff.mp (Nat.le_refl _), fun bound hbound => width_le_iff.mpr hbound⟩

/-! ## The text of some rows -/

/-- The texts of a row of the grid fit. -/
theorem fits_cells {first row : Row} {others : List Row} (hrow : row ∈ first :: others) :
    Fits (widths first others) (cells row) := by
  intro position width text htext hwidth
  rw [getElem?_widths, Option.map_eq_some_iff] at hwidth
  obtain ⟨header, -, rfl⟩ := hwidth
  rw [cells, List.getElem?_map, Option.map_eq_some_iff] at htext
  obtain ⟨value, hvalue, rfl⟩ := htext
  rw [String.length_toList]
  exact (width_le_iff.mp (Nat.le_refl _)).2 row hrow value hvalue

theorem fits_headers (first : Row) (others : List Row) :
    Fits (widths first others) (first.columns.map String.toList) := by
  intro position width text htext hwidth
  rw [List.getElem?_map, Option.map_eq_some_iff] at htext
  obtain ⟨header, hheader, rfl⟩ := htext
  rw [getElem?_widths, hheader] at hwidth
  obtain rfl := Option.some.inj hwidth
  rw [String.length_toList]
  exact (width_le_iff.mp (Nat.le_refl _)).1

/-- The lines of a grid: the column names, the rule and the rows, each ended by a line feed, and behind
them the number of rows. -/
theorem toList_render (first : Row) (others : List Row) :
    (render (first :: others)).toList =
      (line (widths first others) (first.columns.map String.toList) ::
          rule (widths first others) ::
          (first :: others).map fun row => line (widths first others) (cells row)).flatMap
        (· ++ ['\n']) ++ footer (first :: others).length := by
  rw [render, String.toList_ofList, List.length_map, List.map_map]
  rfl

end TableStore.Grid
