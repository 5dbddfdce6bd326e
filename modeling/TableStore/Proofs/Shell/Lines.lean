import TableStore.Proofs.Text.Blank
import TableStore.Proofs.Text.Utf8
import TableStore.Shell

/-!
# Lines of an input

An input is cut behind every line feed, and what stands behind the last one is a line as well unless
it is empty. A line reads as its text without the blanks at its ends, the line feed among them; bytes
that are no text read as nothing.

* `Shell.CutInLines` — where an input is cut; `Shell.lines_eq_iff` says that there is one way to do it.
* `Shell.CutInLines.replace` — what stands behind a line that has a line feed does not change the
  lines up to it.
* `Shell.Reads` — what a line reads as; `Shell.ofBytes_of_reads` and `Shell.ofBytes_of_ne_bytes` tell what
  the shell makes of it.
-/

namespace TableStore.Shell

/-! ## Cutting an input -/

/-- An input is cut behind each line feed. -/
inductive CutInLines : List UInt8 → List (List UInt8) → Prop
  | empty : CutInLines [] []
  /-- The last line may lack its line feed. -/
  | unended {piece : List UInt8} (hpiece : piece ≠ []) (hfeed : 0x0a ∉ piece) :
      CutInLines piece [piece]
  | ended {body rest : List UInt8} {pieces : List (List UInt8)} (hfeed : 0x0a ∉ body)
      (hrest : CutInLines rest pieces) :
      CutInLines (body ++ 0x0a :: rest) ((body ++ [0x0a]) :: pieces)

/-- The lines of an input are where it is cut. -/
theorem cutInLines_lines (input : List UInt8) : CutInLines input (lines input) := by
  induction input with
  | nil => exact .empty
  | cons byte rest ih =>
    rw [lines]
    split
    · rename_i hbyte
      subst hbyte
      exact CutInLines.ended List.not_mem_nil ih
    · -- any other byte belongs to the line behind it
      rename_i hbyte
      have hnot : ∀ {body : List UInt8}, 0x0a ∉ body → 0x0a ∉ byte :: body := by
        intro body hbody hmem
        rcases List.mem_cons.mp hmem with heq | hmem
        · exact hbyte heq.symm
        · exact hbody hmem
      generalize lines rest = pieces at ih ⊢
      cases ih with
      | empty => exact .unended (List.cons_ne_nil byte []) (hnot List.not_mem_nil)
      | unended hpiece hfeed => exact .unended (List.cons_ne_nil byte _) (hnot hfeed)
      | ended hfeed hrest => exact .ended (hnot hfeed) hrest

theorem lines_of_feed_not_mem {piece : List UInt8} (hpiece : piece ≠ []) (hfeed : 0x0a ∉ piece) :
    lines piece = [piece] := by
  induction piece with
  | nil => exact absurd rfl hpiece
  | cons byte rest ih =>
    have hbyte : byte ≠ 0x0a := fun heq => hfeed (heq ▸ List.mem_cons_self)
    rw [lines, if_neg hbyte]
    cases rest with
    | nil => rfl
    | cons next rest =>
      rw [ih (List.cons_ne_nil next rest) fun hmem => hfeed (List.mem_cons_of_mem byte hmem)]

theorem lines_append_feed {body : List UInt8} (hfeed : 0x0a ∉ body) (rest : List UInt8) :
    lines (body ++ 0x0a :: rest) = (body ++ [0x0a]) :: lines rest := by
  induction body with
  | nil => rfl
  | cons byte body ih =>
    have hbyte : byte ≠ 0x0a := fun heq => hfeed (heq ▸ List.mem_cons_self)
    rw [List.cons_append, lines, if_neg hbyte, ih fun hmem => hfeed (List.mem_cons_of_mem byte hmem)]
    rfl

/-- There is one way to cut an input. -/
theorem lines_eq_iff {input : List UInt8} {pieces : List (List UInt8)} :
    lines input = pieces ↔ CutInLines input pieces := by
  constructor
  · rintro rfl
    exact cutInLines_lines input
  · intro h
    induction h with
    | empty => rfl
    | unended hpiece hfeed => exact lines_of_feed_not_mem hpiece hfeed
    | ended hfeed _ ih => rw [lines_append_feed hfeed, ih]

/-- What stands behind a line that has a line feed can be replaced by anything else. -/
theorem CutInLines.replace {input more : List UInt8} {front others pieces : List (List UInt8)}
    {piece : List UInt8} (h : CutInLines input (front ++ piece :: others)) (hfeed : 0x0a ∈ piece)
    (hmore : CutInLines more pieces) :
    CutInLines (front.flatten ++ piece ++ more) (front ++ piece :: pieces) := by
  induction front generalizing input with
  | nil =>
    cases h with
    | unended _ hnot => exact absurd hfeed hnot
    | ended hbody _ => simpa using CutInLines.ended hbody hmore
  | cons line front ih =>
    generalize hpieces : (line :: front) ++ piece :: others = all at h
    cases h with
    | empty => cases hpieces
    | unended _ _ => simp at hpieces
    | ended hbody hrest =>
      -- the first line has its line feed, since there are others behind it
      obtain ⟨rfl, rfl⟩ := List.cons.inj hpieces
      simpa using CutInLines.ended hbody (ih hrest)

/-! ## What a line reads as -/

/-- A line reads as its text without the blanks at its ends. -/
def Reads (piece : List UInt8) (text : String) : Prop :=
  ∃ whole : String, piece = Utf8.bytes whole ∧ Text.Trims whole text

/-- Every line reads as something or is no text. -/
theorem exists_reads_or (piece : List UInt8) :
    (∃ text, Reads piece text) ∨ ∀ whole : String, piece ≠ Utf8.bytes whole := by
  by_cases h : ∃ whole : String, piece = Utf8.bytes whole
  · obtain ⟨whole, hwhole⟩ := h
    exact .inl ⟨Text.trim whole, whole, hwhole, Text.trim_eq_iff.mp rfl⟩
  · exact .inr fun whole hwhole => h ⟨whole, hwhole⟩

/-- What a line asks for that reads as `text`. -/
theorem ofBytes_of_reads {piece : List UInt8} {text : String} (h : Reads piece text) :
    Line.ofBytes piece =
      if text = "" then .blank
      else if text = "exit" then .exit
      else if text = ".tables" then .tables
      else .statement text := by
  obtain ⟨whole, hwhole, htrims⟩ := h
  unfold Line.ofBytes
  simp only [Utf8.text?_eq_some_iff.mpr hwhole, Text.trim_eq_iff.mpr htrims]

/-- Bytes that are no text cannot be read. -/
theorem ofBytes_of_ne_bytes {piece : List UInt8} (h : ∀ whole : String, piece ≠ Utf8.bytes whole) :
    Line.ofBytes piece = .unreadable := by
  unfold Line.ofBytes
  cases hread : Utf8.text? piece with
  | none => rfl
  | some whole => exact absurd (Utf8.text?_eq_some_iff.mp hread) (h whole)

end TableStore.Shell
