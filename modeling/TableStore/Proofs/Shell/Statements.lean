import TableStore.Proofs.Shell.Transcripts
import TableStore.Proofs.Sql.Seams

/-!
# One statement, given in two ways

A statement can be an argument of the shell or a line of its input. The argument is run as it is, and
of the line the blanks at its ends are taken off first. They do not matter, and so the two runs write
the same reply and leave the same catalog.

* `Catalog.execute_of_trims` — a text is run like the same text without the blanks at its ends.
* `Shell.transcript_of_line` — a line that is read alone.
* `Shell.statement_given_twice` — the argument and the line compared.
-/

namespace TableStore

/-- A text is run like the same text without the blanks at its ends. -/
theorem Catalog.execute_of_trims (catalog : Catalog) {text trimmed : String}
    (h : Text.Trims text trimmed) : catalog.execute text = catalog.execute trimmed := by
  unfold execute
  rw [Sql.Statement.ofText_of_trims h]

namespace Shell

variable {json : Bool} {catalog : Catalog} {text trimmed : String}

/-- A text with a line feed behind it is one line if it has no line feed in it. -/
theorem cutInLines_line (h : '\n' ∉ text.toList) :
    CutInLines (Utf8.bytes (text ++ "\n")) [Utf8.bytes (text ++ "\n")] := by
  have hfeed : 0x0a ∉ Utf8.bytes text := mt Utf8.feed_mem_bytes_iff.mp h
  rw [Utf8.bytes_append]
  exact .ended hfeed .empty

/-- The line feed behind a line is a blank like those in front of it. -/
theorem trims_line (h : Text.Trims text trimmed) : Text.Trims (text ++ "\n") trimmed := by
  obtain ⟨front, back, htext, hfront, hback, hends⟩ := h
  refine ⟨front, back ++ ['\n'], ?_, hfront, ?_, hends⟩
  · rw [String.toList_append, htext, List.append_assoc]
    rfl
  · refine List.forall_mem_append.mpr ⟨hback, fun c hc => ?_⟩
    obtain rfl := List.mem_singleton.mp hc
    decide

/-- What comes of an input that is one line with a statement. -/
theorem transcript_of_line (hfeed : '\n' ∉ text.toList) (htrims : Text.Trims text trimmed)
    (hblank : trimmed ≠ "") (hexit : trimmed ≠ "exit") (htables : trimmed ≠ ".tables") :
    transcript json catalog ((lines (Utf8.bytes (text ++ "\n"))).map Line.ofBytes) =
      ⟨(catalog.execute text).catalog,
        "db> " ++ shown json (catalog.execute text).reply ++ "db> " ++ "\n", .endOfInput⟩ := by
  have hreads : Reads (Utf8.bytes (text ++ "\n")) trimmed := ⟨_, rfl, trims_line htrims⟩
  have hends : "exit" ∉ [trimmed] := by
    rw [List.mem_singleton]
    exact hexit.symm
  have hstatements : statements [trimmed] = [trimmed] := by
    simp [statements, hblank, htables]
  have hanswer : answer (shown json) catalog trimmed = shown json (catalog.execute trimmed).reply := by
    rw [answer, if_neg hblank, if_neg htables]
  have hwritten : written (shown json) catalog [trimmed] =
      "db> " ++ shown json (catalog.execute trimmed).reply := by
    rw [written_cons, hanswer]
    exact String.append_empty
  rw [transcript_of_cut (cutInLines_line hfeed) (.cons hreads .nil) hends .endOfInput, hstatements,
    hwritten, if_pos rfl, catalog.execute_of_trims htrims, ← String.append_assoc]
  rfl

/-- A text and what is left of it without the blanks at its ends are one statement, or are refused for
one cause. So a text in one line that asks neither for the tables nor for the end, run as a line of
the input, is answered behind the prompt by what is written for it as an argument, and the catalog is
the one that the argument leaves; then comes the prompt at the end of the input. -/
theorem statement_given_twice (text : String) :
    Text.Trims text (Text.trim text) ∧
    Sql.Statement.ofText (Text.trim text) = Sql.Statement.ofText text ∧
    ∀ (json : Bool) (catalog : Catalog), '\n' ∉ text.toList → Text.trim text ≠ "" →
      Text.trim text ≠ "exit" → Text.trim text ≠ ".tables" →
      let input := Utf8.bytes (text ++ "\n")
      let whole := transcript json catalog ((lines input).map Line.ofBytes)
      (runLines json catalog input).output =
        "db> " ++ (runStatement json catalog text).output ++ "db> " ++ "\n" ∧
      whole.output = (runLines json catalog input).output ∧
      whole.catalog = (catalog.execute text).catalog := by
  have htrims : Text.Trims text (Text.trim text) := Text.trim_eq_iff.mp rfl
  refine ⟨htrims, (Sql.Statement.ofText_of_trims htrims).symm, ?_⟩
  intro json catalog hfeed hblank hexit htables input whole
  have hwhole : whole = _ := transcript_of_line hfeed htrims hblank hexit htables
  have houtput : (runLines json catalog input).output = whole.output := rfl
  refine ⟨?_, houtput.symm, ?_⟩
  · rw [houtput, hwhole]
    rfl
  · rw [hwhole]

/-- A text that is not closed: the blank at the end belongs to it in the argument, and not in the line.
-/
theorem statement_given_twice_unclosed :
    Text.trim "\t 'a " = "'a" ∧
    (runStatement false (.empty "main") "\t 'a ").output =
      "ERROR: invalid or unsupported syntax\n" ∧
    (runLines false (.empty "main") (Utf8.bytes ("\t 'a " ++ "\n"))).output =
      "db> ERROR: invalid or unsupported syntax\ndb> \n" := by
  have htrim : Text.trim "\t 'a " = "'a" := by decide
  have htokens : Sql.Lexer.tokens "\t 'a ".toList = .error .unterminatedText [] :=
    Sql.Lexer.tokens_error_iff.mpr ⟨[], ['\t', ' '], ['\'', 'a', ' '], .none _,
      List.all_eq_true.mp (by decide), .unterminated (.inl rfl) (by decide)⟩
  have hread : Sql.Statement.ofText "\t 'a " = .error .unterminatedText := by
    rw [Sql.Statement.ofText, htokens]
  have houtput : (runStatement false (.empty "main") "\t 'a ").output =
      "ERROR: invalid or unsupported syntax\n" := by
    simp only [runStatement, Catalog.execute, hread]
    decide
  obtain ⟨-, -, hline⟩ := statement_given_twice "\t 'a "
  rw [htrim] at hline
  obtain ⟨hlines, -⟩ := hline false (.empty "main") (by decide) (by decide) (by decide) (by decide)
  refine ⟨htrim, houtput, ?_⟩
  rw [hlines, houtput]
  decide

end Shell

end TableStore
