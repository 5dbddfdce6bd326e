import TableStore.Proofs.Session.Events
import TableStore.Proofs.Shell.Lines

/-!
# What the shell writes

The shell reads lines until it comes to the end of the input, to a line that reads `exit` or to one
that is no text. Each line before that is answered in turn: a line without words by nothing, a request
for the tables by their names, and any other by the reply to it as a statement, run on the catalog that
the statements before it have left behind. What stands behind the line that ends the shell is not read.

* `Shell.Ends` — how the lines of an input end; `Shell.exists_ends` divides any lines at their end.
* `Shell.statements`, `Shell.answer`, `Shell.written` — the statements among the texts of lines, and
  what is written for them, given how a reply is written.
* `Shell.react_of_reads` — one line, and `Shell.transcript_of_reads` — any number of them.
* `Shell.lines_answered` — the output, the catalog and the exit code for any input.
-/

namespace TableStore.Shell

variable {json : Bool} {print : Reply → String} {catalog : Catalog}

/-! ## Where reading ends -/

/-- The lines that are not answered, the one that ends the shell first, and how it does so. -/
inductive Ends : List (List UInt8) → Ending → Prop
  | endOfInput : Ends [] .endOfInput
  | exit {piece : List UInt8} {others : List (List UInt8)} (hreads : Reads piece "exit") :
      Ends (piece :: others) .exit
  | unreadable {piece : List UInt8} {others : List (List UInt8)}
      (hbytes : ∀ whole : String, piece ≠ Utf8.bytes whole) : Ends (piece :: others) .unreadable

/-- Only the first line tells how the shell ends. -/
theorem Ends.replace {piece : List UInt8} {others : List (List UInt8)} {ending : Ending}
    (h : Ends (piece :: others) ending) (others' : List (List UInt8)) :
    Ends (piece :: others') ending := by
  cases h with
  | exit hreads => exact .exit hreads
  | unreadable hbytes => exact .unreadable hbytes

/-- Lines are answered up to the first one that reads `exit` or is no text. -/
theorem exists_ends (pieces : List (List UInt8)) :
    ∃ front texts rest ending, pieces = front ++ rest ∧ List.Forall₂ Reads front texts ∧
      "exit" ∉ texts ∧ Ends rest ending := by
  induction pieces with
  | nil => exact ⟨[], [], [], .endOfInput, rfl, .nil, List.not_mem_nil, .endOfInput⟩
  | cons piece pieces ih =>
    obtain ⟨front, texts, rest, ending, rfl, hreads, hexit, hends⟩ := ih
    rcases exists_reads_or piece with ⟨text, htext⟩ | hbytes
    · by_cases hstop : text = "exit"
      · subst hstop
        exact ⟨[], [], _, .exit, rfl, .nil, List.not_mem_nil, .exit htext⟩
      · have hmem : "exit" ∉ text :: texts := by
          rw [List.mem_cons, not_or]
          exact ⟨Ne.symm hstop, hexit⟩
        exact ⟨piece :: front, text :: texts, rest, ending, rfl, .cons htext hreads, hmem, hends⟩
    · exact ⟨[], [], _, .unreadable, rfl, .nil, List.not_mem_nil, .unreadable hbytes⟩

/-! ## What is written -/

/-- The statements among the texts of lines. -/
def statements (texts : List String) : List String :=
  texts.filter fun text => text ≠ "" && text ≠ ".tables"

/-- What is written for a line that reads `text`, if a reply is written as `print` says. -/
def answer (print : Reply → String) (catalog : Catalog) (text : String) : String :=
  if text = "" then ""
  else if text = ".tables" then String.join (catalog.tableNames.map (· ++ "\n"))
  else print (catalog.execute text).reply

/-- What is written for lines that read `texts`: behind a prompt each, the answer of the catalog as the
statements among the lines before it have left it. -/
def written (print : Reply → String) (catalog : Catalog) (texts : List String) : String :=
  String.join <| texts.mapIdx fun i text =>
    "db> " ++ answer print (catalog.executeAll (statements (texts.take i))) text

/-- A reply is written as indented JSON in lines of its own, or as its message in a line, if it has
one, and then its rows as a grid, if it has any. -/
theorem shown_eq (json : Bool) (reply : Reply) :
    shown json reply =
      if json then Json.write .indented reply.json ++ "\n"
      else reply.message.elim "" (· ++ "\n") ++ reply.rows.elim "" (Grid.render · ++ "\n") := by
  unfold shown
  cases reply.message <;> cases reply.rows <;> rfl

theorem statements_cons (text : String) (texts : List String) :
    statements (text :: texts) = statements [text] ++ statements texts :=
  List.filter_append [text] texts

theorem written_cons (text : String) (texts : List String) :
    written print catalog (text :: texts) =
      "db> " ++ answer print catalog text ++
        written print (catalog.executeAll (statements [text])) texts := by
  unfold written
  rw [List.mapIdx_cons, String.join_cons]
  congr 3
  funext i other
  rw [List.take_succ_cons, statements_cons, Catalog.executeAll_append]

/-! ## Lines in turn -/

/-- A line that does not read `exit` is answered, and the catalog is what its statement, if it is
one, makes of it. -/
theorem react_of_reads {piece : List UInt8} {text : String} (h : Reads piece text)
    (hexit : text ≠ "exit") :
    react json catalog (Line.ofBytes piece) =
      .goOn (catalog.executeAll (statements [text])) (answer (shown json) catalog text) := by
  rw [ofBytes_of_reads h, if_neg hexit]
  by_cases hblank : text = ""
  · subst hblank
    rfl
  by_cases htables : text = ".tables"
  · subst htables
    rfl
  · have hstatements : statements [text] = [text] := by
      simp [statements, hblank, htables]
    rw [if_neg hblank, if_neg htables, hstatements, answer, if_neg hblank, if_neg htables]
    rfl

/-- Lines none of which ends the shell are answered one after the other. -/
theorem transcript_of_reads {front : List (List UInt8)} {texts : List String}
    (h : List.Forall₂ Reads front texts) (hexit : "exit" ∉ texts) (rest : List Line) :
    transcript json catalog (front.map Line.ofBytes ++ rest) =
      let others := transcript json (catalog.executeAll (statements texts)) rest
      { others with output := written (shown json) catalog texts ++ others.output } := by
  induction h generalizing catalog with
  | nil => simp [written, statements, Catalog.executeAll]
  | @cons piece text front texts hpiece _ ih =>
    rw [List.mem_cons, not_or] at hexit
    rw [List.map_cons, List.cons_append, transcript, react_of_reads hpiece (Ne.symm hexit.1)]
    simp only [ih hexit.2, written_cons, statements_cons text texts, Catalog.executeAll_append,
      String.append_assoc, prompt]

/-- At the end one more prompt is written. -/
theorem transcript_of_ends {rest : List (List UInt8)} {ending : Ending} (h : Ends rest ending) :
    transcript json catalog (rest.map Line.ofBytes) =
      ⟨catalog, "db> " ++ (if ending = .endOfInput then "\n" else ""), ending⟩ := by
  cases h with
  | endOfInput => rfl
  | exit hreads =>
    rw [List.map_cons, ofBytes_of_reads hreads]
    rfl
  | unreadable hbytes =>
    rw [List.map_cons, ofBytes_of_ne_bytes hbytes]
    rfl

/-- What comes of an input, given where reading it ends. -/
theorem transcript_of_cut {input : List UInt8} {front rest : List (List UInt8)} {texts : List String}
    {ending : Ending} (hcut : CutInLines input (front ++ rest)) (hreads : List.Forall₂ Reads front texts)
    (hexit : "exit" ∉ texts) (hends : Ends rest ending) :
    transcript json catalog ((lines input).map Line.ofBytes) =
      ⟨catalog.executeAll (statements texts),
        written (shown json) catalog texts ++ ("db> " ++ (if ending = .endOfInput then "\n" else "")),
        ending⟩ := by
  rw [lines_eq_iff.mpr hcut, List.map_append, transcript_of_reads hreads hexit,
    transcript_of_ends hends]

/-- Any input is cut behind its line feeds, and the lines are answered up to the first one that reads
`exit` or is no text, or all of them. For each there is a prompt and the answer of the catalog to the
text of the line; then comes one more prompt, and a line feed if the input has come to its end. A reply
is written as indented JSON, or as its message and its rows, with a line feed behind each of them. The
catalog is what the statements have made of it, in order. The run fails exactly if a line that is no
text ends it, and what was written before stays written. What stands behind the line that ends the
shell can be anything: neither the output nor the catalog nor the exit code depends on it. And the
names that are listed are those under which there are tables, in strictly increasing order. -/
theorem lines_answered (json : Bool) (catalog : Catalog) (input : List UInt8) :
    let print := fun reply : Reply =>
      if json then Json.write .indented reply.json ++ "\n"
      else reply.message.elim "" (· ++ "\n") ++ reply.rows.elim "" (Grid.render · ++ "\n")
    let whole := transcript json catalog ((lines input).map Line.ofBytes)
    let outcome := runLines json catalog input
    ∃ front texts rest ending,
      CutInLines input (front ++ rest) ∧ List.Forall₂ Reads front texts ∧ "exit" ∉ texts ∧
      Ends rest ending ∧
      outcome.output =
        written print catalog texts ++ ("db> " ++ (if ending = .endOfInput then "\n" else "")) ∧
      whole.output = outcome.output ∧
      whole.catalog = catalog.executeAll (statements texts) ∧
      outcome.exitCode = (if ending = .unreadable then 1 else 0) ∧
      (∀ piece others, rest = piece :: others → 0x0a ∈ piece → ∀ more,
        let changed := front.flatten ++ piece ++ more
        transcript json catalog ((lines changed).map Line.ofBytes) = whole ∧
        runLines json catalog changed = outcome) ∧
      ∀ history,
        let after := catalog.executeAll history
        (∀ name, name ∈ after.tableNames ↔ (after.find? name).isSome = true) ∧
        (catalog.Sound → after.tableNames.Pairwise (· < ·)) := by
  intro print whole outcome
  have hprint : shown json = print := funext (shown_eq json)
  obtain ⟨front, texts, rest, ending, hpieces, hreads, hexit, hends⟩ := exists_ends (lines input)
  have hcut : CutInLines input (front ++ rest) := lines_eq_iff.mp hpieces
  have hwhole : whole = _ := transcript_of_cut hcut hreads hexit hends
  have houtput : outcome.output = whole.output := rfl
  have hcode : outcome.exitCode = whole.ending.verdict.2 := rfl
  refine ⟨front, texts, rest, ending, hcut, hreads, hexit, hends, ?_, houtput.symm, ?_, ?_, ?_, ?_⟩
  · rw [houtput, hwhole, hprint]
  · rw [hwhole]
  · rw [hcode, hwhole]
    cases ending <;> rfl
  · -- the lines up to the one that ends the shell are the same, and the others are not read
    rintro piece others rfl hfeed more changed
    have hchanged : CutInLines changed (front ++ piece :: lines more) :=
      hcut.replace hfeed (cutInLines_lines more)
    have hsame : transcript json catalog ((lines changed).map Line.ofBytes) = whole :=
      (transcript_of_cut hchanged hreads hexit (hends.replace _)).trans hwhole.symm
    refine ⟨hsame, ?_⟩
    unfold runLines
    simp only [hsame]
    rfl
  · intro history after
    exact ⟨fun name => Catalog.mem_tableNames, fun h => (h.executeAll history).pairwise_tableNames⟩

end TableStore.Shell
