import TableStore.Proofs.Data.Rows
import TableStore.Proofs.Json.Printing
import TableStore.Proofs.Session.Requests

/-!
# What the JSON text of a reply tells

The text of a reply tells all of it. It is one object with a member for each part that the reply
has, in order; its rows are objects whose keys are the columns of the row, all of them different,
with bare values. So a reply can be rebuilt from its text in either layout, and no two replies have
one text. That no key is lost rests on rows never naming a column twice.

* `Value.Bare`, `Row.Object`, `Reply.Members` — what JSON tells of values, rows and replies.
* `Value.ofJson?`, `Row.ofJson?`, `Reply.ofJson?` — rebuild them.
* `Reply.text_faithful` — the text of a reply.
* `Catalog.Sound.rows_execute` — where the rows of a reply come from.
* `Catalog.Sound.built_execute` — the replies of a session are among those that this is about.
-/

namespace TableStore

open Json (Layout)

/-! ## What is told -/

/-- A value as a bare number, text or truth value. -/
inductive Value.Bare : Value → Json String → Prop where
  | integer {n : Int64} {numeral : String} (hnumeral : Decimal.Numeral numeral.toList n) :
      Bare (.integer n) (.number numeral)
  | text (s : String) : Bare (.text s) (.text s)
  | boolean (b : Bool) : Bare (.boolean b) (.boolean b)

/-- A row as an object: its columns are the keys, in order and all of them different. -/
inductive Row.Object (row : Row) : Json String → Prop where
  | intro {members : List (String × Json String)} (hkeys : members.map (·.1) = row.columns)
      (hnodup : (members.map (·.1)).Nodup)
      (hvalues : List.Forall₂ Value.Bare row.values (members.map (·.2))) :
      Object row (.object members)

/-- The keys of the parts that a reply has, in order. -/
def Reply.keys (reply : Reply) : List String :=
  "success" :: ((if reply.rows.isSome then ["rows"] else []) ++
    ((if reply.rowsAffected.isSome then ["rowsAffected"] else []) ++
      (if reply.message.isSome then ["message"] else [])))

/-- The members that tell a reply: one for each part that it has, in order. -/
structure Reply.Members (reply : Reply) (members : List (String × Json String)) : Prop where
  keys : members.map (·.1) = reply.keys
  success : ("success", .boolean reply.success) ∈ members
  rows : ∀ rows ∈ reply.rows, ∃ items, ("rows", .array items) ∈ members ∧
    List.Forall₂ Row.Object rows items
  rowsAffected : ∀ count ∈ reply.rowsAffected, ∃ numeral,
    ("rowsAffected", .number numeral) ∈ members ∧ Decimal.Digits numeral.toList count
  message : ∀ message ∈ reply.message, ("message", .text message) ∈ members

/-- The rows of a reply have come about by giving values to columns. -/
def Reply.Built (reply : Reply) : Prop :=
  ∀ rows ∈ reply.rows, ∀ row ∈ rows, row.Built

/-! ## Rebuilding -/

/-- The value that a bare number, text or truth value stands for. -/
def Value.ofJson? : Json String → Option Value
  | .number numeral => (Decimal.read numeral.toList).toOption.map .integer
  | .text s => some (.text s)
  | .boolean b => some (.boolean b)
  | _ => none

/-- A column and its value. -/
def Row.entryOfJson? (member : String × Json String) : Option (String × Value) :=
  (Value.ofJson? member.2).map (member.1, ·)

/-- The row that gives the members of an object to columns, one by one. -/
def Row.ofJson? : Json String → Option Row
  | .object members => (members.mapM Row.entryOfJson?).map Row.ofList
  | _ => none

namespace Reply

/-- Whether a statement succeeded. -/
def successOfJson? : Json String → Option Bool
  | .boolean b => some b
  | _ => none

/-- The rows of an array. -/
def rowsOfJson? : Json String → Option (List Row)
  | .array items => items.mapM Row.ofJson?
  | _ => none

/-- The number of rows. -/
def countOfJson? : Json String → Option Nat
  | .number numeral => some (Nat.ofDigitChars 10 numeral.toList 0)
  | _ => none

/-- The message. -/
def messageOfJson? : Json String → Option String
  | .text s => some s
  | _ => none

/-- The part under a key, which may be left out. -/
def part? {α : Type} (read : Json String → Option α) (key : String)
    (members : List (String × Json String)) : Option (Option α) :=
  match members.lookup key with
  | none => some none
  | some json => (read json).map some

/-- The reply that an object tells. -/
def ofJson? : Json String → Option Reply
  | .object members => do
    let success ← (members.lookup "success").bind successOfJson?
    let rows ← part? rowsOfJson? "rows" members
    let rowsAffected ← part? countOfJson? "rowsAffected" members
    let message ← part? messageOfJson? "message" members
    return ⟨success, rows, rowsAffected, message⟩
  | _ => none

end Reply

theorem Value.ofJson?_json (value : Value) : Value.ofJson? value.json = some value := by
  cases value with
  | integer n =>
    rw [json, ofJson?, Decimal.read_write]
    rfl
  | text s => rfl
  | boolean b => rfl

theorem Row.json_eq (row : Row) :
    row.json = .object (row.entries.map fun entry => (entry.1, entry.2.json)) :=
  rfl

theorem Row.ofJson?_json {row : Row} (h : row.Built) : Row.ofJson? row.json = some row := by
  have hread : (row.entries.map fun entry => (entry.1, entry.2.json)).mapM Row.entryOfJson? =
      some row.entries := by
    rw [mapM_some_iff, List.forall₂_map_left_iff, List.forall₂_same]
    intro entry _
    show (Value.ofJson? entry.2.json).map (entry.1, ·) = some entry
    rw [Value.ofJson?_json]
    rfl
  rw [json_eq, ofJson?, hread, Option.map_some, ofList_eq h.nodup_columns]

theorem Reply.rowsOfJson?_json {rows : List Row} (h : ∀ row ∈ rows, row.Built) :
    rowsOfJson? (.array (rows.map Row.json)) = some rows := by
  rw [rowsOfJson?, mapM_some_iff, List.forall₂_map_left_iff, List.forall₂_same]
  exact fun row hrow => Row.ofJson?_json (h row hrow)

theorem Reply.countOfJson?_json (count : Nat) : countOfJson? (.number count.repr) = some count := by
  rw [countOfJson?, Nat.repr, String.toList_ofList, Nat.ofDigitChars_ten_toDigits]

/-- A reply is rebuilt from its tree. -/
theorem Reply.ofJson?_json {reply : Reply} (h : reply.Built) :
    Reply.ofJson? reply.json = some reply := by
  obtain ⟨success, rows, rowsAffected, message⟩ := reply
  -- each of the parts is found under its key, or is not there
  cases rows with
  | none =>
    cases rowsAffected <;> cases message <;>
      simp [json, ofJson?, part?, List.lookup_cons, List.lookup_nil, successOfJson?, messageOfJson?, countOfJson?_json]
  | some rows =>
    have hrows := rowsOfJson?_json (h rows rfl)
    cases rowsAffected <;> cases message <;>
      simp [json, ofJson?, part?, List.lookup_cons, List.lookup_nil, successOfJson?, messageOfJson?, countOfJson?_json,
        hrows]

/-! ## The tree of a reply -/

theorem Value.valid_json (value : Value) : value.json.Valid := by
  cases value with
  | integer n => exact .number (Json.numeral_write n)
  | text s => exact .text s
  | boolean b => exact .boolean b

theorem Value.bare_json (value : Value) : value.Bare value.json := by
  cases value with
  | integer n => exact .integer (Decimal.numeral_write n)
  | text s => exact .text s
  | boolean b => exact .boolean b

theorem Row.valid_json (row : Row) : row.json.Valid := by
  refine .object fun member hmember => ?_
  obtain ⟨entry, -, rfl⟩ := List.mem_map.mp hmember
  exact entry.2.valid_json

theorem Row.object_json {row : Row} (h : row.Built) : row.Object row.json := by
  have hkeys : (row.entries.map fun entry => (entry.1, entry.2.json)).map (·.1) =
      row.columns := by
    rw [List.map_map]
    rfl
  rw [json_eq]
  refine .intro hkeys (hkeys ▸ h.nodup_columns) ?_
  rw [List.map_map, values, List.forall₂_map_left_iff, List.forall₂_map_right_iff,
    List.forall₂_same]
  exact fun entry _ => entry.2.bare_json

theorem Reply.valid_json (reply : Reply) : reply.json.Valid := by
  obtain ⟨success, rows, rowsAffected, message⟩ := reply
  refine .object fun member hmember => ?_
  simp only [List.mem_append, List.mem_singleton, Option.mem_toList,
    Option.map_eq_some_iff] at hmember
  rcases hmember with ((rfl | ⟨rows, -, rfl⟩) | ⟨count, -, rfl⟩) | ⟨message, -, rfl⟩
  · exact .boolean success
  · refine .array fun item hitem => ?_
    obtain ⟨row, -, rfl⟩ := List.mem_map.mp hitem
    exact row.valid_json
  · exact .number (Json.numeral_toString count)
  · exact .text message

/-- The tree of a reply has the members that tell it. -/
theorem Reply.exists_members {reply : Reply} (h : reply.Built) :
    ∃ members, reply.json = .object members ∧ reply.Members members := by
  obtain ⟨success, rows, rowsAffected, message⟩ := reply
  refine ⟨_, rfl, ?keys, ?success, ?rows, ?rowsAffected, ?message⟩
  case keys => cases rows <;> cases rowsAffected <;> cases message <;> rfl
  case success => simp
  case rows =>
    intro found hfound
    obtain rfl : rows = some found := hfound
    refine ⟨found.map Row.json, by simp, ?_⟩
    rw [List.forall₂_map_right_iff, List.forall₂_same]
    exact fun row hrow => Row.object_json (h found rfl row hrow)
  case rowsAffected =>
    intro count hcount
    obtain rfl : rowsAffected = some count := hcount
    refine ⟨toString count, by simp, ?_⟩
    rw [Nat.toString_eq_ofList_toDigits, String.toList_ofList]
    exact Decimal.digits_zeros 0 count
  case message =>
    intro text htext
    obtain rfl : message = some text := htext
    simp

/-! ## The text of a reply -/

/-- The two layouts that replies are written in. -/
theorem Json.Layout.isBlank_of_mem {layout : Layout} (h : layout ∈ [Layout.compact, .indented]) :
    layout.IsBlank := by
  rcases List.mem_pair.mp h with rfl | rfl
  · exact Layout.isBlank_compact
  · exact Layout.isBlank_indented

/-- The text of a reply, in either layout, is that of one object, which has a member for each part
of the reply, and the reply is rebuilt from it. Replies with one text are equal. -/
theorem Reply.text_faithful {reply : Reply} (hbuilt : reply.Built) :
    ∃ members, reply.Members members ∧
      (∀ layout ∈ [Layout.compact, .indented],
        Json.ofText? (Json.write layout reply.json) = some (.object members)) ∧
      Reply.ofJson? (.object members) = some reply ∧
      ∀ layout ∈ [Layout.compact, .indented], ∀ layout' ∈ [Layout.compact, .indented],
        ∀ other : Reply, other.Built →
          Json.write layout' other.json = Json.write layout reply.json → other = reply := by
  obtain ⟨members, hjson, hmembers⟩ := exists_members hbuilt
  have hread : ∀ layout ∈ [Layout.compact, .indented], ∀ reply : Reply,
      Json.ofText? (Json.write layout reply.json) = some reply.json :=
    fun layout hlayout reply => Json.ofText?_write (Layout.isBlank_of_mem hlayout) reply.valid_json
  refine ⟨members, hmembers, ?_, ?_, ?_⟩
  · intro layout hlayout
    rw [← hjson]
    exact hread layout hlayout reply
  · rw [← hjson]
    exact ofJson?_json hbuilt
  · intro layout hlayout layout' hlayout' other hother htext
    -- the text has one tree, and the tree one reply
    have htree : other.json = reply.json := by
      have hsame := hread layout' hlayout' other
      rw [htext, hread layout hlayout reply] at hsame
      exact (Option.some.inj hsame).symm
    have hsame := ofJson?_json hother
    rw [htree, ofJson?_json hbuilt] at hsame
    exact (Option.some.inj hsame).symm

/-- A reply with a row that has been given the least integer and a text with escapes. -/
theorem Reply.text_faithful_row :
    ∃ reply : Reply, reply.Built ∧
      reply.rows =
        some [Row.ofList [("id", .integer Int64.minValue), ("say", .text "\"\\\n\x01é")]] ∧
      ∃ members, members.map (·.1) = ["success", "rows", "message"] ∧
        Json.ofText? (Json.write .compact reply.json) = some (.object members) ∧
        Json.ofText? (Json.write .indented reply.json) = some (.object members) := by
  let row := Row.ofList [("id", .integer Int64.minValue), ("say", .text "\"\\\n\x01é")]
  have hbuilt : (Reply.selected [row]).Built := by
    intro rows hrows
    obtain rfl : [row] = rows := Option.some.inj hrows
    exact List.forall_mem_singleton.mpr (Row.built_ofList _)
  obtain ⟨members, hmembers, hread, -, -⟩ := text_faithful hbuilt
  exact ⟨_, hbuilt, rfl, members, hmembers.keys, hread _ (by simp), hread _ (by simp)⟩

/-! ## The replies of a session -/

/-- The rows that a selection answers with have come about by giving values to columns. -/
theorem Table.built_select {table : Table} {projection : Projection} {condition : Predicate}
    {rows : List Row} (h : table.select projection condition = .ok rows) :
    ∀ row ∈ rows, row.Built := by
  unfold select at h
  obtain ⟨positions, -, h⟩ := bind_ok_iff.mp h
  obtain ⟨mask, -, h⟩ := bind_ok_iff.mp h
  intro row hrow
  obtain ⟨stored, -, hread⟩ := exists_of_mem_mapM h hrow
  obtain ⟨entries, -, hcollect⟩ := bind_ok_iff.mp hread
  cases hcollect
  exact Row.built_ofList entries

theorem Reply.rows_ofError (cause : Error) : (ofError cause).rows = none := by
  unfold ofError ofFailure
  split <;> rfl

/-- The rows in a reply are those of a selection on a table. -/
theorem Catalog.Sound.rows_execute {catalog : Catalog} (h : catalog.Sound) {text : String}
    {rows : List Row} (hrows : (catalog.execute text).reply.rows = some rows) :
    ∃ (table : Table) (projection : Projection) (condition : Predicate),
      table.select projection condition = .ok rows := by
  rcases h.execute_effect text with
    ⟨cause, -, hreply, -⟩ | ⟨statement, command, answer, -, hcommand, hreply, heffect⟩
  · rw [hreply, Reply.rows_ofError] at hrows
    cases hrows
  · rw [hreply] at hrows
    generalize (catalog.execute text).catalog = after at heffect
    cases statement with
    | select projection table join condition =>
      cases hcommand
      cases heffect with
      | calls _ _ _ hperform =>
        simp only [Table.perform] at hperform
        split at hperform
        · rename_i found hselect
          cases hperform
          obtain rfl : found = rows := Option.some.inj hrows
          exact ⟨_, _, _, hselect⟩
        · cases hperform
    | _ => cases answer <;> cases hrows

/-- So the text of the reply to any statement tells all of it. -/
theorem Catalog.Sound.built_execute {catalog : Catalog} (h : catalog.Sound) (text : String) :
    (catalog.execute text).reply.Built := by
  intro rows hrows
  obtain ⟨table, projection, condition, hselect⟩ := h.rows_execute hrows
  exact Table.built_select hselect

end TableStore
