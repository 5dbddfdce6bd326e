import TableStore.Endpoint
import TableStore.Proofs.Json.Printing

/-!
# Which bodies hold a statement

A body holds a statement if it is the JSON text of an object with one member `sql`, whose value is
the statement, or of an array of the statement alone. Other members may have any value, but their
keys are texts. That is told by the grammar, and reading a body is shown to agree with it.

* `Endpoint.Holds` — a body holds a statement.
* `Endpoint.statement?_eq_some_iff` — the endpoint accepts just these bodies.
* `Endpoint.QueryBody` — bodies with the member `sql` only; `Endpoint.QueryBody.holds`.
-/

namespace TableStore.Endpoint

open Json (Letter TextOf Spell Literal isSpace)

/-- A body holds a statement. -/
inductive Holds : List UInt8 → String → Prop where
  | object {body : List UInt8} {before after : List (List Letter × Json (List Letter))}
      {key letters : List Letter} {text : String}
      (htext : TextOf body (.object (before ++ (key, .text letters) :: after)))
      (hkey : Spell key "sql".toList) (hstatement : Spell letters text.toList)
      (hothers : ∀ member ∈ before ++ after, ∃ other : String,
        Spell member.1 other.toList ∧ other ≠ "sql") : Holds body text
  | array {body : List UInt8} {letters : List Letter} {text : String}
      (htext : TextOf body (.array [.text letters])) (hstatement : Spell letters text.toList) :
      Holds body text

/-! ## Objects -/

section

variable {members : List (List Letter × Json (List Letter))} {letters : List Letter} {text : String}

/-- The letters of keys and of texts among the values are as hexadecimal digits give them. -/
theorem sixteenBits_of_object {body : List UInt8} (h : TextOf body (.object members)) :
    ∀ member ∈ members, Json.SixteenBits member.1 ∧
      ∀ letters, member.2 = .text letters → Json.SixteenBits letters := by
  obtain ⟨lexemes, hcut, hdenotes⟩ := h
  intro member hmember
  obtain ⟨hkey, htext⟩ := hdenotes.mem_of_object hmember
  exact ⟨hcut.sixteenBits hkey, fun letters hletters => hcut.sixteenBits (htext letters hletters)⟩

theorem sixteenBits_of_array {body : List UInt8} (h : TextOf body (.array [.text letters])) :
    Json.SixteenBits letters := by
  obtain ⟨lexemes, hcut, hdenotes⟩ := h
  refine hcut.sixteenBits ?_
  cases hdenotes with
  | array hfirst =>
    have hmem := hfirst.mem_of_text
    simp [hmem]

/-- A member with its key decoded. -/
def keyed? (member : List Letter × Json (List Letter)) : Option (String × Json (List Letter)) :=
  (Json.decode? member.1).map (·, member.2)

theorem keyed?_eq_some_iff {member : List Letter × Json (List Letter)}
    {entry : String × Json (List Letter)} :
    keyed? member = some entry ↔ Json.decode? member.1 = some entry.1 ∧ member.2 = entry.2 := by
  unfold keyed?
  rw [Option.map_eq_some_iff]
  constructor
  · rintro ⟨key, hkey, rfl⟩
    exact ⟨hkey, rfl⟩
  · rintro ⟨hkey, hvalue⟩
    exact ⟨entry.1, hkey, Prod.ext rfl hvalue⟩

/-- The statement of an object is found among its members, once their keys are decoded. -/
theorem member?_eq_some {entries : List (String × Json (List Letter))}
    (hkeyed : List.Forall₂ (fun member entry => keyed? member = some entry) members entries) :
    member? members = some text ↔
      ∃ key letters, entries.filter (·.1 == "sql") = [(key, .text letters)] ∧
        Json.decode? letters = some text := by
  have hread : members.mapM keyed? = some entries := mapM_some_iff.mpr hkeyed
  show (members.mapM keyed?).bind _ = some text ↔ _
  rw [hread, Option.bind_some]
  constructor
  · intro h
    split at h
    · rename_i key letters hfilter
      exact ⟨key, letters, hfilter, h⟩
    · cases h
  · rintro ⟨key, letters, hfilter, htext⟩
    rw [hfilter]
    exact htext

theorem exists_forall₂_of_member? (h : member? members = some text) :
    ∃ entries, List.Forall₂ (fun member entry => keyed? member = some entry) members entries := by
  obtain ⟨entries, hentries, -⟩ := Option.bind_eq_some_iff.mp h
  exact ⟨entries, mapM_some_iff.mp hentries⟩

/-- Members whose keys can be decoded have their keys decoded. -/
theorem exists_forall₂_keyed?
    (h : ∀ member ∈ members, ∃ other, Json.decode? member.1 = some other ∧ other ≠ "sql") :
    ∃ entries, List.Forall₂ (fun member entry => keyed? member = some entry) members entries := by
  refine exists_forall₂ fun member hmember => ?_
  obtain ⟨other, hother, -⟩ := h member hmember
  exact ⟨(other, member.2), keyed?_eq_some_iff.mpr ⟨hother, rfl⟩⟩

/-- Other keys than `sql` are decoded to other names. -/
theorem name_ne_of_forall₂ {entries : List (String × Json (List Letter))}
    (hkeyed : List.Forall₂ (fun member entry => keyed? member = some entry) members entries)
    (hothers : ∀ member ∈ members, ∃ other, Json.decode? member.1 = some other ∧ other ≠ "sql") :
    ∀ entry ∈ entries, ¬(entry.1 == "sql") = true := by
  intro entry hentry
  obtain ⟨member, hmember, hread⟩ := exists_of_mem_forall₂ hkeyed hentry
  obtain ⟨other, hother, hne⟩ := hothers member hmember
  rw [(keyed?_eq_some_iff.mp hread).1] at hother
  rw [Option.some.inj hother, beq_iff_eq]
  exact hne

/-- An object holds a statement if one member has the key `sql`, and no other has. -/
theorem member?_eq_some_iff :
    member? members = some text ↔
      ∃ before key letters after, members = before ++ (key, .text letters) :: after ∧
        Json.decode? key = some "sql" ∧ Json.decode? letters = some text ∧
        ∀ member ∈ before ++ after, ∃ other,
          Json.decode? member.1 = some other ∧ other ≠ "sql" := by
  constructor
  · intro h
    obtain ⟨entries, hkeyed⟩ := exists_forall₂_of_member? h
    obtain ⟨name, letters, hfilter, htext⟩ := (member?_eq_some hkeyed).mp h
    obtain ⟨before, after, rfl, hbefore, hname, hafter⟩ := List.filter_eq_cons_iff.mp hfilter
    rw [List.filter_eq_nil_iff] at hafter
    obtain ⟨before', ⟨key, value⟩, after', rfl, hbefore', hmember, hafter'⟩ :=
      exists_of_forall₂_append_cons hkeyed
    obtain ⟨hkey, rfl⟩ := keyed?_eq_some_iff.mp hmember
    obtain rfl : name = "sql" := by simpa using hname
    refine ⟨before', key, letters, after', rfl, hkey, htext, fun member hmem => ?_⟩
    -- a member at another place has its entry at another place
    have hrest := List.rel_append hbefore' hafter'
    obtain ⟨entry, hentry, hread⟩ := exists_of_mem_forall₂ hrest.flip hmem
    refine ⟨entry.1, (keyed?_eq_some_iff.mp hread).1, ?_⟩
    rcases List.mem_append.mp hentry with hin | hin
    · simpa using hbefore entry hin
    · simpa using hafter entry hin
  · rintro ⟨before, key, letters, after, rfl, hkey, htext, hothers⟩
    obtain ⟨hbefore, hafter⟩ := List.forall_mem_append.mp hothers
    obtain ⟨entries, hentries⟩ := exists_forall₂_keyed? hbefore
    obtain ⟨more, hmore⟩ := exists_forall₂_keyed? hafter
    have hsql : keyed? (key, .text letters) = some ("sql", .text letters) :=
      keyed?_eq_some_iff.mpr ⟨hkey, rfl⟩
    refine (member?_eq_some (List.rel_append hentries (.cons hsql hmore))).mpr
      ⟨"sql", letters, ?_, htext⟩
    refine List.filter_eq_cons_iff.mpr
      ⟨entries, more, rfl, name_ne_of_forall₂ hentries hbefore, by simp, ?_⟩
    exact List.filter_eq_nil_iff.mpr (name_ne_of_forall₂ hmore hafter)

end

/-! ## Bodies -/

/-- The endpoint accepts just the bodies that hold a statement. -/
theorem statement?_eq_some_iff {body : List UInt8} {text : String} :
    statement? body = some text ↔ Holds body text := by
  unfold statement?
  constructor
  · intro h
    split at h
    · rename_i members hread
      have htree := Json.read?_eq_some_iff.mp hread
      have hbits := sixteenBits_of_object htree
      obtain ⟨before, key, letters, after, rfl, hkey, htext, hothers⟩ := member?_eq_some_iff.mp h
      obtain ⟨hkeyBits, htextBits⟩ := hbits (key, .text letters) (by simp)
      refine .object htree ((Json.decode?_eq_some_iff hkeyBits).mp hkey)
        ((Json.decode?_eq_some_iff (htextBits letters rfl)).mp htext) fun member hmember => ?_
      obtain ⟨other, hother, hne⟩ := hothers member hmember
      have hmem : member ∈ before ++ (key, .text letters) :: after := by
        rcases List.mem_append.mp hmember with hin | hin <;> simp [hin]
      exact ⟨other, (Json.decode?_eq_some_iff (hbits member hmem).1).mp hother, hne⟩
    · rename_i letters hread
      have htree := Json.read?_eq_some_iff.mp hread
      exact .array htree ((Json.decode?_eq_some_iff (sixteenBits_of_array htree)).mp h)
    · cases h
  · intro h
    cases h with
    | @object before after key letters _ htree hkey hstatement hothers =>
      rw [Json.read?_eq_some_iff.mpr htree]
      refine member?_eq_some_iff.mpr ⟨before, key, letters, after, rfl,
        Json.decode?_eq_some hkey, Json.decode?_eq_some hstatement, fun member hmember => ?_⟩
      obtain ⟨other, hother, hne⟩ := hothers member hmember
      exact ⟨other, Json.decode?_eq_some hother, hne⟩
    | array htree hstatement =>
      rw [Json.read?_eq_some_iff.mpr htree]
      exact Json.decode?_eq_some hstatement

/-- A body `{"sql": …}` with any of the JSON texts of a statement, and blanks or none behind the
colon. -/
inductive QueryBody (text : String) (body : List UInt8) : Prop where
  | intro {gap : List Char} {literal : List Utf8.Symbol} (hgap : ∀ c ∈ gap, isSpace c = true)
      (hliteral : Literal text literal)
      (hbody : Utf8.symbols body = "\x7b\"sql\":".toList.map .char ++
        (gap.map .char ++ (literal ++ [.char '\x7d']))) : QueryBody text body

theorem QueryBody.holds {text : String} {body : List UInt8} (h : QueryBody text body) :
    Holds body text := by
  obtain ⟨hgap, @⟨literal, letters, hletters, hspell⟩, hbody⟩ := h
  obtain ⟨key, hkey, hcut⟩ := Json.exists_cut_quote "sql"
  have hopen : "\x7b\"sql\":".toList = '\x7b' :: (Json.quote "sql" ++ [':']) := by decide
  have hlexemes := Json.Cut.mark (show ('\x7b', .leftBrace) ∈ Json.marks by decide) <|
    hcut.append <| .mark (show (':', .colon) ∈ Json.marks by decide) <|
    .blanks hgap <| .lexeme (.text hletters) <|
    .mark (show ('\x7d', .rightBrace) ∈ Json.marks by decide) .nil
  have htext : TextOf body (.object ([] ++ (key, .text letters) :: [])) := by
    refine ⟨_, ?_, .object (.text letters) .nil⟩
    rw [hbody, hopen]
    simpa using hlexemes
  exact .object htext hkey hspell (List.forall_mem_nil _)

end TableStore.Endpoint
