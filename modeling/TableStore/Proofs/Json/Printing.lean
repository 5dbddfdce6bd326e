import TableStore.Proofs.Json.Texts
import TableStore.Proofs.Json.Trees
import TableStore.Proofs.Text.Utf8

/-!
# What is written is read back

A tree is written as a text of it, in any layout whose gaps are blank, and this text is read back as
the tree. So the two layouts there are differ in nothing that a reader can tell, and a text belongs
to one tree.

* `Json.ofText?` — the tree of a text, with its texts decoded.
* `Json.Valid` — the numbers of a tree are ones.
* `Json.exists_denotes_print` — what is written is cut into lexemes that denote the tree.
* `Json.ofText?_write` — it is read back.
-/

namespace TableStore.Json

open Utf8 (Symbol)

/-! ## Decoded trees -/

mutual

/-- A tree with its texts decoded, if all of them can be. -/
def texts? : Json (List Letter) → Option (Json String)
  | .null => some .null
  | .boolean b => some (.boolean b)
  | .number numeral => some (.number numeral)
  | .text letters => (decode? letters).map .text
  | .array items => (itemTexts? items).map .array
  | .object members => (memberTexts? members).map .object

/-- Items with their texts decoded. -/
def itemTexts? : List (Json (List Letter)) → Option (List (Json String))
  | [] => some []
  | item :: items => do return (← texts? item) :: (← itemTexts? items)

/-- Members with their keys and texts decoded. -/
def memberTexts? : List (List Letter × Json (List Letter)) → Option (List (String × Json String))
  | [] => some []
  | (key, value) :: members => do
    return (← decode? key, ← texts? value) :: (← memberTexts? members)

end

/-- The tree of a text, unless it is no JSON or does not spell characters throughout. -/
def ofText? (text : String) : Option (Json String) :=
  (read? (Utf8.bytes text)).bind texts?

/-- The numbers of a tree have the form of a number. -/
inductive Valid : Json String → Prop where
  | null : Valid .null
  | boolean (b : Bool) : Valid (.boolean b)
  | number {numeral : String} (hnumeral : Numeral numeral.toList) : Valid (.number numeral)
  | text (s : String) : Valid (.text s)
  | array {items : List (Json String)} (hitems : ∀ item ∈ items, Valid item) :
      Valid (.array items)
  | object {members : List (String × Json String)}
      (hmembers : ∀ member ∈ members, Valid member.2) : Valid (.object members)

/-! ## Parts of a cut -/

/-- The gaps of a layout are blank. -/
structure Layout.IsBlank (layout : Layout) : Prop where
  gap : ∀ depth, ∀ c ∈ layout.gap depth, isSpace c = true
  afterColon : ∀ c ∈ layout.afterColon, isSpace c = true

theorem Layout.isBlank_compact : compact.IsBlank :=
  ⟨fun _ => List.forall_mem_nil _, List.forall_mem_nil _⟩

theorem Layout.isBlank_indented : indented.IsBlank := by
  refine ⟨fun depth => List.forall_mem_cons.mpr ⟨rfl, fun c hc => ?_⟩,
    List.forall_mem_singleton.mpr rfl⟩
  rw [List.eq_of_mem_replicate hc]
  rfl

section

variable {rest : List Symbol} {lexemes : List Lexeme}

theorem Cut.blanks {cs : List Char} (hblank : ∀ c ∈ cs, isSpace c = true)
    (hrest : Cut rest lexemes) : Cut (cs.map .char ++ rest) lexemes := by
  induction cs with
  | nil => exact hrest
  | cons c cs ih =>
    obtain ⟨hc, hcs⟩ := List.forall_mem_cons.mp hblank
    exact .space hc (ih hcs)

theorem Cut.mark {c : Char} {mark : Lexeme} (hmark : (c, mark) ∈ marks) (hrest : Cut rest lexemes) :
    Cut (.char c :: rest) (mark :: lexemes) :=
  .lexeme (.mark hmark) hrest

theorem cut_word {word : String} {lexeme : Lexeme} (hword : (word, lexeme) ∈ words) :
    Cut (word.toList.map .char) [lexeme] := by
  have hcut := Cut.lexeme (.word hword) .nil
  rw [List.append_nil] at hcut
  exact hcut

theorem exists_cut_quote (s : String) :
    ∃ letters, Spell letters s.toList ∧ Cut ((quote s).map .char) [.text letters] := by
  obtain ⟨letters, hletters, hspell⟩ := exists_letters_escape s.toList
  refine ⟨letters, hspell, ?_⟩
  have hcut := Cut.lexeme (.text hletters) .nil
  rw [List.append_nil] at hcut
  rw [quote, List.map_cons, List.map_append]
  exact hcut

/-- A key and its colon in front of lexemes. -/
theorem exists_cut_key {layout : Layout} (hlayout : layout.IsBlank) (key : String) :
    ∃ letters, decode? letters = some key ∧ ∀ {rest : List Symbol} {lexemes : List Lexeme},
      Cut rest lexemes →
        Cut ((quote key).map .char ++ .char ':' :: (layout.afterColon.map .char ++ rest))
          (.text letters :: .colon :: lexemes) := by
  obtain ⟨letters, hspell, hcut⟩ := exists_cut_quote key
  refine ⟨letters, decode?_eq_some hspell, fun hrest => ?_⟩
  exact hcut.append (.mark (by decide) (.blanks hlayout.afterColon hrest))

end

/-! ## What is written -/

mutual

/-- What is written for a tree is cut into lexemes that denote it. -/
theorem exists_denotes_print {layout : Layout} (hlayout : layout.IsBlank) (depth : Nat)
    (json : Json String) (hvalid : Valid json) :
    ∃ lexemes tree, Cut ((print layout depth json).map .char) lexemes ∧ Denotes lexemes tree ∧
      texts? tree = some json := by
  cases hvalid with
  | null => exact ⟨_, _, cut_word (by decide), .null, rfl⟩
  | boolean b =>
    cases b with
    | true => exact ⟨_, _, cut_word (by decide), .boolean true, rfl⟩
    | false => exact ⟨_, _, cut_word (by decide), .boolean false, rfl⟩
  | @number numeral hnumeral =>
    refine ⟨[.number numeral], .number numeral, ?_, .number numeral, rfl⟩
    have hcut := Cut.lexeme (.number hnumeral) .nil
    rw [List.append_nil, String.ofList_toList] at hcut
    exact hcut
  | text s =>
    obtain ⟨letters, hspell, hcut⟩ := exists_cut_quote s
    refine ⟨_, .text letters, hcut, .text letters, ?_⟩
    rw [texts?, decode?_eq_some hspell, Option.map_some]
  | @array items hitems =>
    cases items with
    | nil => exact ⟨_, _, .mark (by decide) (.mark (by decide) .nil), .emptyArray, rfl⟩
    | cons item items =>
      obtain ⟨hitem, hitems⟩ := List.forall_mem_cons.mp hitems
      obtain ⟨first, tree, hfirst, htree, htexts⟩ :=
        exists_denotes_print hlayout (depth + 1) item hitem
      obtain ⟨more, trees, hmore, htrees, hmoreTexts⟩ :=
        exists_moreItems hlayout (depth + 1) items hitems
      refine ⟨_, _, ?_, .array htree htrees, ?_⟩
      · have hcut := Cut.mark (show ('[', .leftBracket) ∈ marks by decide) <|
          .blanks (hlayout.gap (depth + 1)) <| hfirst.append <| hmore.append <|
          .blanks (hlayout.gap depth) <| .mark (show (']', .rightBracket) ∈ marks by decide) .nil
        simpa [print] using hcut
      · simp [texts?, itemTexts?, htexts, hmoreTexts]
  | @object members hmembers =>
    cases members with
    | nil => exact ⟨_, _, .mark (by decide) (.mark (by decide) .nil), .emptyObject, rfl⟩
    | cons member members =>
      obtain ⟨key, value⟩ := member
      obtain ⟨hvalue, hmembers⟩ := List.forall_mem_cons.mp hmembers
      obtain ⟨letters, hkey, hcutKey⟩ := exists_cut_key hlayout key
      obtain ⟨first, tree, hfirst, htree, htexts⟩ :=
        exists_denotes_print hlayout (depth + 1) value hvalue
      obtain ⟨more, trees, hmore, htrees, hmoreTexts⟩ :=
        exists_moreMembers hlayout (depth + 1) members hmembers
      refine ⟨_, .object ((letters, tree) :: trees), ?_, .object htree htrees, ?_⟩
      · have hcut := Cut.mark (show ('\x7b', .leftBrace) ∈ marks by decide) <|
          .blanks (hlayout.gap (depth + 1)) <| hcutKey <| hfirst.append <| hmore.append <|
          .blanks (hlayout.gap depth) <| .mark (show ('\x7d', .rightBrace) ∈ marks by decide) .nil
        simpa [print] using hcut
      · simp [texts?, memberTexts?, hkey, htexts, hmoreTexts]

theorem exists_moreItems {layout : Layout} (hlayout : layout.IsBlank) (depth : Nat)
    (items : List (Json String)) (hvalid : ∀ item ∈ items, Valid item) :
    ∃ lexemes trees, Cut ((moreItems layout depth items).map .char) lexemes ∧
      MoreItems lexemes trees ∧ itemTexts? trees = some items := by
  cases items with
  | nil => exact ⟨_, _, .nil, .nil, rfl⟩
  | cons item items =>
    obtain ⟨hitem, hitems⟩ := List.forall_mem_cons.mp hvalid
    obtain ⟨phrase, tree, hphrase, htree, htexts⟩ := exists_denotes_print hlayout depth item hitem
    obtain ⟨more, trees, hmore, htrees, hmoreTexts⟩ := exists_moreItems hlayout depth items hitems
    refine ⟨_, _, ?_, .cons htree htrees, ?_⟩
    · have hcut := Cut.mark (show (',', .comma) ∈ marks by decide) <|
        .blanks (hlayout.gap depth) <| hphrase.append hmore
      simpa [moreItems] using hcut
    · simp [itemTexts?, htexts, hmoreTexts]

theorem exists_moreMembers {layout : Layout} (hlayout : layout.IsBlank) (depth : Nat)
    (members : List (String × Json String)) (hvalid : ∀ member ∈ members, Valid member.2) :
    ∃ lexemes trees, Cut ((moreMembers layout depth members).map .char) lexemes ∧
      MoreMembers lexemes trees ∧ memberTexts? trees = some members := by
  cases members with
  | nil => exact ⟨_, _, .nil, .nil, rfl⟩
  | cons member members =>
    obtain ⟨key, value⟩ := member
    obtain ⟨hvalue, hmembers⟩ := List.forall_mem_cons.mp hvalid
    obtain ⟨letters, hkey, hcutKey⟩ := exists_cut_key hlayout key
    obtain ⟨phrase, tree, hphrase, htree, htexts⟩ := exists_denotes_print hlayout depth value hvalue
    obtain ⟨more, trees, hmore, htrees, hmoreTexts⟩ :=
      exists_moreMembers hlayout depth members hmembers
    refine ⟨_, (letters, tree) :: trees, ?_, .cons htree htrees, ?_⟩
    · have hcut := Cut.mark (show (',', .comma) ∈ marks by decide) <|
        .blanks (hlayout.gap depth) <| hcutKey <| hphrase.append hmore
      simpa [moreMembers] using hcut
    · simp [memberTexts?, hkey, htexts, hmoreTexts]

end

/-- What is written for a tree, in whatever layout, is read back as the tree. -/
theorem ofText?_write {layout : Layout} (hlayout : layout.IsBlank) {json : Json String}
    (hvalid : Valid json) : ofText? (write layout json) = some json := by
  obtain ⟨lexemes, tree, hcut, hdenotes, htexts⟩ := exists_denotes_print hlayout 0 json hvalid
  have htext : TextOf (Utf8.bytes (write layout json)) tree := by
    refine ⟨lexemes, ?_, hdenotes⟩
    rw [Utf8.symbols_bytes, write, String.toList_ofList]
    exact hcut
  rw [ofText?, read?_eq_some_iff.mpr htext, Option.bind_some, htexts]

end TableStore.Json
