import TableStore.Json.Tree
import TableStore.Proofs.Json.Texts

/-!
# What trees JSON text denotes

The grammar of values on lexemes, and the reader with its open places against it. What the places
that wait for a value still ask of the lexemes is written down as `Closes`: every accepting run of
the reader has a derivation behind it, and every derivation is followed by one.

* `Json.Denotes`, `Json.MoreItems`, `Json.MoreMembers` — the grammar.
* `Json.TextOf` — bytes are the text of a tree.
* `Json.value?_eq_some_iff`, `Json.read?_eq_some_iff` — the reader accepts just what the grammar
  derives, and yields its tree.
-/

namespace TableStore.Json

/-! ## The grammar -/

mutual

/-- What lexemes denote: a scalar, or items or members between brackets. -/
inductive Denotes : List Lexeme → Json (List Letter) → Prop where
  | null : Denotes [.null] .null
  | boolean (b : Bool) : Denotes [.boolean b] (.boolean b)
  | number (numeral : String) : Denotes [.number numeral] (.number numeral)
  | text (letters : List Letter) : Denotes [.text letters] (.text letters)
  | emptyArray : Denotes [.leftBracket, .rightBracket] (.array [])
  | array {first more : List Lexeme} {item : Json (List Letter)} {items : List (Json (List Letter))}
      (hfirst : Denotes first item) (hmore : MoreItems more items) :
      Denotes (.leftBracket :: (first ++ (more ++ [.rightBracket]))) (.array (item :: items))
  | emptyObject : Denotes [.leftBrace, .rightBrace] (.object [])
  | object {first more : List Lexeme} {key : List Letter} {value : Json (List Letter)}
      {members : List (List Letter × Json (List Letter))} (hfirst : Denotes first value)
      (hmore : MoreMembers more members) :
      Denotes (.leftBrace :: .text key :: .colon :: (first ++ (more ++ [.rightBrace])))
        (.object ((key, value) :: members))

/-- The items behind the first one, each after a comma. -/
inductive MoreItems : List Lexeme → List (Json (List Letter)) → Prop where
  | nil : MoreItems [] []
  | cons {phrase more : List Lexeme} {item : Json (List Letter)}
      {items : List (Json (List Letter))} (hitem : Denotes phrase item)
      (hmore : MoreItems more items) : MoreItems (.comma :: (phrase ++ more)) (item :: items)

/-- The members behind the first one, each after a comma. -/
inductive MoreMembers : List Lexeme → List (List Letter × Json (List Letter)) → Prop where
  | nil : MoreMembers [] []
  | cons {phrase more : List Lexeme} {key : List Letter} {value : Json (List Letter)}
      {members : List (List Letter × Json (List Letter))} (hvalue : Denotes phrase value)
      (hmore : MoreMembers more members) :
      MoreMembers (.comma :: .text key :: .colon :: (phrase ++ more)) ((key, value) :: members)

end

/-- Bytes are the text of a tree: they spell lexemes that denote it. -/
def TextOf (bytes : List UInt8) (tree : Json (List Letter)) : Prop :=
  ∃ lexemes, Cut (Utf8.symbols bytes) lexemes ∧ Denotes lexemes tree

/-! ## Derivations are read -/

/-- Whether a lexeme may be the first one of a value: it is no mark and closes nothing. -/
def Lexeme.isStart : Lexeme → Bool
  | .rightBracket | .rightBrace | .colon | .comma => false
  | _ => true

/-- A value that starts with a text is this text. -/
theorem Denotes.start {phrase : List Lexeme} {tree : Json (List Letter)} (h : Denotes phrase tree) :
    ∃ lexeme more, phrase = lexeme :: more ∧ lexeme.isStart = true ∧
      ((∃ letters, lexeme = .text letters) → more = []) := by
  cases h with
  | null | boolean | number | text =>
    exact ⟨_, _, rfl, rfl, fun _ => rfl⟩
  | emptyArray | array | emptyObject | object =>
    refine ⟨_, _, rfl, rfl, ?_⟩
    rintro ⟨letters, hletters⟩
    cases hletters

section

variable {holes : List (Hole (List Letter))} {first rest : List Lexeme}
  {json item : Json (List Letter)}

/-- Behind a bracket an item is read, and not the end of the array. -/
theorem value?_leftBracket (h : Denotes first item) :
    value? holes (.leftBracket :: (first ++ rest)) =
      value? (.item [] :: holes) (first ++ rest) := by
  obtain ⟨lexeme, more, rfl, hstart, -⟩ := h.start
  rw [List.cons_append, value?.eq_def]
  cases lexeme with
  | rightBracket => cases hstart
  | _ => rfl

/-- Behind a comma in an array an item is read, and not a key. -/
theorem filled?_comma {before : List (Json (List Letter))} (h : Denotes first item)
    (hrest : rest.head? ≠ some .colon) :
    filled? json (.item before :: holes) (.comma :: (first ++ rest)) =
      value? (.item (before ++ [json]) :: holes) (first ++ rest) := by
  obtain ⟨lexeme, more, rfl, hstart, htext⟩ := h.start
  rw [List.cons_append, filled?.eq_def]
  cases lexeme with
  | text letters =>
    obtain rfl := htext ⟨letters, rfl⟩
    cases rest with
    | nil => rfl
    | cons next rest =>
      cases next with
      | colon => exact absurd rfl hrest
      | _ => rfl
  | _ => rfl

/-- Behind a brace and a key a value is read for it. -/
theorem value?_leftBrace {key : List Letter} :
    value? holes (.leftBrace :: .text key :: .colon :: rest) =
      value? (.member [] key :: holes) rest := by
  rw [value?.eq_def]

/-- Behind a comma and a key in an object a value is read for it. -/
theorem filled?_key {before : List (List Letter × Json (List Letter))} {last key : List Letter} :
    filled? json (.member before last :: holes) (.comma :: .text key :: .colon :: rest) =
      value? (.member (before ++ [(last, json)]) key :: holes) rest := by
  rw [filled?.eq_def]

end

mutual

/-- A value is read to its end, and fills the innermost hole. -/
theorem value?_append {phrase : List Lexeme} {tree : Json (List Letter)} (h : Denotes phrase tree)
    (holes : List (Hole (List Letter))) (rest : List Lexeme) :
    value? holes (phrase ++ rest) = filled? tree holes rest := by
  cases h with
  | null | boolean | number | text | emptyArray | emptyObject =>
    rw [value?.eq_def]
    rfl
  | @array first more item items hfirst hmore =>
    rw [List.cons_append, List.append_assoc, value?_leftBracket hfirst, value?_append hfirst,
      List.append_assoc]
    exact filled?_moreItems hmore holes rest [] item
  | @object first more key value members hfirst hmore =>
    rw [List.cons_append, List.cons_append, List.cons_append, value?_leftBrace,
      List.append_assoc, value?_append hfirst, List.append_assoc]
    exact filled?_moreMembers hmore holes rest [] key value

/-- The rest of an array is read to its bracket. -/
theorem filled?_moreItems {more : List Lexeme} {items : List (Json (List Letter))}
    (h : MoreItems more items) (holes : List (Hole (List Letter))) (rest : List Lexeme)
    (before : List (Json (List Letter))) (json : Json (List Letter)) :
    filled? json (.item before :: holes) (more ++ .rightBracket :: rest) =
      filled? (.array (before ++ json :: items)) holes rest := by
  cases h with
  | nil =>
    rw [List.nil_append, filled?.eq_def]
  | @cons phrase more item items hitem hmore =>
    have hbehind : (more ++ .rightBracket :: rest).head? ≠ some .colon := by
      intro hcolon
      cases hmore <;> cases hcolon
    rw [List.cons_append, List.append_assoc, filled?_comma hitem hbehind, value?_append hitem,
      filled?_moreItems hmore, List.append_assoc, List.singleton_append]

/-- The rest of an object is read to its brace. -/
theorem filled?_moreMembers {more : List Lexeme}
    {members : List (List Letter × Json (List Letter))} (h : MoreMembers more members)
    (holes : List (Hole (List Letter))) (rest : List Lexeme)
    (before : List (List Letter × Json (List Letter))) (key : List Letter)
    (json : Json (List Letter)) :
    filled? json (.member before key :: holes) (more ++ .rightBrace :: rest) =
      filled? (.object (before ++ (key, json) :: members)) holes rest := by
  cases h with
  | nil =>
    rw [List.nil_append, filled?.eq_def]
  | @cons phrase more next value members hvalue hmore =>
    rw [List.cons_append, List.cons_append, List.cons_append, filled?_key, List.append_assoc,
      value?_append hvalue, filled?_moreMembers hmore,
      List.append_assoc, List.singleton_append]

end

/-! ## What is read has a derivation -/

/-- What the places that wait for a value ask of the lexemes behind a value, and the tree that comes
out when they have it. -/
inductive Closes : Json (List Letter) → List (Hole (List Letter)) → List Lexeme →
    Json (List Letter) → Prop where
  | done (tree : Json (List Letter)) : Closes tree [] [] tree
  | array {json tree : Json (List Letter)} {before items : List (Json (List Letter))}
      {holes : List (Hole (List Letter))} {more rest : List Lexeme} (hmore : MoreItems more items)
      (hrest : Closes (.array (before ++ json :: items)) holes rest tree) :
      Closes json (.item before :: holes) (more ++ .rightBracket :: rest) tree
  | object {json tree : Json (List Letter)} {key : List Letter}
      {before members : List (List Letter × Json (List Letter))}
      {holes : List (Hole (List Letter))} {more rest : List Lexeme}
      (hmore : MoreMembers more members)
      (hrest : Closes (.object (before ++ (key, json) :: members)) holes rest tree) :
      Closes json (.member before key :: holes) (more ++ .rightBrace :: rest) tree

/-- What the places that wait for a value ask of the lexemes in front of them: a value, and behind
it what they ask for then. -/
inductive Opens : List (Hole (List Letter)) → List Lexeme → Json (List Letter) → Prop where
  | intro {holes : List (Hole (List Letter))} {phrase rest : List Lexeme}
      {json tree : Json (List Letter)} (hvalue : Denotes phrase json)
      (hcloses : Closes json holes rest tree) : Opens holes (phrase ++ rest) tree

section

variable {holes : List (Hole (List Letter))} {rest : List Lexeme} {json tree : Json (List Letter)}

theorem Opens.array (h : Opens (.item [] :: holes) rest tree) :
    Opens holes (.leftBracket :: rest) tree := by
  obtain ⟨hfirst, hcloses⟩ := h
  cases hcloses with
  | array hmore hrest =>
    have h := Opens.intro (.array hfirst hmore) hrest
    simpa using h

theorem Opens.object {key : List Letter} (h : Opens (.member [] key :: holes) rest tree) :
    Opens holes (.leftBrace :: .text key :: .colon :: rest) tree := by
  obtain ⟨hfirst, hcloses⟩ := h
  cases hcloses with
  | object hmore hrest =>
    have h := Opens.intro (.object hfirst hmore) hrest
    simpa using h

theorem Closes.nextItem {before : List (Json (List Letter))}
    (h : Opens (.item (before ++ [json]) :: holes) rest tree) :
    Closes json (.item before :: holes) (.comma :: rest) tree := by
  obtain ⟨hitem, hcloses⟩ := h
  cases hcloses with
  | array hmore hrest =>
    rw [List.append_assoc, List.singleton_append] at hrest
    have h := Closes.array (.cons hitem hmore) hrest
    simpa using h

theorem Closes.nextMember {before : List (List Letter × Json (List Letter))}
    {last key : List Letter}
    (h : Opens (.member (before ++ [(last, json)]) key :: holes) rest tree) :
    Closes json (.member before last :: holes) (.comma :: .text key :: .colon :: rest) tree := by
  obtain ⟨hvalue, hcloses⟩ := h
  cases hcloses with
  | object hmore hrest =>
    rw [List.append_assoc, List.singleton_append] at hrest
    have h := Closes.object (.cons hvalue hmore) hrest
    simpa using h

end

mutual

/-- What is read as a value is one, and what follows it is what the open places ask for. -/
theorem opens_of_value? {holes : List (Hole (List Letter))} {lexemes : List Lexeme}
    {tree : Json (List Letter)} (h : value? holes lexemes = some tree) :
    Opens holes lexemes tree := by
  unfold value? at h
  split at h
  · exact .intro .null (closes_of_filled? h)
  · exact .intro (.boolean _) (closes_of_filled? h)
  · exact .intro (.number _) (closes_of_filled? h)
  · exact .intro (.text _) (closes_of_filled? h)
  · exact .intro .emptyArray (closes_of_filled? h)
  · exact .array (opens_of_value? h)
  · exact .intro .emptyObject (closes_of_filled? h)
  · exact .object (opens_of_value? h)
  · cases h
termination_by lexemes.length

/-- What follows a value in a text that is read is what the open places ask for. -/
theorem closes_of_filled? {json : Json (List Letter)} {holes : List (Hole (List Letter))}
    {lexemes : List Lexeme} {tree : Json (List Letter)}
    (h : filled? json holes lexemes = some tree) : Closes json holes lexemes tree := by
  unfold filled? at h
  split at h
  · split at h
    · cases h
      exact .done _
    · cases h
  · split at h
    · exact .nextMember (opens_of_value? h)
    · cases h
  · split at h
    · exact .nextItem (opens_of_value? h)
    · cases h
  · split at h
    · exact .array .nil (closes_of_filled? h)
    · cases h
  · split at h
    · exact .object .nil (closes_of_filled? h)
    · cases h
  · cases h
termination_by lexemes.length

end

/-- The reader accepts just the lexemes that denote a tree, and yields this tree. -/
theorem value?_eq_some_iff {lexemes : List Lexeme} {tree : Json (List Letter)} :
    value? [] lexemes = some tree ↔ Denotes lexemes tree := by
  constructor
  · intro h
    obtain ⟨hvalue, hcloses⟩ := opens_of_value? h
    cases hcloses with
    | done =>
      rw [List.append_nil]
      exact hvalue
  · intro h
    have hread := value?_append h [] []
    rw [List.append_nil] at hread
    rw [hread, filled?.eq_def]

/-! ## Texts of trees -/

theorem Separated.cons {mark : Lexeme} {lexemes : List Lexeme} (hmark : mark.isMark = true)
    (h : Separated lexemes) : Separated (mark :: lexemes) :=
  List.isChain_cons.mpr ⟨fun _ _ => .inl hmark, h⟩

theorem Separated.append {before after : List Lexeme} (hbefore : Separated before)
    (hafter : Separated after) (hmark : ∀ lexeme ∈ after.head?, lexeme.isMark = true) :
    Separated (before ++ after) :=
  List.IsChain.append hbefore hafter fun _ _ lexeme hlexeme => .inr (hmark lexeme hlexeme)

/-- A key and its colon in front of a value. -/
theorem Separated.key {key : List Letter} {lexemes : List Lexeme} (h : Separated lexemes) :
    Separated (.text key :: .colon :: lexemes) := by
  refine List.isChain_cons.mpr ⟨fun lexeme hlexeme => .inr ?_, Separated.cons rfl h⟩
  obtain rfl := Option.some.inj hlexeme
  rfl

theorem MoreItems.isMark_head {more : List Lexeme} {items : List (Json (List Letter))}
    (h : MoreItems more items) : ∀ lexeme ∈ more.head?, lexeme.isMark = true := by
  intro lexeme hlexeme
  cases h with
  | nil => cases hlexeme
  | cons =>
    obtain rfl := Option.some.inj hlexeme
    rfl

theorem MoreMembers.isMark_head {more : List Lexeme}
    {members : List (List Letter × Json (List Letter))} (h : MoreMembers more members) :
    ∀ lexeme ∈ more.head?, lexeme.isMark = true := by
  intro lexeme hlexeme
  cases h with
  | nil => cases hlexeme
  | cons =>
    obtain rfl := Option.some.inj hlexeme
    rfl

/-- The first value between brackets, what stands behind it, and the closing bracket. -/
theorem Separated.closed {first more : List Lexeme} {closing : Lexeme} (hfirst : Separated first)
    (hmore : Separated more) (hmark : ∀ lexeme ∈ more.head?, lexeme.isMark = true)
    (hclosing : closing.isMark = true) : Separated (first ++ (more ++ [closing])) := by
  refine hfirst.append (hmore.append (.singleton _) ?_) ?_
  · intro lexeme hlexeme
    obtain rfl := Option.some.inj hlexeme
    exact hclosing
  · cases more with
    | nil =>
      intro lexeme hlexeme
      obtain rfl := Option.some.inj hlexeme
      exact hclosing
    | cons => exact hmark

mutual

/-- In what denotes a tree no two lexemes without a mark stand side by side. -/
theorem Denotes.separated {lexemes : List Lexeme} {tree : Json (List Letter)}
    (h : Denotes lexemes tree) : Separated lexemes := by
  cases h with
  | null | boolean | number | text => exact .singleton _
  | emptyArray | emptyObject => exact .cons rfl (.singleton _)
  | array hfirst hmore =>
    exact .cons rfl (hfirst.separated.closed hmore.separated hmore.isMark_head rfl)
  | object hfirst hmore =>
    exact .cons rfl (.key (hfirst.separated.closed hmore.separated hmore.isMark_head rfl))

theorem MoreItems.separated {more : List Lexeme} {items : List (Json (List Letter))}
    (h : MoreItems more items) : Separated more := by
  cases h with
  | nil => exact .nil
  | cons hitem hmore =>
    exact .cons rfl (hitem.separated.append hmore.separated hmore.isMark_head)

theorem MoreMembers.separated {more : List Lexeme}
    {members : List (List Letter × Json (List Letter))} (h : MoreMembers more members) :
    Separated more := by
  cases h with
  | nil => exact .nil
  | cons hvalue hmore =>
    exact .cons rfl (.key (hvalue.separated.append hmore.separated hmore.isMark_head))

end

/-- The reader accepts just the texts of trees, and yields the tree. -/
theorem read?_eq_some_iff {bytes : List UInt8} {tree : Json (List Letter)} :
    read? bytes = some tree ↔ TextOf bytes tree := by
  unfold read?
  rw [Option.bind_eq_some_iff]
  constructor
  · rintro ⟨lexemes, hlexemes, hvalue⟩
    exact ⟨lexemes, .of_lexemes? hlexemes, value?_eq_some_iff.mp hvalue⟩
  · rintro ⟨lexemes, hcut, hdenotes⟩
    exact ⟨lexemes, hcut.lexemes?_eq_some hdenotes.separated, value?_eq_some_iff.mpr hdenotes⟩

/-! ## Texts in a tree -/

theorem Cut.sixteenBits {symbols : List Utf8.Symbol} {lexemes : List Lexeme}
    (h : Cut symbols lexemes) {letters : List Letter} (hmem : .text letters ∈ lexemes) :
    SixteenBits letters := by
  induction h with
  | nil => cases hmem
  | space _ _ ih => exact ih hmem
  | lexeme hspells _ ih =>
    rcases List.mem_cons.mp hmem with rfl | hrest
    · cases hspells with
      | mark hmark => simp [marks] at hmark
      | word hword => simp [words] at hword
      | text hletters => exact hletters.sixteenBits
    · exact ih hrest

theorem Denotes.mem_of_text {phrase : List Lexeme} {letters : List Letter}
    (h : Denotes phrase (.text letters)) : .text letters ∈ phrase := by
  cases h
  exact List.mem_cons_self

/-- The keys of members and the texts among their values stand among the lexemes. -/
theorem MoreMembers.mem {more : List Lexeme} {members : List (List Letter × Json (List Letter))}
    (h : MoreMembers more members) {member : List Letter × Json (List Letter)}
    (hmember : member ∈ members) :
    .text member.1 ∈ more ∧ ∀ letters, member.2 = .text letters → .text letters ∈ more := by
  cases h with
  | nil => cases hmember
  | @cons phrase more key value members hvalue hmore =>
    rcases List.mem_cons.mp hmember with rfl | hrest
    · refine ⟨by simp, ?_⟩
      rintro letters rfl
      have hmem := hvalue.mem_of_text
      simp [hmem]
    · obtain ⟨hkey, htext⟩ := hmore.mem hrest
      refine ⟨by simp [hkey], fun letters hletters => ?_⟩
      simp [htext letters hletters]

theorem Denotes.mem_of_object {lexemes : List Lexeme}
    {members : List (List Letter × Json (List Letter))} (h : Denotes lexemes (.object members))
    {member : List Letter × Json (List Letter)} (hmember : member ∈ members) :
    .text member.1 ∈ lexemes ∧ ∀ letters, member.2 = .text letters → .text letters ∈ lexemes := by
  cases h with
  | emptyObject => cases hmember
  | object hvalue hmore =>
    -- but for the comma, the members stand there as they do behind another one
    obtain ⟨hkey, htext⟩ := (MoreMembers.cons hvalue hmore).mem hmember
    refine ⟨by simpa using hkey, fun letters hletters => ?_⟩
    simpa using htext letters hletters

end TableStore.Json
