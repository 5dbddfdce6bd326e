import TableStore.Proofs.Sql.Shapes

/-!
# Notions of the grammar and their tokens

Of all the tokens that can be spelled, the grammar gives one list only to what can be written, up to
zeros in front of numbers, and none to anything else. This passes from the items of a list to the
list, and from parts to what consists of them, so it has to be shown for single tokens only.

* `Sql.Token.shortest` — takes away zeros in front of a number.
* `Sql.Prints` — the property of a notion, of what can be written of it, and of the tokens of that.
* `Sql.prints_listed`, `Sql.prints_enclosed` — lists, for items of any kind.
* `Sql.Behind`, `Sql.Pair` — notions that consist of parts; `Sql.prints_behind`, `Sql.prints_pair`.
-/

namespace TableStore.Sql

/-! ## Numbers without zeros in front of them -/

/-- The token with its number written as short as can be. -/
def Token.shortest (token : Token) : Token :=
  if token.kind = .number then
    ⟨.number, toString (Nat.ofDigitChars 10 token.text.toList 0)⟩
  else token

/-- A token that can be spelled, and that is as short as can be. -/
structure Token.IsPlain (token : Token) : Prop where
  spellable : Spellable token
  shortest_eq : token.shortest = token

section

variable {token plain : Token} {phrase rest : List Token}

theorem shortest_of_kind_ne (h : token.kind ≠ .number) : token.shortest = token :=
  if_neg h

theorem shortest_number {digits : List Char} {value : Nat} (h : Decimal.Digits digits value) :
    Token.shortest ⟨.number, String.ofList digits⟩ = ⟨.number, toString value⟩ := by
  show (⟨.number, toString (Nat.ofDigitChars 10 (String.ofList digits).toList 0)⟩ : Token) = _
  rw [String.toList_ofList, h.value_eq]

theorem kind_shortest (token : Token) : token.shortest.kind = token.kind := by
  unfold Token.shortest
  split
  · rename_i hkind
    exact hkind.symm
  · rfl

/-- A token that becomes one of another kind than a number was this one before. -/
theorem eq_of_shortest_eq (h : token.shortest = plain) (hkind : plain.kind ≠ .number) :
    token = plain := by
  rw [← h, kind_shortest] at hkind
  rw [← h, shortest_of_kind_ne hkind]

theorem map_shortest_cons_iff (hkind : plain.kind ≠ .number) :
    phrase.map Token.shortest = plain :: rest ↔
      ∃ others, phrase = plain :: others ∧ others.map Token.shortest = rest := by
  rw [List.map_eq_cons_iff]
  constructor
  · rintro ⟨token, others, rfl, hplain, hrest⟩
    rw [eq_of_shortest_eq hplain hkind]
    exact ⟨others, rfl, hrest⟩
  · rintro ⟨others, rfl, hrest⟩
    exact ⟨plain, others, rfl, shortest_of_kind_ne hkind, hrest⟩

/-- Tokens without numbers stay as they are at the head of a phrase. -/
theorem map_shortest_append_iff {head : List Token} (h : ∀ token ∈ head, token.kind ≠ .number) :
    phrase.map Token.shortest = head ++ rest ↔
      ∃ others, phrase = head ++ others ∧ others.map Token.shortest = rest := by
  induction head generalizing phrase with
  | nil => simp
  | cons token head ih =>
    -- the phrase starts with the same token, and what is left of it starts with the others
    obtain ⟨hkind, hhead⟩ := List.forall_mem_cons.mp h
    rw [List.cons_append, map_shortest_cons_iff hkind]
    constructor
    · rintro ⟨others, rfl, hothers⟩
      obtain ⟨last, rfl, hlast⟩ := (ih hhead).mp hothers
      exact ⟨last, rfl, hlast⟩
    · rintro ⟨last, rfl, hlast⟩
      exact ⟨head ++ last, rfl, (ih hhead).mpr ⟨last, rfl, hlast⟩⟩

theorem map_shortest_iff (h : ∀ token ∈ rest, token.kind ≠ .number) :
    phrase.map Token.shortest = rest ↔ phrase = rest := by
  have happend : phrase.map Token.shortest = rest ++ [] ↔ _ := map_shortest_append_iff h
  rw [List.append_nil] at happend
  rw [happend]
  constructor
  · rintro ⟨others, rfl, hothers⟩
    rw [List.map_eq_nil_iff.mp hothers, List.append_nil]
  · rintro rfl
    exact ⟨[], (List.append_nil _).symm, rfl⟩

end

/-! ## Tokens that can be spelled -/

theorem spellable_identifier_iff {name : String} :
    Spellable ⟨.identifier, name⟩ ↔ IsName name.toList := by
  constructor
  · rintro ⟨lexeme, hlexeme⟩
    cases hlexeme with
    | name hname =>
      rw [String.toList_ofList]
      exact hname
    | mark hmark => simp [marks] at hmark
  · intro hname
    have hlexeme := Lexeme.name hname
    rw [String.ofList_toList] at hlexeme
    exact ⟨_, hlexeme⟩

theorem mem_keywords_of_spellable {word : String} (h : Spellable ⟨.keyword, word⟩) :
    word ∈ keywords := by
  obtain ⟨lexeme, hlexeme⟩ := h
  cases hlexeme with
  | keyword hword => exact hword
  | mark hmark => simp [marks] at hmark

theorem exists_comparison_of_spellable {symbol : String} (h : Spellable ⟨.operator, symbol⟩) :
    ∃ op : Comparison, op.symbol = symbol := by
  obtain ⟨lexeme, hlexeme⟩ := h
  cases hlexeme with
  | operator op => exact ⟨op, rfl⟩
  | mark hmark => simp [marks] at hmark

/-- A mark is spelled in one way. -/
theorem text_of_spellable {c : Char} {kind : Token.Kind} {text : String} (hmark : (c, kind) ∈ marks)
    (h : Spellable ⟨kind, text⟩) : text = String.singleton c := by
  -- no other lexeme has the kind of a mark, and no two marks are of one kind
  have hkinds : ∀ mark ∈ marks, mark.2 ∉ [.keyword, .identifier, .number, .text, .operator] := by
    decide
  have hchars : ∀ mark ∈ marks, ∀ mark' ∈ marks, mark.2 = mark'.2 → mark.1 = mark'.1 := by
    decide
  obtain ⟨lexeme, hlexeme⟩ := h
  have hkind := hkinds _ hmark
  cases hlexeme with
  | mark hmark' => exact congrArg String.singleton (hchars _ hmark' _ hmark rfl)
  | keyword | name | number | text | operator => simp at hkind

theorem isPlain_keyword {keyword : String} (h : keyword ∈ keywords) :
    Token.IsPlain ⟨.keyword, keyword⟩ :=
  ⟨spellable_keyword h, rfl⟩

theorem isPlain_identifier {name : String} (h : IsName name.toList) :
    Token.IsPlain ⟨.identifier, name⟩ :=
  ⟨spellable_identifier_iff.mpr h, rfl⟩

theorem isPlain_operator (op : Comparison) : Token.IsPlain ⟨.operator, op.symbol⟩ :=
  ⟨⟨_, .operator op⟩, rfl⟩

theorem isPlain_mark {c : Char} {kind : Token.Kind} (h : (c, kind) ∈ marks) :
    Token.IsPlain ⟨kind, String.singleton c⟩ := by
  refine ⟨⟨[c], .mark h⟩, shortest_of_kind_ne ?_⟩
  unfold marks at h
  fin_cases h <;> exact nofun

/-! ## Printing -/

/-- Among the tokens that can be spelled, a notion of the grammar has the given ones for what can be
written of it, up to zeros in front of numbers, and none for anything else. -/
structure Prints {α : Type} (derives : List Token → α → Prop) (good : α → Prop)
    (tokens : α → List Token) : Prop where
  derives_iff : ∀ {phrase : List Token} {x : α}, (∀ token ∈ phrase, Spellable token) →
    (derives phrase x ↔ good x ∧ phrase.map Token.shortest = tokens x)
  isPlain : ∀ {x : α}, good x → ∀ token ∈ tokens x, token.IsPlain

namespace Prints

variable {α : Type} {derives : List Token → α → Prop} {good : α → Prop} {tokens : α → List Token}

/-- What can be written has its tokens. -/
theorem derives_tokens (h : Prints derives good tokens) {x : α} (hgood : good x) :
    derives (tokens x) x := by
  have hplain := h.isPlain hgood
  refine (h.derives_iff fun token htoken => (hplain token htoken).spellable).mpr ⟨hgood, ?_⟩
  conv_rhs => rw [← List.map_id (tokens x)]
  exact List.map_congr_left fun token htoken => (hplain token htoken).shortest_eq

end Prints

/-! ## Lists -/

section

variable {α : Type} {derives : List Token → α → Prop} {good : α → Prop} {tokens : α → List Token}

/-- Items with a comma in front of each. -/
theorem moreItems_iff (h : Prints derives good tokens) {phrase : List Token} {xs : List α}
    (hphrase : ∀ token ∈ phrase, Spellable token) :
    MoreItems derives phrase xs ↔ (∀ x ∈ xs, good x) ∧
      phrase.map Token.shortest = xs.flatMap fun x => ⟨.comma, ","⟩ :: tokens x := by
  -- on the items; each takes its comma and its own tokens off the head of the phrase
  induction xs generalizing phrase with
  | nil =>
    rw [List.flatMap_nil, List.map_eq_nil_iff]
    constructor
    · intro hmore
      cases hmore
      exact ⟨by simp, rfl⟩
    · rintro ⟨-, rfl⟩
      exact .none
  | cons x xs ih =>
    rw [List.flatMap_cons, List.cons_append, map_shortest_cons_iff (by decide)]
    constructor
    · intro hmore
      cases hmore with
      | @more mark part rest _ _ hitem hrest =>
        obtain ⟨hcomma, hothers⟩ := List.forall_mem_cons.mp hphrase
        obtain ⟨hpart, hmore⟩ := List.forall_mem_append.mp hothers
        have hmark : mark = String.singleton ',' := text_of_spellable (by decide) hcomma
        obtain ⟨hgood, htokens⟩ := (h.derives_iff hpart).mp hitem
        obtain ⟨hall, hmap⟩ := (ih hmore).mp hrest
        refine ⟨List.forall_mem_cons.mpr ⟨hgood, hall⟩, part ++ rest, by rw [hmark]; rfl, ?_⟩
        rw [List.map_append, htokens, hmap]
    · rintro ⟨hall, others, rfl, hmap⟩
      obtain ⟨part, rest, rfl, htokens, hrest⟩ := List.map_eq_append_iff.mp hmap
      obtain ⟨hgood, hall⟩ := List.forall_mem_cons.mp hall
      obtain ⟨-, hothers⟩ := List.forall_mem_cons.mp hphrase
      obtain ⟨hpart, hmore⟩ := List.forall_mem_append.mp hothers
      have hitem : derives part x := (h.derives_iff hpart).mpr ⟨hgood, htokens⟩
      exact .more "," hitem ((ih hmore).mpr ⟨hall, hrest⟩)

/-- One or more items with commas between them. -/
theorem prints_listed (h : Prints derives good tokens) :
    Prints (Listed derives) (IsList good) (commas tokens) where
  derives_iff := by
    intro phrase xs hphrase
    constructor
    · intro hlisted
      cases hlisted with
      | @items part rest x xs hitem hrest =>
        obtain ⟨hpart, hmore⟩ := List.forall_mem_append.mp hphrase
        obtain ⟨hgood, htokens⟩ := (h.derives_iff hpart).mp hitem
        obtain ⟨hall, hmap⟩ := (moreItems_iff h hmore).mp hrest
        refine ⟨⟨List.cons_ne_nil x xs, List.forall_mem_cons.mpr ⟨hgood, hall⟩⟩, ?_⟩
        rw [List.map_append, htokens, hmap]
        rfl
    · rintro ⟨⟨hne, hall⟩, hmap⟩
      obtain ⟨x, xs, rfl⟩ := List.exists_cons_of_ne_nil hne
      obtain ⟨part, rest, rfl, htokens, hrest⟩ := List.map_eq_append_iff.mp hmap
      obtain ⟨hgood, hall⟩ := List.forall_mem_cons.mp hall
      obtain ⟨hpart, hmore⟩ := List.forall_mem_append.mp hphrase
      have hitem : derives part x := (h.derives_iff hpart).mpr ⟨hgood, htokens⟩
      exact .items hitem ((moreItems_iff h hmore).mpr ⟨hall, hrest⟩)
  isPlain := by
    intro xs hgood token htoken
    rcases mem_commas htoken with rfl | ⟨x, hx, hmem⟩
    · exact isPlain_mark (c := ',') (by decide)
    · exact h.isPlain (hgood.2 x hx) token hmem

/-- An item between parentheses. -/
theorem prints_enclosed (h : Prints derives good tokens) :
    Prints (Enclosed derives) good fun x => parens (tokens x) where
  derives_iff := by
    intro phrase x hphrase
    unfold parens
    rw [map_shortest_cons_iff (by decide)]
    constructor
    · intro henclosed
      cases henclosed with
      | @item opening closing part _ hitem =>
        obtain ⟨hleft, hothers⟩ := List.forall_mem_cons.mp hphrase
        obtain ⟨hpart, hright⟩ := List.forall_mem_append.mp hothers
        have hopening : opening = String.singleton '(' := text_of_spellable (by decide) hleft
        have hclosing : closing = String.singleton ')' :=
          text_of_spellable (by decide) (hright _ List.mem_cons_self)
        obtain ⟨hgood, htokens⟩ := (h.derives_iff hpart).mp hitem
        refine ⟨hgood, part ++ [⟨.rightParen, closing⟩], by rw [hopening]; rfl, ?_⟩
        rw [List.map_append, htokens, hclosing]
        rfl
    · rintro ⟨hgood, others, rfl, hmap⟩
      obtain ⟨part, last, rfl, htokens, hlast⟩ := List.map_eq_append_iff.mp hmap
      obtain ⟨rest, rfl, hrest⟩ := (map_shortest_cons_iff (by decide)).mp hlast
      obtain rfl := List.map_eq_nil_iff.mp hrest
      obtain ⟨-, hothers⟩ := List.forall_mem_cons.mp hphrase
      obtain ⟨hpart, -⟩ := List.forall_mem_append.mp hothers
      exact .item "(" ")" ((h.derives_iff hpart).mpr ⟨hgood, htokens⟩)
  isPlain := by
    intro x hgood token htoken
    rcases mem_parens htoken with rfl | hmem | rfl
    · exact isPlain_mark (c := '(') (by decide)
    · exact h.isPlain hgood token hmem
    · exact isPlain_mark (c := ')') (by decide)

end

/-! ## Sequences -/

/-- A notion behind given tokens. -/
inductive Behind {α : Type} (head : List Token) (derives : List Token → α → Prop) :
    List Token → α → Prop where
  | head {part : List Token} {x : α} (h : derives part x) : Behind head derives (head ++ part) x

/-- One notion, and another one behind it. -/
inductive Pair {α β : Type} (first : List Token → α → Prop) (next : List Token → β → Prop) :
    List Token → α × β → Prop where
  | both {part rest : List Token} {x : α} {y : β} (hfirst : first part x) (hnext : next rest y) :
      Pair first next (part ++ rest) (x, y)

section

variable {α β : Type} {derives : List Token → α → Prop} {good : α → Prop} {tokens : α → List Token}
variable {next : List Token → β → Prop} {good' : β → Prop} {tokens' : β → List Token}

theorem behind_iff {head phrase : List Token} {x : α} :
    Behind head derives phrase x ↔ ∃ part, phrase = head ++ part ∧ derives part x := by
  constructor
  · intro h
    cases h with
    | head hderives => exact ⟨_, rfl, hderives⟩
  · rintro ⟨part, rfl, hderives⟩
    exact .head hderives

theorem pair_iff {phrase : List Token} {x : α} {y : β} :
    Pair derives next phrase (x, y) ↔
      ∃ part rest, phrase = part ++ rest ∧ derives part x ∧ next rest y := by
  constructor
  · intro h
    cases h with
    | both hfirst hnext => exact ⟨_, _, rfl, hfirst, hnext⟩
  · rintro ⟨part, rest, rfl, hfirst, hnext⟩
    exact .both hfirst hnext

theorem prints_behind {head : List Token} (hhead : ∀ token ∈ head, token.IsPlain)
    (hkind : ∀ token ∈ head, token.kind ≠ .number) (h : Prints derives good tokens) :
    Prints (Behind head derives) good fun x => head ++ tokens x where
  derives_iff := by
    intro phrase x hphrase
    rw [map_shortest_append_iff hkind, behind_iff]
    constructor
    · rintro ⟨part, rfl, hderives⟩
      obtain ⟨-, hpart⟩ := List.forall_mem_append.mp hphrase
      obtain ⟨hgood, htokens⟩ := (h.derives_iff hpart).mp hderives
      exact ⟨hgood, part, rfl, htokens⟩
    · rintro ⟨hgood, part, rfl, htokens⟩
      obtain ⟨-, hpart⟩ := List.forall_mem_append.mp hphrase
      exact ⟨part, rfl, (h.derives_iff hpart).mpr ⟨hgood, htokens⟩⟩
  isPlain := by
    intro x hgood token htoken
    rcases List.mem_append.mp htoken with hmem | hmem
    · exact hhead token hmem
    · exact h.isPlain hgood token hmem

theorem prints_pair (h : Prints derives good tokens) (h' : Prints next good' tokens') :
    Prints (Pair derives next) (fun x => good x.1 ∧ good' x.2)
      fun x => tokens x.1 ++ tokens' x.2 where
  derives_iff := by
    intro phrase x hphrase
    constructor
    · intro hpair
      cases hpair with
      | @both part rest x y hfirst hnext =>
        obtain ⟨hpart, hrest⟩ := List.forall_mem_append.mp hphrase
        obtain ⟨hgood, htokens⟩ := (h.derives_iff hpart).mp hfirst
        obtain ⟨hgood', htokens'⟩ := (h'.derives_iff hrest).mp hnext
        refine ⟨⟨hgood, hgood'⟩, ?_⟩
        rw [List.map_append, htokens, htokens']
    · rintro ⟨⟨hgood, hgood'⟩, hmap⟩
      obtain ⟨part, rest, rfl, htokens, htokens'⟩ := List.map_eq_append_iff.mp hmap
      obtain ⟨hpart, hrest⟩ := List.forall_mem_append.mp hphrase
      have hfirst : derives part x.1 := (h.derives_iff hpart).mpr ⟨hgood, htokens⟩
      exact .both hfirst ((h'.derives_iff hrest).mpr ⟨hgood', htokens'⟩)
  isPlain := by
    intro x hgood token htoken
    rcases List.mem_append.mp htoken with hmem | hmem
    · exact h.isPlain hgood.1 token hmem
    · exact h'.isPlain hgood.2 token hmem

end

/-- A notion behind reserved words. -/
theorem prints_behind_words {α : Type} {derives : List Token → α → Prop} {good : α → Prop}
    {tokens : α → List Token} {words : List String} (hwords : ∀ word ∈ words, word ∈ keywords)
    (h : Prints derives good tokens) :
    Prints (Behind (words.map (⟨.keyword, ·⟩)) derives) good
      fun x => words.map (⟨.keyword, ·⟩) ++ tokens x := by
  refine prints_behind (fun token htoken => ?_) (fun token htoken => ?_) h
  · obtain ⟨word, hword, rfl⟩ := List.mem_map.mp htoken
    exact isPlain_keyword (hwords word hword)
  · obtain ⟨word, -, rfl⟩ := List.mem_map.mp htoken
    exact nofun

/-- A notion behind the sign of equality. -/
theorem prints_behind_equals {α : Type} {derives : List Token → α → Prop} {good : α → Prop}
    {tokens : α → List Token} (h : Prints derives good tokens) :
    Prints (Behind [⟨.operator, "="⟩] derives) good fun x => ⟨.operator, "="⟩ :: tokens x := by
  refine prints_behind (fun token htoken => ?_) (by simp) h
  obtain rfl := List.mem_singleton.mp htoken
  exact isPlain_operator .equal

end TableStore.Sql
