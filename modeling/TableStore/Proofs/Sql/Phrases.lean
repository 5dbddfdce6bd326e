import TableStore.Proofs.Sql.Texts

/-!
# Writing phrases of the grammar

Lists, literals and declarations can be written as tokens that the grammar gives to them. If what
they name and what they store can be spelled, then so can all of these tokens.

* `Sql.commas`, `Sql.parens`, `Sql.literal`, `Sql.Declaration.tokens` — how they are written.
* `Sql.listed_commas`, `Sql.denotes_literal`, `Sql.declares_tokens` — that these are the tokens of what
  was written.
-/

namespace TableStore.Sql

/-! ## Tokens -/

/-- Items with commas between them. -/
def commas {α : Type} (item : α → List Token) : List α → List Token
  | [] => []
  | x :: xs => item x ++ xs.flatMap fun y => ⟨.comma, ","⟩ :: item y

/-- Tokens between parentheses. -/
def parens (phrase : List Token) : List Token :=
  ⟨.leftParen, "("⟩ :: (phrase ++ [⟨.rightParen, ")"⟩])

/-- A literal: integers in decimal, texts with the quotes that their spelling has. -/
def literal : Value → Token
  | .integer n => ⟨.number, Decimal.write n⟩
  | .text s => ⟨.text, s⟩
  | .boolean true => ⟨.keyword, "TRUE"⟩
  | .boolean false => ⟨.keyword, "FALSE"⟩

/-- The name and the type of a column, and whether it is the primary key. -/
def Declaration.tokens (declaration : Declaration) : List Token :=
  ⟨.identifier, declaration.field.name⟩ :: ⟨.keyword, declaration.field.type.keyword⟩ ::
    if declaration.isKey then [⟨.keyword, "PRIMARY"⟩, ⟨.keyword, "KEY"⟩] else []

/-! ## Lists -/

section

variable {α : Type} {item : α → List Token} {derives : List Token → α → Prop} {xs : List α}

theorem listed_commas (h : ∀ x ∈ xs, derives (item x) x) (hne : xs ≠ []) :
    Listed derives (commas item xs) xs := by
  -- behind the first item, each item has a comma in front of it
  have hmore : ∀ ys : List α, (∀ y ∈ ys, derives (item y) y) →
      MoreItems derives (ys.flatMap fun y => ⟨.comma, ","⟩ :: item y) ys := by
    intro ys
    induction ys with
    | nil => exact fun _ => .none
    | cons y ys ih =>
      intro hys
      rw [List.flatMap_cons, List.cons_append]
      have hfirst := hys y List.mem_cons_self
      exact .more "," hfirst (ih fun z hz => hys z (List.mem_cons_of_mem y hz))
  obtain ⟨x, rest, rfl⟩ := List.exists_cons_of_ne_nil hne
  have hfirst := h x List.mem_cons_self
  exact .items hfirst (hmore rest fun y hy => h y (List.mem_cons_of_mem x hy))

/-- Between the tokens of the items stand commas only. -/
theorem mem_commas {token : Token} (h : token ∈ commas item xs) :
    token = ⟨.comma, ","⟩ ∨ ∃ x ∈ xs, token ∈ item x := by
  cases xs with
  | nil => cases h
  | cons x rest =>
    rcases List.mem_append.mp h with hfirst | hrest
    · exact .inr ⟨x, List.mem_cons_self, hfirst⟩
    · obtain ⟨y, hy, hmem⟩ := List.mem_flatMap.mp hrest
      rcases List.mem_cons.mp hmem with hcomma | hmem
      · exact .inl hcomma
      · exact .inr ⟨y, List.mem_cons_of_mem x hy, hmem⟩

theorem spellable_commas (h : ∀ x ∈ xs, ∀ token ∈ item x, Spellable token) :
    ∀ token ∈ commas item xs, Spellable token := by
  intro token htoken
  rcases mem_commas htoken with rfl | ⟨x, hx, hmem⟩
  · exact ⟨_, .mark (c := ',') (by decide)⟩
  · exact h x hx token hmem

/-- Around the tokens of a phrase stand parentheses only. -/
theorem mem_parens {phrase : List Token} {token : Token} (h : token ∈ parens phrase) :
    token = ⟨.leftParen, "("⟩ ∨ token ∈ phrase ∨ token = ⟨.rightParen, ")"⟩ := by
  unfold parens at h
  rwa [List.mem_cons, List.mem_append, List.mem_singleton] at h

theorem spellable_parens {phrase : List Token} (h : ∀ token ∈ phrase, Spellable token) :
    ∀ token ∈ parens phrase, Spellable token := by
  intro token htoken
  rcases mem_parens htoken with rfl | hmem | rfl
  · exact ⟨_, .mark (c := '(') (by decide)⟩
  · exact h token hmem
  · exact ⟨_, .mark (c := ')') (by decide)⟩

end

/-! ## Literals and declarations -/

theorem spellable_keyword {keyword : String} (h : keyword ∈ keywords) :
    Spellable ⟨.keyword, keyword⟩ :=
  ⟨_, lexeme_keyword h⟩

theorem keyword_mem_keywords (type : ValueType) : type.keyword ∈ keywords := by
  cases type <;> decide

/-- The literal of a value that can be spelled stands for the value, and can be spelled. -/
theorem denotes_literal {value : Value} (h : Literate value) :
    Denotes (literal value) value ∧ Spellable (literal value) := by
  cases value with
  | integer n =>
    have hnonneg := nonneg_of_literate h
    have hvalue := (Int.toNat_of_nonneg hnonneg).symm
    exact ⟨.number (.plain (Decimal.digits_write hnonneg) hvalue), _, lexeme_write hnonneg⟩
  | text s =>
    obtain ⟨token, hspellable, hdenotes⟩ := h
    cases hdenotes
    exact ⟨.text s, hspellable⟩
  | boolean b =>
    cases b with
    | true => exact ⟨.yes, spellable_keyword (by decide)⟩
    | false => exact ⟨.no, spellable_keyword (by decide)⟩

theorem declares_tokens (declaration : Declaration) :
    Declares declaration.tokens declaration := by
  obtain ⟨⟨name, type⟩, isKey⟩ := declaration
  cases isKey with
  | false => exact .plain name type
  | true => exact .key name type

theorem spellable_tokens {declaration : Declaration}
    (h : Spellable ⟨.identifier, declaration.field.name⟩) :
    ∀ token ∈ declaration.tokens, Spellable token := by
  have htype := spellable_keyword (keyword_mem_keywords declaration.field.type)
  have hprimary : Spellable ⟨.keyword, "PRIMARY"⟩ := spellable_keyword (by decide)
  have hkey : Spellable ⟨.keyword, "KEY"⟩ := spellable_keyword (by decide)
  intro token htoken
  unfold Declaration.tokens at htoken
  split at htoken
  · simp only [List.mem_cons, List.not_mem_nil, or_false] at htoken
    rcases htoken with rfl | rfl | rfl | rfl
    · exact h
    · exact htype
    · exact hprimary
    · exact hkey
  · simp only [List.mem_cons, List.not_mem_nil, or_false] at htoken
    rcases htoken with rfl | rfl
    · exact h
    · exact htype

end TableStore.Sql
