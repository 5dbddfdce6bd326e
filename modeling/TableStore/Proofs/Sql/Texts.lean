import TableStore.Proofs.Sql.Lexemes
import TableStore.Proofs.Sql.Sentences

/-!
# Statements of texts

A text holds only tokens that can be spelled, so what its statement names and what it stores can be
spelled as well. Any such token has a spelling of its own here, and a line of these spellings is read
as the tokens again.

* `Sql.Statement.ofText_ok_iff` — a text is a statement if it spells a sentence of the grammar.
* `Sql.Spellable` — some text has the token; `Sql.Literate` — some text has the literal.
* `Sql.Token.spelling`, `Sql.line` — how a token, and how a line of tokens is written here.
* `Sql.ofText_line` — a line of the tokens of a statement is read as the statement.
-/

namespace TableStore.Sql

/-! ## Reading a text -/

theorem Statement.ofText_ok_iff {text : String} {statement : Statement} :
    ofText text = .ok statement ↔
      ∃ tokens, Spelled text.toList tokens ∧ Sentence tokens statement := by
  unfold ofText ofTokens
  constructor
  · intro h
    cases htokens : Lexer.tokens text.toList with
    | error cause last => simp [htokens] at h
    | ok tokens last =>
      obtain ⟨-, hspelled⟩ := Lexer.tokens_ok_iff.mp htokens
      simp only [htokens] at h
      cases hrun : Rule.statement.run tokens with
      | error cause rest => simp [hrun] at h
      | ok found rest =>
        simp only [hrun, Except.ok.injEq] at h
        obtain ⟨-, hsentence⟩ := Rule.run_statement_iff.mp hrun
        rw [h] at hsentence
        exact ⟨tokens, hspelled, hsentence⟩
  · rintro ⟨tokens, hspelled, hsentence⟩
    have htokens := Lexer.tokens_ok_iff.mpr ⟨rfl, hspelled⟩
    have hrun := Rule.run_statement_iff.mpr ⟨rfl, hsentence⟩
    simp only [htokens, hrun]

/-! ## What can be spelled -/

/-- Some text has the token. -/
def Spellable (token : Token) : Prop :=
  ∃ lexeme, Lexeme token lexeme

/-- Some text has the literal. -/
def Literate (value : Value) : Prop :=
  ∃ token, Spellable token ∧ Denotes token value

theorem spellable_of_spelled {text : List Char} {tokens : List Token} (h : Spelled text tokens) :
    ∀ token ∈ tokens, Spellable token := by
  induction h with
  | done => simp
  | token _ hlexeme _ _ ih =>
    intro token htoken
    rcases List.mem_cons.mp htoken with rfl | htoken
    · exact ⟨_, hlexeme⟩
    · exact ih token htoken

/-! ## Tokens of each kind -/

theorem recases_self : ∀ keyword ∈ keywords, Recases keyword.toList keyword := by
  unfold Recases
  decide

/-- A reserved word spells itself. -/
theorem lexeme_keyword {keyword : String} (h : keyword ∈ keywords) :
    Lexeme ⟨.keyword, keyword⟩ keyword.toList :=
  .keyword h (recases_self keyword h)

variable {token : Token} {lexeme : List Char}

/-- A text is spelled between quotes that it does not contain. -/
theorem exists_quote_of_lexeme (h : Lexeme token lexeme) (hkind : token.kind = .text) :
    '\'' ∉ token.text.toList ∨ '"' ∉ token.text.toList := by
  cases h with
  | @text quote body hquote hbody =>
    rw [String.toList_ofList]
    rcases hquote with rfl | rfl
    · exact .inl hbody
    · exact .inr hbody
  | mark hmark =>
    unfold marks at hmark
    fin_cases hmark <;> cases hkind
  | keyword | name | number | operator => cases hkind

theorem digits_of_lexeme (h : Lexeme token lexeme) (hkind : token.kind = .number) :
    ∃ value, Decimal.Digits token.text.toList value ∧ value ≤ Decimal.greatest := by
  cases h with
  | number hdigits hle =>
    rw [String.toList_ofList]
    exact ⟨_, hdigits, hle⟩
  | mark hmark =>
    unfold marks at hmark
    fin_cases hmark <;> cases hkind
  | keyword | name | text | operator => cases hkind

/-- An integer that is not negative spells itself. -/
theorem lexeme_write {n : Int64} (h : 0 ≤ n.toInt) :
    Lexeme ⟨.number, Decimal.write n⟩ (Decimal.write n).toList := by
  have hlexeme := Lexeme.number (Decimal.digits_write h) (Decimal.toNat_le_greatest n)
  rwa [String.ofList_toList] at hlexeme

theorem nonneg_of_literate {n : Int64} (h : Literate (.integer n)) : 0 ≤ n.toInt := by
  obtain ⟨token, ⟨lexeme, hlexeme⟩, hdenotes⟩ := h
  cases hdenotes with
  | number hnumeral =>
    obtain ⟨value, hdigits, -⟩ := digits_of_lexeme hlexeme rfl
    rw [hdigits.toInt_eq hnumeral]
    exact Int.natCast_nonneg _

theorem exists_quote_of_literate {s : String} (h : Literate (.text s)) :
    '\'' ∉ s.toList ∨ '"' ∉ s.toList := by
  obtain ⟨token, ⟨lexeme, hlexeme⟩, hdenotes⟩ := h
  cases hdenotes
  exact exists_quote_of_lexeme hlexeme rfl

/-! ## Spelling tokens -/

/-- A quote that a text does not contain, if there is one. -/
def quoteOf (s : String) : Char :=
  if '\'' ∈ s.toList then '"' else '\''

/-- How a token is spelled here. -/
def Token.spelling (token : Token) : List Char :=
  match token.kind with
  | .text => quoteOf token.text :: (token.text.toList ++ [quoteOf token.text])
  | _ => token.text.toList

/-- The spellings of tokens, each with a blank behind it. -/
def line (tokens : List Token) : String :=
  String.ofList (tokens.flatMap fun token => token.spelling ++ [' '])

theorem quoteOf_eq (s : String) : quoteOf s = '\'' ∨ quoteOf s = '"' := by
  unfold quoteOf
  split
  · exact .inr rfl
  · exact .inl rfl

theorem quoteOf_not_mem {s : String} (h : '\'' ∉ s.toList ∨ '"' ∉ s.toList) :
    quoteOf s ∉ s.toList := by
  unfold quoteOf
  split
  · rename_i hsingle
    exact h.resolve_left (not_not_intro hsingle)
  · assumption

theorem lexeme_spelling (h : Spellable token) : Lexeme token token.spelling := by
  obtain ⟨lexeme, hlexeme⟩ := h
  cases hlexeme with
  | keyword hword => exact lexeme_keyword hword
  | name hname =>
    show Lexeme _ (String.ofList _).toList
    rw [String.toList_ofList]
    exact .name hname
  | number hdigits hle =>
    show Lexeme _ (String.ofList _).toList
    rw [String.toList_ofList]
    exact .number hdigits hle
  | @text quote body hquote hbody =>
    -- the quotes may be other ones than those of the text
    have hnot : quoteOf (String.ofList body) ∉ body := by
      have hexists := exists_quote_of_lexeme (.text hquote hbody) rfl
      simpa using quoteOf_not_mem hexists
    show Lexeme _ (quoteOf _ :: ((String.ofList body).toList ++ [quoteOf _]))
    rw [String.toList_ofList]
    exact .text (quoteOf_eq _) hnot
  | operator op => exact .operator op
  | mark hmark =>
    have hlexeme := Lexeme.mark hmark
    unfold marks at hmark
    fin_cases hmark <;> exact hlexeme

/-- No token goes on with a blank. -/
theorem stops_of_blank {after : List Char} (h : ∀ c ∈ after.head?, Text.isBlank c = true) :
    Stops token after := by
  have hword : ∀ c ∈ after.head?, Lexer.isWordPart c = false := by
    intro c hc
    have hblank := h c hc
    rw [Bool.eq_false_iff]
    intro hpart
    rw [isBlank_of_isWordPart hpart] at hblank
    cases hblank
  have hdigit : ∀ c ∈ after.head?, c.isDigit = false := by
    intro c hc
    have hpart := hword c hc
    rw [Bool.eq_false_iff] at hpart ⊢
    intro hdigit
    exact hpart (isWordPart_iff.mpr (.inr hdigit))
  have hequals : after.head? ≠ some '=' := by
    intro hhead
    exact absurd (h '=' hhead) (by decide)
  unfold Stops
  cases token.kind with
  | keyword | identifier => exact hword
  | number => exact hdigit
  | operator => exact fun _ => hequals
  | _ => trivial

theorem spelled_blank {text : List Char} {tokens : List Token} (h : Spelled text tokens) :
    Spelled (' ' :: text) tokens := by
  have hcons : ∀ {blanks : List Char}, (∀ c ∈ blanks, Text.isBlank c = true) →
      ∀ c ∈ ' ' :: blanks, Text.isBlank c = true := by
    intro blanks hblanks c hc
    rcases List.mem_cons.mp hc with rfl | hc
    · decide
    · exact hblanks c hc
  cases h with
  | done hblanks => exact .done (hcons hblanks)
  | token hblanks hlexeme hstops hafter =>
    rw [← List.cons_append]
    exact .token (hcons hblanks) hlexeme hstops hafter

/-- A line of tokens that can be spelled spells them. -/
theorem spelled_line {tokens : List Token} (h : ∀ token ∈ tokens, Spellable token) :
    Spelled (line tokens).toList tokens := by
  unfold line
  rw [String.toList_ofList]
  induction tokens with
  | nil => exact .done (by simp)
  | cons token tokens ih =>
    have hlexeme := lexeme_spelling (h token List.mem_cons_self)
    have hrest := ih fun other hother => h other (List.mem_cons_of_mem token hother)
    have hnone : ∀ c ∈ ([] : List Char), Text.isBlank c = true := by simp
    -- the blank behind a token ends it, and belongs to what follows
    rw [List.flatMap_cons, List.append_assoc, ← List.nil_append (token.spelling ++ _)]
    have hstops : Stops token (' ' :: tokens.flatMap fun token => token.spelling ++ [' ']) := by
      refine stops_of_blank ?_
      rintro c ⟨⟩
      decide
    exact .token hnone hlexeme hstops (spelled_blank hrest)

/-- A line of the tokens of a statement is read as the statement. -/
theorem ofText_line {tokens : List Token} {statement : Statement}
    (h : ∀ token ∈ tokens, Spellable token) (hsentence : Sentence tokens statement) :
    Statement.ofText (line tokens) = .ok statement :=
  Statement.ofText_ok_iff.mpr ⟨tokens, spelled_line h, hsentence⟩

end TableStore.Sql
