import TableStore.Proofs.Sql.Lexemes

/-!
# A text falls into lexemes in one way

The lexer cuts a text into lexemes and the blanks around them. There is no other way to cut the text:
blanks go on up to the first character that is none, since every lexeme starts with such a character,
and where a lexeme ends is told by what may not follow it.

* `Sql.Piece`, `Sql.Cut` — lexemes with the blanks in front of them, and a text that is cut into such.
* `Sql.spelled_iff_cut` — a text spells the tokens of the pieces it is cut into.
* `Sql.Cut.unique` — the pieces and the blanks behind them are determined by the text.
* `Sql.Lexer.tokens_iff_cut` — the lexer finds the tokens of the one cut, if there is one.
-/

namespace TableStore.Sql

open Lexer

/-- A token with its lexeme and the blanks in front of it. -/
structure Piece where
  blanks : List Char
  lexeme : List Char
  token : Token
  deriving DecidableEq, Repr

/-- A text is cut into pieces and the blanks behind them. Each piece stops where it ends: a word is
followed by no character that goes on with a word, a number by no digit, and the signs `<` and `>` by
no equals sign. -/
inductive Cut : List Char → List Piece → List Char → Prop where
  | done {blanks : List Char} (hblanks : ∀ c ∈ blanks, Text.isBlank c = true) :
      Cut blanks [] blanks
  | piece {blanks lexeme after last : List Char} {token : Token} {pieces : List Piece}
      (hblanks : ∀ c ∈ blanks, Text.isBlank c = true) (hlexeme : Lexeme token lexeme)
      (hstops : Stops token after) (hafter : Cut after pieces last) :
      Cut (blanks ++ (lexeme ++ after)) (⟨blanks, lexeme, token⟩ :: pieces) last

/-- A text spells the tokens of the pieces that it is cut into. -/
theorem spelled_iff_cut {text : List Char} {tokens : List Token} :
    Spelled text tokens ↔
      ∃ pieces last, Cut text pieces last ∧ pieces.map Piece.token = tokens := by
  constructor
  · intro h
    induction h with
    | done hblanks => exact ⟨[], _, .done hblanks, rfl⟩
    | @token blanks lexeme after token tokens hblanks hlexeme hstops _ ih =>
      obtain ⟨pieces, last, hcut, htokens⟩ := ih
      exact ⟨_, last, .piece hblanks hlexeme hstops hcut, congrArg (token :: ·) htokens⟩
  · rintro ⟨pieces, last, hcut, rfl⟩
    induction hcut with
    | done hblanks => exact .done hblanks
    | piece hblanks hlexeme hstops _ ih => exact .token hblanks hlexeme hstops ih

/-! ## No other way -/

/-- Blanks go on up to the lexeme behind them. -/
theorem blanks_eq_of_append {blanks blanks' lexeme lexeme' after after' : List Char}
    {token token' : Token} (hblanks : ∀ c ∈ blanks, Text.isBlank c = true)
    (hblanks' : ∀ c ∈ blanks', Text.isBlank c = true) (hlexeme : Lexeme token lexeme)
    (hlexeme' : Lexeme token' lexeme')
    (h : blanks ++ (lexeme ++ after) = blanks' ++ (lexeme' ++ after')) :
    blanks = blanks' ∧ lexeme ++ after = lexeme' ++ after' := by
  obtain ⟨c, rest, rfl, hc⟩ := exists_cons_of_lexeme hlexeme
  obtain ⟨d, rest', rfl, hd⟩ := exists_cons_of_lexeme hlexeme'
  -- both are the longest run of blanks at the head of the text
  have hcut := takeWhile_dropWhile_iff.mpr ⟨rfl, hblanks, show ∀ x ∈ (c :: rest ++ after).head?,
    Text.isBlank x = false by simpa using hc⟩
  have hcut' := takeWhile_dropWhile_iff.mpr ⟨rfl, hblanks', show ∀ x ∈ (d :: rest' ++ after').head?,
    Text.isBlank x = false by simpa using hd⟩
  rw [h] at hcut
  exact ⟨hcut.1.symm.trans hcut'.1, hcut.2.symm.trans hcut'.2⟩

/-- A lexeme that stops where it ends is determined by the text, and so is its token. -/
theorem lexeme_eq_of_append {lexeme lexeme' after after' : List Char} {token token' : Token}
    (hlexeme : Lexeme token lexeme) (hlexeme' : Lexeme token' lexeme') (hstops : Stops token after)
    (hstops' : Stops token' after') (h : lexeme ++ after = lexeme' ++ after') :
    token = token' ∧ lexeme = lexeme' ∧ after = after' := by
  obtain ⟨c, rest, rfl, -⟩ := exists_cons_of_lexeme hlexeme
  -- both are what the lexer reads at the head of the text
  have hnext : next c (rest ++ after) = .ok token after :=
    next_ok_iff.mpr ⟨c :: rest, rfl, hlexeme, hstops⟩
  have hnext' : next c (rest ++ after) = .ok token' after' :=
    next_ok_iff.mpr ⟨lexeme', h, hlexeme', hstops'⟩
  rw [hnext] at hnext'
  obtain ⟨rfl, rfl⟩ : token = token' ∧ after = after' := by simpa using hnext'
  exact ⟨rfl, List.append_cancel_right h, rfl⟩

/-- Blanks hold no lexeme. -/
theorem not_isBlank_of_lexeme {blanks lexeme after : List Char} {token : Token}
    (hlexeme : Lexeme token lexeme) :
    ¬∀ c ∈ blanks ++ (lexeme ++ after), Text.isBlank c = true := by
  intro hall
  obtain ⟨c, rest, rfl, hc⟩ := exists_cons_of_lexeme hlexeme
  have hblank : Text.isBlank c = true := hall c (by simp)
  rw [hc] at hblank
  cases hblank

/-- The pieces and the blanks behind them are determined by the text. -/
theorem Cut.unique {text last last' : List Char} {pieces pieces' : List Piece}
    (h : Cut text pieces last) (h' : Cut text pieces' last') : pieces = pieces' ∧ last = last' := by
  -- on the pieces of the first cut: the second one has to take the same piece off the text
  induction h generalizing pieces' last' with
  | done hblanks =>
    cases h' with
    | done => exact ⟨rfl, rfl⟩
    | piece _ hlexeme => exact absurd hblanks (not_isBlank_of_lexeme hlexeme)
  | @piece blanks lexeme after last token pieces hblanks hlexeme hstops hafter ih =>
    generalize htext : blanks ++ (lexeme ++ after) = text at h'
    cases h' with
    | done hall =>
      rw [← htext] at hall
      exact absurd hall (not_isBlank_of_lexeme hlexeme)
    | piece hblanks' hlexeme' hstops' hafter' =>
      obtain ⟨rfl, hrest⟩ := blanks_eq_of_append hblanks hblanks' hlexeme hlexeme' htext
      obtain ⟨rfl, rfl, rfl⟩ := lexeme_eq_of_append hlexeme hlexeme' hstops hstops' hrest
      obtain ⟨rfl, rfl⟩ := ih hafter'
      exact ⟨rfl, rfl⟩

/-- Any text whatsoever is read to its end if it can be cut into lexemes with blanks around them. What
is found are then the tokens of the lexemes, and there is one way at most to cut a text. -/
theorem Lexer.tokens_iff_cut (text : String) :
    (∀ found rest, tokens text.toList = .ok found rest ↔
      rest = [] ∧ ∃ pieces last, Cut text.toList pieces last ∧ pieces.map Piece.token = found) ∧
    (∀ pieces pieces' last last', Cut text.toList pieces last → Cut text.toList pieces' last' →
      pieces = pieces' ∧ last = last') := by
  constructor
  · intro found rest
    rw [tokens_ok_iff, spelled_iff_cut]
  · intro pieces pieces' last last' h h'
    exact h.unique h'

end TableStore.Sql
