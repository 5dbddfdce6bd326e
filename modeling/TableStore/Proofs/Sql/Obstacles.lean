import TableStore.Proofs.Sql.Integers

/-!
# Where a text is refused

The lexer passes token after token. It comes to the end of the text, or it meets an obstacle: a
character that no token starts with, a quote that is not closed, or digits that are too large. Which
obstacle it is tells where the reading stops: in front of it, at the end of the text, or behind it.

* `Sql.Passes` — the tokens at the head of a text, and what stands behind them.
* `Sql.Obstacle` — what cannot be passed, why, and what is left there.
* `Sql.Refused` — an obstacle stands behind the tokens of a text, with blanks in front of it.
* `Sql.Lexer.tokens_of_passes` — a reading goes on behind the tokens that are passed.
* `Sql.spelled_or_refused` — every text spells tokens or is refused.
* `Sql.Lexer.tokens_error_iff` — the lexer refuses a text exactly for the obstacle in it.
-/

namespace TableStore.Sql

open Lexer

/-! ## Tokens that are passed -/

/-- A text starts with tokens, and what stands behind them is left. -/
inductive Passes : List Char → List Token → List Char → Prop where
  | none (text : List Char) : Passes text [] text
  | token {blanks lexeme after rest : List Char} {token : Token} {tokens : List Token}
      (hblanks : ∀ c ∈ blanks, Text.isBlank c = true) (hlexeme : Lexeme token lexeme)
      (hstops : Stops token after) (hafter : Passes after tokens rest) :
      Passes (blanks ++ (lexeme ++ after)) (token :: tokens) rest

/-- A text spells the tokens that it starts with if only blanks are left behind them. -/
theorem spelled_iff_passes {text : List Char} {tokens : List Token} :
    Spelled text tokens ↔
      ∃ blanks, Passes text tokens blanks ∧ ∀ c ∈ blanks, Text.isBlank c = true := by
  constructor
  · intro h
    induction h with
    | done hblanks => exact ⟨_, .none _, hblanks⟩
    | token hblanks hlexeme hstops _ ih =>
      obtain ⟨last, hpasses, hlast⟩ := ih
      exact ⟨last, .token hblanks hlexeme hstops hpasses, hlast⟩
  · rintro ⟨last, hpasses, hlast⟩
    induction hpasses with
    | none => exact .done hlast
    | token hblanks hlexeme hstops _ ih => exact .token hblanks hlexeme hstops (ih hlast)

theorem Passes.suffix {text rest : List Char} {tokens : List Token} (h : Passes text tokens rest) :
    rest <:+ text := by
  induction h with
  | none text => exact List.suffix_refl text
  | token _ _ _ _ ih =>
    rw [← List.append_assoc]
    exact ih.trans (List.suffix_append _ _)

/-! ## What cannot be passed -/

/-- No token can be passed at the head of a text, which is no blank. A character that no token starts
with is left, as is an exclamation mark without an equals sign behind it; behind a quote that is not
closed nothing is left, and of digits that are too large what stands behind them. -/
inductive Obstacle : List Char → SyntaxError → List Char → Prop where
  | character {c : Char} {rest : List Char} (hblank : Text.isBlank c = false)
      (hnone : ∀ token lexeme, Lexeme token lexeme → lexeme.head? ≠ some c) :
      Obstacle (c :: rest) (.unexpectedCharacter c) (c :: rest)
  | exclamation {rest : List Char} (hequals : rest.head? ≠ some '=') :
      Obstacle ('!' :: rest) (.unexpectedCharacter '!') ('!' :: rest)
  | unterminated {quote : Char} {rest : List Char} (hquote : quote = '\'' ∨ quote = '"')
      (hrest : quote ∉ rest) : Obstacle (quote :: rest) .unterminatedText []
  | tooLarge {digits after : List Char} {value : Nat} (hdigits : Decimal.Digits digits value)
      (hlt : Decimal.greatest < value) (hafter : ∀ c ∈ after.head?, c.isDigit = false) :
      Obstacle (digits ++ after) (.integerLiteral (String.ofList digits) .tooLarge) after

theorem Obstacle.suffix {place last : List Char} {cause : SyntaxError}
    (h : Obstacle place cause last) : last <:+ place := by
  cases h with
  | character | exclamation => exact List.suffix_refl _
  | unterminated => exact List.nil_suffix
  | tooLarge => exact List.suffix_append _ _

/-- An obstacle is there, and it does not start with a blank. -/
theorem Obstacle.exists_cons {place last : List Char} {cause : SyntaxError}
    (h : Obstacle place cause last) : ∃ c rest, place = c :: rest ∧ Text.isBlank c = false := by
  cases h with
  | character hblank => exact ⟨_, _, rfl, hblank⟩
  | exclamation => exact ⟨_, _, rfl, by decide⟩
  | unterminated hquote => rcases hquote with rfl | rfl <;> exact ⟨_, _, rfl, by decide⟩
  | tooLarge hdigits hlt =>
    obtain ⟨c, digits, rfl⟩ := List.exists_cons_of_ne_nil hdigits.ne_nil
    have hdigit := hdigits.isDigit c List.mem_cons_self
    exact ⟨c, _, rfl, isBlank_of_isWordPart (isWordPart_iff.mpr (.inr hdigit))⟩

/-- A text is refused: behind the tokens that it starts with, and blanks, stands an obstacle. -/
def Refused (text : List Char) (cause : SyntaxError) (last : List Char) : Prop :=
  ∃ found blanks place, Passes text found (blanks ++ place) ∧
    (∀ c ∈ blanks, Text.isBlank c = true) ∧ Obstacle place cause last

theorem Obstacle.refused {place last : List Char} {cause : SyntaxError}
    (h : Obstacle place cause last) : Refused place cause last :=
  ⟨[], [], place, .none place, by simp, h⟩

theorem Refused.suffix {text last : List Char} {cause : SyntaxError} (h : Refused text cause last) :
    last <:+ text := by
  obtain ⟨found, blanks, place, hpasses, -, hobstacle⟩ := h
  exact (hobstacle.suffix.trans (List.suffix_append _ _)).trans hpasses.suffix

/-! ## Single tokens -/

namespace Lexer

variable {c : Char} {rest last : List Char} {cause : SyntaxError}

/-- A token that is read starts with the next character. -/
theorem exists_lexeme_cons {token : Token} {after : List Char} (h : next c rest = .ok token after) :
    ∃ lexeme, Lexeme token (c :: lexeme) := by
  obtain ⟨lexeme, hcs, hlexeme, -⟩ := exists_lexeme_of_next h
  obtain ⟨d, lexeme, rfl, -⟩ := exists_cons_of_lexeme hlexeme
  obtain ⟨rfl, -⟩ := List.cons.inj hcs
  exact ⟨lexeme, hlexeme⟩

/-- A digit is a token by itself. -/
theorem lexeme_digit (h : c.isDigit = true) : Lexeme ⟨.number, String.ofList [c]⟩ [c] := by
  have hdigits : Decimal.Digits [c] (Nat.ofDigitChars 10 [c] 0) :=
    ⟨List.cons_ne_nil _ _, by simpa using h, rfl⟩
  have hlt := Decimal.digit_lt_ten h
  refine .number hdigits ?_
  rw [Nat.ofDigitChars_cons, Nat.ofDigitChars_nil, Decimal.greatest]
  omega

/-- Of the signs that operators start with, only the exclamation mark is none by itself. -/
theorem of_operator_error (h : operator c rest = .error cause last) :
    c = '!' ∧ rest.head? ≠ some '=' ∧ cause = .unexpectedCharacter c ∧ last = c :: rest := by
  unfold operator at h
  split at h
  · split at h <;> cases h
  · rename_i hequals
    split at h
    · rename_i hmark
      cases h
      refine ⟨hmark, fun hhead => ?_, rfl, rfl⟩
      obtain ⟨after, rfl⟩ := List.head?_eq_some_iff.mp hhead
      exact hequals after rfl
    · cases h

/-- Where the lexer reads no token, there is an obstacle. -/
theorem obstacle_of_next (hblank : Text.isBlank c = false)
    (h : next c rest = .error cause last) : Obstacle (c :: rest) cause last := by
  -- the branches are those of the lexer, in its order
  by_cases hquote : (c = '\'' || c = '"') = true
  · rw [next, if_pos hquote, quotedText] at h
    split at h
    · rename_i hdrop
      cases h
      refine .unterminated (by simpa using hquote) fun hmem => ?_
      simpa using List.dropWhile_eq_nil_iff.mp hdrop c hmem
    · cases h
  by_cases hdigit : c.isDigit = true
  · obtain ⟨hcs, hdigits, hafter⟩ := takeWhile_dropWhile_iff.mp
      ⟨rfl, (rfl : (c :: rest).dropWhile Char.isDigit = _)⟩
    have hne : (c :: rest).takeWhile Char.isDigit ≠ [] := by
      rw [List.takeWhile_cons_of_pos hdigit]
      exact List.cons_ne_nil _ _
    have hrun : Decimal.Digits ((c :: rest).takeWhile Char.isDigit) _ := ⟨hne, hdigits, rfl⟩
    rw [next_digits hrun hafter hcs] at h
    split at h
    · cases h
    · rename_i hlt
      cases h
      have hobstacle := Obstacle.tooLarge hrun (Nat.lt_of_not_le hlt) hafter
      rwa [← hcs] at hobstacle
  by_cases hsign : (c = '!' || c = '<' || c = '>' || c = '=') = true
  · rw [next, if_neg hquote, if_neg hdigit, if_pos hsign] at h
    obtain ⟨rfl, hequals, rfl, rfl⟩ := of_operator_error h
    exact .exclamation hequals
  by_cases hstart : isWordStart c = true
  · rw [next_word hstart] at h
    cases h
  cases hkind : punctuation? c with
  | some kind =>
    rw [next, if_neg hquote, if_neg hdigit, if_neg hsign, if_neg hstart, hkind] at h
    cases h
  | none =>
    -- nothing that follows the character makes a token of it
    have hnext : ∀ others, next c others = .error (.unexpectedCharacter c) (c :: others) := by
      intro others
      rw [next, if_neg hquote, if_neg hdigit, if_neg hsign, if_neg hstart, hkind]
    rw [hnext] at h
    cases h
    refine .character hblank fun token lexeme hlexeme hhead => ?_
    obtain ⟨others, rfl⟩ := List.head?_eq_some_iff.mp hhead
    have hread : next c others = .ok token [] :=
      next_ok_iff.mpr ⟨c :: others, (List.append_nil _).symm, hlexeme, stops_of_blank (by simp)⟩
    rw [hnext] at hread
    cases hread

/-- At an obstacle the lexer reads no token, and leaves what the obstacle leaves. -/
theorem next_of_obstacle (h : Obstacle (c :: rest) cause last) :
    next c rest = .error cause last := by
  generalize hplace : c :: rest = place at h
  cases h with
  | @character d others hblank hnone =>
    obtain ⟨rfl, rfl⟩ := List.cons.inj hplace
    cases hnext : next c rest with
    | ok token after =>
      obtain ⟨lexeme, hlexeme⟩ := exists_lexeme_cons hnext
      exact absurd rfl (hnone token _ hlexeme)
    | error cause' last' =>
      -- the other obstacles start with characters that tokens start with as well
      generalize hplace : c :: rest = place
      have hobstacle := obstacle_of_next hblank hnext
      rw [hplace] at hobstacle
      cases hobstacle with
      | character =>
        obtain ⟨rfl, rfl⟩ := List.cons.inj hplace
        rfl
      | exclamation =>
        obtain ⟨rfl, -⟩ := List.cons.inj hplace
        exact absurd rfl (hnone _ _ (.operator .notEqual))
      | @unterminated quote _ hquote =>
        obtain ⟨rfl, -⟩ := List.cons.inj hplace
        exact absurd rfl (hnone _ _ (.text hquote (List.not_mem_nil (a := c))))
      | tooLarge hdigits =>
        obtain ⟨d, digits, rfl⟩ := List.exists_cons_of_ne_nil hdigits.ne_nil
        obtain ⟨rfl, -⟩ := List.cons.inj hplace
        exact absurd rfl (hnone _ _ (lexeme_digit (hdigits.isDigit c List.mem_cons_self)))
  | exclamation hequals =>
    obtain ⟨rfl, rfl⟩ := List.cons.inj hplace
    show operator '!' rest = _
    unfold operator
    split
    · exact absurd rfl hequals
    · rfl
  | @unterminated quote others hquote hrest =>
    obtain ⟨rfl, rfl⟩ := List.cons.inj hplace
    have hdrop : rest.dropWhile (· ≠ c) = [] := by
      refine List.dropWhile_eq_nil_iff.mpr fun d hd => ?_
      simpa using fun heq : d = c => hrest (heq ▸ hd)
    rw [next, if_pos (by simpa using hquote), quotedText, hdrop]
  | tooLarge hdigits hlt hafter =>
    rw [next_digits hdigits hafter hplace, if_neg (Nat.not_le.mpr hlt)]

end Lexer

/-! ## Whole texts -/

/-- Every text spells tokens or is refused. -/
theorem spelled_or_refused (text : List Char) :
    (∃ tokens, Spelled text tokens) ∨ ∃ cause last, Refused text cause last := by
  -- by induction on the length of the text, for what follows a token is shorter
  induction hlength : text.length using Nat.strong_induction_on generalizing text with
  | _ length ih =>
    obtain ⟨htext, hblanks, hhead⟩ := takeWhile_dropWhile_iff.mp
      ⟨rfl, (rfl : text.dropWhile Text.isBlank = _)⟩
    have hle := length_dropWhile_le Text.isBlank text
    generalize text.takeWhile Text.isBlank = blanks at htext hblanks
    cases hplace : text.dropWhile Text.isBlank with
    | nil =>
      rw [hplace, List.append_nil] at htext
      exact .inl ⟨[], htext ▸ .done hblanks⟩
    | cons c rest =>
      rw [hplace] at htext hhead hle
      rw [List.length_cons] at hle
      subst htext
      cases hnext : next c rest with
      | error cause last =>
        have hobstacle := obstacle_of_next (hhead c rfl) hnext
        exact .inr ⟨cause, last, [], blanks, c :: rest, .none _, hblanks, hobstacle⟩
      | ok token after =>
        have hshort := next_rest_length_le hnext
        obtain ⟨lexeme, hcs, hlexeme, hstops⟩ := exists_lexeme_of_next hnext
        rw [hcs]
        rcases ih after.length (by omega) after rfl with ⟨tokens, hspelled⟩ | ⟨cause, last, hrefused⟩
        · exact .inl ⟨_, .token hblanks hlexeme hstops hspelled⟩
        · obtain ⟨found, blanks', place, hpasses, hplace⟩ := hrefused
          exact .inr ⟨cause, last, token :: found, blanks', place,
            .token hblanks hlexeme hstops hpasses, hplace⟩

namespace Lexer

variable {text rest last : List Char} {found : List Token} {cause : SyntaxError}

/-- What a reading finds, with the tokens in front that have been found before. -/
def prepend (found : List Token) : Reading (List Token) → Reading (List Token)
  | .ok more last => .ok (found ++ more) last
  | .error cause last => .error cause last

/-- Blanks in front of a text do not matter. -/
theorem tokens_blanks {blanks : List Char} (hblanks : ∀ c ∈ blanks, Text.isBlank c = true)
    (text : List Char) : tokens (blanks ++ text) = tokens text := by
  rw [tokens_eq, tokens_eq text, List.dropWhile_append_of_pos hblanks]

/-- A reading goes on behind the tokens that are passed. -/
theorem tokens_of_passes (h : Passes text found rest) :
    tokens text = prepend found (tokens rest) := by
  induction h with
  | none text => cases htokens : tokens text <;> rfl
  | @token blanks lexeme after rest token found hblanks hlexeme hstops _ ih =>
    obtain ⟨c, others, rfl, hblank⟩ := exists_cons_of_lexeme hlexeme
    have hnext : next c (others ++ after) = .ok token after :=
      next_ok_iff.mpr ⟨c :: others, rfl, hlexeme, hstops⟩
    rw [tokens_blanks hblanks, List.cons_append, tokens_eq,
      List.dropWhile_cons_of_neg (by simp [hblank])]
    simp only [hnext, ih]
    cases tokens rest <;> rfl

/-- The lexer refuses a text exactly for the obstacle in it, and leaves what the obstacle leaves. -/
theorem tokens_error_iff : tokens text = .error cause last ↔ Refused text cause last := by
  have hrefuses : ∀ {cause last}, Refused text cause last → tokens text = .error cause last := by
    rintro cause last ⟨found, blanks, place, hpasses, hblanks, hobstacle⟩
    obtain ⟨c, others, rfl, hblank⟩ := hobstacle.exists_cons
    rw [tokens_of_passes hpasses, tokens_blanks hblanks, tokens_eq,
      List.dropWhile_cons_of_neg (by simp [hblank])]
    simp only [next_of_obstacle hobstacle]
    rfl
  refine ⟨fun h => ?_, hrefuses⟩
  rcases spelled_or_refused text with ⟨found, hspelled⟩ | ⟨cause', last', hrefused⟩
  · rw [tokens_ok_iff.mpr ⟨rfl, hspelled⟩] at h
    cases h
  · rw [hrefuses hrefused] at h
    cases h
    exact hrefused

end Lexer

end TableStore.Sql
