import TableStore.Proofs.Reader
import TableStore.Proofs.Sql.Obstacles
import TableStore.Proofs.Text.Blank

/-!
# Blanks seal a text

Every token ends where a blank follows, if it has not ended before, and no obstacle goes away because
of it. So a text with tokens can be followed by a blank and then by anything: the tokens stay what they
were, and what comes behind them is read as if it stood alone. In the same way the blanks at the two
ends of a text do not matter, neither for the statement in it nor for the cause of its refusal.

* `Sql.Passes.append`, `Sql.Obstacle.append` — tokens and obstacles stay when a blank follows.
* `Sql.Lexer.tokens_append_blanks` — two texts with blanks between them.
* `Sql.Statement.ofText_of_trims` — a text without the blanks at its ends.
-/

namespace TableStore.Sql

open Lexer

section

variable {text rest place last back : List Char} {tokens : List Token} {cause : SyntaxError}

theorem isBlank_head? (h : ∀ c ∈ back, Text.isBlank c = true) :
    ∀ c ∈ back.head?, Text.isBlank c = true :=
  fun c hc => h c (List.mem_of_mem_head? hc)

/-- A token that stops also stops if a blank follows in the end. -/
theorem Stops.append {token : Token} (h : Stops token rest)
    (hback : ∀ c ∈ back.head?, Text.isBlank c = true) : Stops token (rest ++ back) := by
  cases rest with
  | nil => exact stops_of_blank hback
  | cons c rest => exact h

/-- A lexeme alone spells its token. -/
theorem Spelled.lexeme {token : Token} {lexeme : List Char} (h : Lexeme token lexeme) :
    Spelled lexeme [token] := by
  have hspelled : Spelled ([] ++ (lexeme ++ [])) [token] :=
    .token (by simp) h (stops_of_blank (by simp)) (.done (by simp))
  rwa [List.nil_append, List.append_nil] at hspelled

/-- The tokens at the head of a text stay if a blank follows. -/
theorem Passes.append (h : Passes text tokens rest)
    (hback : ∀ c ∈ back.head?, Text.isBlank c = true) :
    Passes (text ++ back) tokens (rest ++ back) := by
  induction h with
  | none text => exact .none _
  | token hblanks hlexeme hstops _ ih =>
    simpa only [List.append_assoc] using Passes.token hblanks hlexeme (hstops.append hback) ih

/-- An obstacle stays if blanks follow: they are no quotes, no digits and no equals signs. -/
theorem Obstacle.append (h : Obstacle place cause last)
    (hback : ∀ c ∈ back, Text.isBlank c = true) :
    ∃ last', Obstacle (place ++ back) cause last' := by
  have hhead := isBlank_head? hback
  cases h with
  | character hblank hnone => exact ⟨_, .character hblank hnone⟩
  | @exclamation rest hequals =>
    have hne : (rest ++ back).head? ≠ some '=' := by
      cases rest with
      | nil => exact fun heq => absurd (hhead '=' heq) (by decide)
      | cons c rest => exact hequals
    exact ⟨_, .exclamation hne⟩
  | @unterminated quote rest hquote hrest =>
    refine ⟨[], .unterminated hquote fun hmem => ?_⟩
    rcases List.mem_append.mp hmem with hmem | hmem
    · exact hrest hmem
    · have hblank := hback quote hmem
      rcases hquote with rfl | rfl <;> exact absurd hblank (by decide)
  | tooLarge hdigits hlt hafter =>
    have hnumber : Stops ⟨.number, ""⟩ (last ++ back) := Stops.append hafter hhead
    have hstops : ∀ c ∈ (last ++ back).head?, c.isDigit = false := hnumber
    rw [List.append_assoc]
    exact ⟨_, .tooLarge hdigits hlt hstops⟩

/-- A text that is refused stays so for the same cause if blanks follow. -/
theorem Refused.append (h : Refused text cause last) (hback : ∀ c ∈ back, Text.isBlank c = true) :
    ∃ last', Refused (text ++ back) cause last' := by
  obtain ⟨found, blanks, place, hpasses, hblanks, hobstacle⟩ := h
  obtain ⟨last', hobstacle⟩ := hobstacle.append hback
  have hpasses := hpasses.append (isBlank_head? hback)
  rw [List.append_assoc] at hpasses
  exact ⟨last', found, blanks, _, hpasses, hblanks, hobstacle⟩

end

/-! ## Two texts -/

/-- If a text has tokens, then with blanks and any other text behind it the tokens of the two follow
each other, and if the other text is refused, then the whole is refused for the same cause. -/
theorem Lexer.tokens_append_blanks (text blanks other : String) (found : List Token)
    (last : List Char) (hnonempty : blanks ≠ "")
    (hblanks : ∀ c ∈ blanks.toList, Text.isBlank c = true)
    (htext : tokens text.toList = .ok found last) :
    (∀ more last', tokens other.toList = .ok more last' →
      tokens (text ++ blanks ++ other).toList = .ok (found ++ more) last') ∧
    ∀ cause last', tokens other.toList = .error cause last' →
      tokens (text ++ blanks ++ other).toList = .error cause last' := by
  obtain ⟨-, hspelled⟩ := tokens_ok_iff.mp htext
  obtain ⟨end', hpasses, hend⟩ := spelled_iff_passes.mp hspelled
  have hhead : ∀ c ∈ (blanks.toList ++ other.toList).head?, Text.isBlank c = true := by
    obtain ⟨c, cs, hcs⟩ := List.exists_cons_of_ne_nil (mt String.toList_eq_nil_iff.mp hnonempty)
    rw [hcs] at hblanks ⊢
    rintro _ ⟨⟩
    exact hblanks c List.mem_cons_self
  have hwhole : tokens (text ++ blanks ++ other).toList = prepend found (tokens other.toList) := by
    rw [String.toList_append, String.toList_append, List.append_assoc,
      tokens_of_passes (hpasses.append hhead), tokens_blanks hend, tokens_blanks hblanks]
  constructor
  · intro more last' hother
    rw [hwhole, hother]
    rfl
  · intro cause last' hother
    rw [hwhole, hother]
    rfl

/-- A blank keeps two operators apart, and a text behind it that is not closed is refused as it is when it
stands alone. -/
theorem Lexer.tokens_append_blanks_operators :
    tokens ("<" ++ "\t" ++ "=").toList = .ok [⟨.operator, "<"⟩, ⟨.operator, "="⟩] [] ∧
      tokens ("<" ++ "\t" ++ "'x ").toList = .error .unterminatedText [] := by
  have hoperator : ∀ op : Comparison,
      tokens op.symbol.toList = .ok [⟨.operator, op.symbol⟩] [] :=
    fun op => tokens_ok_iff.mpr ⟨rfl, .lexeme (.operator op)⟩
  have hopen : tokens "'x ".toList = .error .unterminatedText [] :=
    tokens_error_iff.mpr (Obstacle.unterminated (.inl rfl) (by decide)).refused
  have hblank : ∀ c ∈ "\t".toList, Text.isBlank c = true := by
    intro c hc
    obtain rfl : c = '\t' := by simpa using hc
    decide
  obtain ⟨hok, -⟩ := tokens_append_blanks "<" "\t" "=" _ _ (by decide) hblank (hoperator .less)
  obtain ⟨-, herror⟩ := tokens_append_blanks "<" "\t" "'x " _ _ (by decide) hblank (hoperator .less)
  exact ⟨hok _ _ (hoperator .equal), herror _ _ hopen⟩

/-! ## The ends of a text -/

/-- Blanks behind a text do not matter, but for what is left of it. -/
theorem Lexer.verdict_append (text : List Char) {back : List Char}
    (hback : ∀ c ∈ back, Text.isBlank c = true) :
    Reader.verdict (tokens (text ++ back)) = Reader.verdict (tokens text) := by
  cases htokens : tokens text with
  | ok found last =>
    obtain ⟨rfl, hspelled⟩ := tokens_ok_iff.mp htokens
    obtain ⟨blanks, hpasses, hblanks⟩ := spelled_iff_passes.mp hspelled
    have hwhole : Spelled (text ++ back) found := spelled_iff_passes.mpr
      ⟨_, hpasses.append (isBlank_head? hback), List.forall_mem_append.mpr ⟨hblanks, hback⟩⟩
    rw [tokens_ok_iff.mpr ⟨rfl, hwhole⟩]
  | error cause last =>
    obtain ⟨last', hrefused⟩ := (tokens_error_iff.mp htokens).append hback
    rw [tokens_error_iff.mpr hrefused]
    rfl

namespace Statement

/-- Only what comes of reading the tokens of a text tells what statement it is. -/
theorem ofText_congr {text other : String}
    (h : Reader.verdict (Lexer.tokens text.toList) = Reader.verdict (Lexer.tokens other.toList)) :
    ofText text = ofText other := by
  unfold ofText
  cases htext : Lexer.tokens text.toList with
  | ok found last =>
    cases hother : Lexer.tokens other.toList with
    | ok found' last' =>
      rw [htext, hother] at h
      cases h
      rfl
    | error cause last' =>
      rw [htext, hother] at h
      cases h
  | error cause last =>
    cases hother : Lexer.tokens other.toList with
    | ok found last' =>
      rw [htext, hother] at h
      cases h
    | error cause' last' =>
      rw [htext, hother] at h
      cases h
      rfl

/-- A text is the same statement without the blanks at its ends, or is refused for the same cause. -/
theorem ofText_of_trims {text trimmed : String} (h : Text.Trims text trimmed) :
    ofText text = ofText trimmed := by
  obtain ⟨front, back, htext, hfront, hback, -⟩ := h
  refine ofText_congr ?_
  rw [htext, List.append_assoc, Lexer.tokens_blanks hfront, Lexer.verdict_append _ hback]

end Statement

end TableStore.Sql
