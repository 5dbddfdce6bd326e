import TableStore.Proofs.Reader
import TableStore.Proofs.Sql.Misfits
import TableStore.Proofs.Sql.Obstacles

/-!
# Reading on after a refusal

The lexer and the grammar keep what is left of their symbols also when they refuse them, so that they
can be called again. The lexer stays in front of a character that it does not take, goes behind a number
that is too large, and has nothing left otherwise. The grammar takes the token that starts a statement
at least, and stays in front of any other. Both come to a place where all later calls do the same.

* `Sql.Lexer.forward_tokens`, `Sql.Statement.forward_ofTokens` — both only go forwards.
* `Sql.Lexer.tokens_again`, `Sql.Lexer.tokens_unterminated`, `Sql.Lexer.tokens_integerLiteral` — what
  the lexer leaves, by the cause.
* `Sql.Statement.remainder_ofTokens_of_starts`, `Sql.Statement.ofTokens_of_not_starts` — what the
  grammar leaves, by the first token.
* `Sql.Lexer.tokens_resumed`, `Sql.Statement.ofTokens_resumed` — the calls in turn, any number of them.
-/

namespace TableStore.Sql

/-! ## The lexer -/

namespace Lexer

variable {text last : List Char} {c : Char}

theorem tokens_nil : tokens [] = .ok [] [] :=
  tokens_ok_iff.mpr ⟨rfl, .done (by simp)⟩

theorem forward_tokens : Reader.Forward tokens := by
  intro text
  cases htokens : tokens text with
  | ok found last =>
    obtain ⟨rfl, -⟩ := tokens_ok_iff.mp htokens
    exact List.nil_suffix
  | error cause last => exact (tokens_error_iff.mp htokens).suffix

/-- In front of a character that it has refused the lexer refuses it again. -/
theorem tokens_again (h : tokens text = .error (.unexpectedCharacter c) last) :
    tokens last = .error (.unexpectedCharacter c) last := by
  obtain ⟨found, blanks, place, -, -, hobstacle⟩ := tokens_error_iff.mp h
  cases hobstacle with
  | character hblank hnone => exact tokens_error_iff.mpr (Obstacle.character hblank hnone).refused
  | exclamation hequals => exact tokens_error_iff.mpr (Obstacle.exclamation hequals).refused

/-- Nothing is left behind a text that is not closed. -/
theorem tokens_unterminated (h : tokens text = .error .unterminatedText last) : last = [] := by
  obtain ⟨found, blanks, place, -, -, hobstacle⟩ := tokens_error_iff.mp h
  cases hobstacle
  rfl

/-- Digits that are too large have been read when they are refused. -/
theorem tokens_integerLiteral {digits : String} {fault : Decimal.Fault}
    (h : tokens text = .error (.integerLiteral digits fault) last) :
    fault = .tooLarge ∧ ∃ found blanks value,
      Passes text found (blanks ++ (digits.toList ++ last)) ∧
        (∀ c ∈ blanks, Text.isBlank c = true) ∧ Decimal.Digits digits.toList value ∧
        Decimal.greatest < value ∧ ∀ c ∈ last.head?, c.isDigit = false := by
  obtain ⟨found, blanks, place, hpasses, hblanks, hobstacle⟩ := tokens_error_iff.mp h
  cases hobstacle with
  | tooLarge hdigits hlt hafter =>
    exact ⟨rfl, found, blanks, _, by simpa using hpasses, hblanks, by simpa using hdigits, hlt, hafter⟩

/-- There are three ways for the lexer to refuse a text. -/
theorem tokens_error_cases {cause : SyntaxError} (h : tokens text = .error cause last) :
    cause = .unterminatedText ∨ (∃ c, cause = .unexpectedCharacter c) ∨
      ∃ digits fault, cause = .integerLiteral digits fault := by
  obtain ⟨found, blanks, place, -, -, hobstacle⟩ := tokens_error_iff.mp h
  cases hobstacle with
  | character | exclamation => exact .inr (.inl ⟨_, rfl⟩)
  | unterminated => exact .inl rfl
  | tooLarge => exact .inr (.inr ⟨_, _, rfl⟩)

/-! ### Calls in turn -/

section

variable (text : List Char) (n : Nat)

theorem outcome_cases :
    (∃ found, Reader.outcome tokens text n = .ok found) ∨
      Reader.outcome tokens text n = .error .unterminatedText ∨
      (∃ c, Reader.outcome tokens text n = .error (.unexpectedCharacter c)) ∨
      ∃ digits fault, Reader.outcome tokens text n = .error (.integerLiteral digits fault) := by
  cases h : Reader.outcome tokens text n with
  | ok found => exact .inl ⟨found, rfl⟩
  | error cause =>
    refine .inr ?_
    rcases tokens_error_cases (Reader.outcome_error_iff.mp h) with rfl | ⟨c, rfl⟩ | ⟨digits, fault, rfl⟩
    · exact .inl rfl
    · exact .inr (.inl ⟨c, rfl⟩)
    · exact .inr (.inr ⟨digits, fault, rfl⟩)

variable {text n}

/-- Behind a text with tokens, and behind one that is not closed, all later calls find nothing. -/
theorem outcome_after_end {k : Nat} (hk : n < k)
    (h : (∃ found, Reader.outcome tokens text n = .ok found) ∨
      Reader.outcome tokens text n = .error .unterminatedText) :
    Reader.outcome tokens text k = .ok [] := by
  have hnil : Reader.left tokens text (n + 1) = [] := by
    rcases h with ⟨found, h⟩ | h
    · exact (tokens_ok_iff.mp (Reader.outcome_ok_iff.mp h)).1
    · exact tokens_unterminated (Reader.outcome_error_iff.mp h)
  obtain ⟨houtcome, -⟩ := forward_tokens.of_left_eq_nil hnil hk
  rw [houtcome, tokens_nil, Reader.verdict]

/-- All later calls refuse an unexpected character as well. -/
theorem outcome_after_unexpected {k : Nat} (hk : n ≤ k)
    (h : Reader.outcome tokens text n = .error (.unexpectedCharacter c)) :
    Reader.outcome tokens text k = .error (.unexpectedCharacter c) := by
  rcases Nat.eq_or_lt_of_le hk with rfl | hlt
  · exact h
  -- the first call goes up to the character, and from then on nothing changes
  have hagain := tokens_again (Reader.outcome_error_iff.mp h)
  have hstays : Reader.left tokens text (n + 1 + 1) = Reader.left tokens text (n + 1) := by
    rw [Reader.left, hagain, Reader.remainder]
  rw [Reader.outcome_of_stays hstays hlt, Reader.outcome, hagain, Reader.verdict]

end

/-- The lexer called again and again. It only goes forwards, and a call that takes nothing is repeated
by all later ones. Behind a text with tokens and behind one that is not closed there are no more tokens,
an unexpected character is refused again and again, and behind a number that is too large the lexer goes
on as if the text started there. So there is one outcome for all calls once there were as many as
characters. -/
theorem tokens_resumed (text : String) :
    let outcome := Reader.outcome tokens text.toList
    let position := Reader.position tokens text.toList
    (∀ n, outcome n = Reader.verdict (tokens (text.toList.drop (position n)))) ∧
      Monotone position ∧ (∀ n, position n ≤ text.length) ∧
      (∀ n, position (n + 1) = position n →
        ∀ k ≥ n, outcome k = outcome n ∧ position k = position n) ∧
      (∀ n, (∃ found, outcome n = .ok found) ∨ outcome n = .error .unterminatedText ∨
        (∃ c, outcome n = .error (.unexpectedCharacter c)) ∨
        ∃ digits fault, outcome n = .error (.integerLiteral digits fault)) ∧
      (∀ n, (∃ found, outcome n = .ok found) ∨ outcome n = .error .unterminatedText →
        ∀ k > n, outcome k = .ok []) ∧
      (∀ n c, outcome n = .error (.unexpectedCharacter c) →
        ∀ k ≥ n, outcome k = .error (.unexpectedCharacter c)) ∧
      (∀ n digits fault, outcome n = .error (.integerLiteral digits fault) →
        fault = .tooLarge ∧
        (∃ found blanks value,
          Passes (text.toList.drop (position n)) found
            (blanks ++ (digits.toList ++ text.toList.drop (position (n + 1)))) ∧
          (∀ c ∈ blanks, Text.isBlank c = true) ∧ Decimal.Digits digits.toList value ∧
          Decimal.greatest < value ∧
          ∀ c ∈ (text.toList.drop (position (n + 1))).head?, c.isDigit = false) ∧
        ∀ k, outcome (n + 1 + k) =
          Reader.outcome tokens (text.toList.drop (position (n + 1))) k) ∧
      ∀ n ≥ text.length, outcome n = outcome text.length := by
  intro outcome position
  have hforward := forward_tokens
  have hlength : text.toList.length = text.length := String.length_toList
  have hdrop : ∀ n, Reader.left tokens text.toList n = text.toList.drop (position n) :=
    hforward.left_eq_drop
  refine ⟨hforward.outcome_eq, hforward.position_mono, fun n => ?_,
    fun n hn k => hforward.repeated_of_position hn, outcome_cases _,
    fun n hn k hk => outcome_after_end hk hn, fun n c hn k hk => outcome_after_unexpected hk hn,
    fun n digits fault hn => ?_, fun n hn => ?_⟩
  · exact (Nat.sub_le _ _).trans_eq hlength
  · -- what is left behind the digits is a text of its own
    obtain ⟨hfault, hdigits⟩ := tokens_integerLiteral (Reader.outcome_error_iff.mp hn)
    rw [hdrop, hdrop] at hdigits
    refine ⟨hfault, hdigits, fun k => ?_⟩
    rw [← hdrop]
    exact Reader.outcome_add _ _
  · rw [← hlength] at hn ⊢
    exact hforward.outcome_settles hn

/-- A number that is too large is refused once, and what stands behind it is read by the next call. -/
theorem tokens_resumed_too_large :
    let text := "9223372036854775808*!"
    let outcome := Reader.outcome tokens text.toList
    outcome 0 = .error (.integerLiteral "9223372036854775808" .tooLarge) ∧
      (∀ k ≥ 1, outcome k = .error (.unexpectedCharacter '!')) ∧
      outcome 1000 = outcome 21 := by
  intro text outcome
  obtain ⟨-, -, -, -, -, -, hcharacter, -, hsettles⟩ := tokens_resumed text
  have hdigits : Decimal.Digits "9223372036854775808".toList 9223372036854775808 :=
    ⟨by decide, List.all_eq_true.mp (by decide), by decide⟩
  have htext : text.toList = "9223372036854775808".toList ++ ['*', '!'] := by decide
  have hnumber : tokens text.toList =
      .error (.integerLiteral "9223372036854775808" .tooLarge) ['*', '!'] := by
    have hafter : ∀ c ∈ ['*', '!'].head?, c.isDigit = false := by simp
    have hobstacle := (Obstacle.tooLarge hdigits (by decide) hafter).refused
    rw [String.ofList_toList, ← htext] at hobstacle
    exact tokens_error_iff.mpr hobstacle
  -- the second call passes the mark and comes to the sign, where it stays
  have hmark : Passes ([] ++ (['*'] ++ ['!'])) [⟨.asterisk, String.singleton '*'⟩] ['!'] :=
    .token (by simp) (.mark (by decide)) trivial (.none _)
  have hsign : tokens ['*', '!'] = .error (.unexpectedCharacter '!') ['!'] :=
    tokens_error_iff.mpr ⟨_, [], _, hmark, by simp, .exclamation (by simp)⟩
  have hfirst : outcome 0 = .error (.integerLiteral "9223372036854775808" .tooLarge) :=
    congrArg Reader.verdict hnumber
  have hleft : Reader.left tokens text.toList 1 = ['*', '!'] := congrArg Reader.remainder hnumber
  have hsecond : outcome 1 = .error (.unexpectedCharacter '!') := by
    show Reader.verdict (tokens (Reader.left tokens text.toList 1)) = _
    rw [hleft, hsign, Reader.verdict]
  have hlength : text.length = 21 := by decide
  exact ⟨hfirst, hcharacter 1 '!' hsecond, hlength ▸ hsettles 1000 (by omega)⟩

end Lexer

/-! ## The grammar -/

/-- A token is a keyword that a statement starts with. -/
def Token.Starts (token : Token) : Prop :=
  token.kind = .keyword ∧
    token.text ∈ ["CREATE", "DROP", "INSERT", "SELECT", "UPDATE", "DELETE"]

namespace Statement

variable {tokens : List Token} {first : Token}

/-- Each of the keywords does start a statement. -/
theorem exists_accepts_of_starts (h : first.Starts) :
    ∃ more, Rule.statement.Accepts (first :: more) := by
  obtain ⟨kind, word⟩ := first
  obtain ⟨rfl, hword⟩ : kind = .keyword ∧ _ := h
  -- the shortest statement of each kind
  fin_cases hword
  · exact ⟨[⟨.keyword, "TABLE"⟩, ⟨.identifier, "t"⟩, ⟨.leftParen, "("⟩, ⟨.identifier, "a"⟩,
      ⟨.keyword, "TEXT"⟩, ⟨.rightParen, ")"⟩], _, _, rfl⟩
  · exact ⟨[⟨.keyword, "TABLE"⟩, ⟨.identifier, "t"⟩], _, _, rfl⟩
  · exact ⟨[⟨.keyword, "INTO"⟩, ⟨.identifier, "t"⟩, ⟨.keyword, "VALUES"⟩, ⟨.leftParen, "("⟩,
      ⟨.text, "a"⟩, ⟨.rightParen, ")"⟩], _, _, rfl⟩
  · exact ⟨[⟨.asterisk, "*"⟩, ⟨.keyword, "FROM"⟩, ⟨.identifier, "t"⟩], _, _, rfl⟩
  · exact ⟨[⟨.identifier, "t"⟩, ⟨.keyword, "SET"⟩, ⟨.identifier, "a"⟩, ⟨.operator, "="⟩,
      ⟨.text, "a"⟩], _, _, rfl⟩
  · exact ⟨[⟨.keyword, "FROM"⟩, ⟨.identifier, "t"⟩], _, _, rfl⟩

/-- The grammar takes the keyword that starts a statement, and goes forwards from there. -/
theorem remainder_ofTokens_of_starts (h : first.Starts) (others : List Token) :
    Reader.remainder (ofTokens (first :: others)) <:+ others := by
  cases hrun : ofTokens (first :: others) with
  | ok statement rest =>
    obtain ⟨rfl, -⟩ := Rule.run_statement_iff.mp hrun
    exact List.nil_suffix
  | error cause rest =>
    obtain ⟨read, after, htokens, -, hdead, hleft⟩ := Rule.prompt_statement _ cause rest hrun
    cases read with
    | nil =>
      -- the fault is not at the keyword, for there is a statement that starts with it
      obtain rfl : first :: others = after := htokens
      obtain ⟨more, haccepts⟩ := exists_accepts_of_starts h
      exact absurd haccepts (hdead first rfl more)
    | cons token read =>
      obtain ⟨rfl, rfl⟩ := List.cons.inj htokens
      rcases hleft with rfl | rfl
      · exact List.suffix_append _ _
      · exact (List.tail_suffix _).trans (List.suffix_append _ _)

/-- The grammar leaves everything where no statement starts. -/
theorem ofTokens_of_not_starts (h : ∀ first ∈ tokens.head?, ¬first.Starts) :
    ∃ cause, ofTokens tokens = .error cause tokens := by
  -- the rule for the body looks at the first token and refuses it before it takes anything
  have hbody : ∃ cause, Rule.body.run tokens = .error cause tokens := by
    cases tokens with
    | nil => exact ⟨_, rfl⟩
    | cons first others =>
      obtain ⟨kind, word⟩ := first
      by_cases hkind : kind = .keyword
      · subst hkind
        have hword : word ∉ ["CREATE", "DROP", "INSERT", "SELECT", "UPDATE", "DELETE"] :=
          fun hmem => h _ rfl ⟨rfl, hmem⟩
        have hrule : Rule.ofKeyword? word = none := by
          unfold Rule.ofKeyword?
          rw [List.lookup_eq_none_iff]
          simpa using hword
        rw [Rule.run_body_cons, hrule]
        exact ⟨_, rfl⟩
      · exact ⟨_, Rule.run_body_of_kind_ne hkind others⟩
  obtain ⟨cause, hbody⟩ := hbody
  refine ⟨cause, ?_⟩
  rw [ofTokens, Rule.statement_eq]
  exact Rule.run_bind_error hbody

theorem forward_ofTokens : Reader.Forward ofTokens := by
  intro tokens
  by_cases hstarts : ∃ first ∈ tokens.head?, first.Starts
  · obtain ⟨first, hfirst, hstarts⟩ := hstarts
    obtain ⟨others, rfl⟩ := List.head?_eq_some_iff.mp hfirst
    exact (remainder_ofTokens_of_starts hstarts others).trans (List.suffix_cons _ _)
  · push Not at hstarts
    obtain ⟨cause, hrun⟩ := ofTokens_of_not_starts hstarts
    rw [hrun]
    exact List.suffix_refl _

/-! ### Calls in turn -/

section

variable {n : Nat}

theorem head?_left (tokens : List Token) (n : Nat) :
    (Reader.left ofTokens tokens n).head? = tokens[Reader.position ofTokens tokens n]? := by
  rw [forward_ofTokens.left_eq_drop, List.head?_drop]

/-- A call that starts at the keyword of a statement takes it. -/
theorem position_lt_of_starts
    (h : ∃ first ∈ tokens[Reader.position ofTokens tokens n]?, first.Starts) :
    Reader.position ofTokens tokens n < Reader.position ofTokens tokens (n + 1) := by
  rw [← head?_left] at h
  obtain ⟨first, hfirst, hstarts⟩ := h
  obtain ⟨others, hleft⟩ := List.head?_eq_some_iff.mp hfirst
  refine forward_ofTokens.position_lt ?_
  rw [Reader.left, hleft, List.length_cons]
  exact Nat.lt_succ_of_le (remainder_ofTokens_of_starts hstarts others).length_le

/-- A call that starts anywhere else stays there, and so do all later ones. -/
theorem stays_of_not_starts
    (h : ∀ first ∈ tokens[Reader.position ofTokens tokens n]?, ¬first.Starts) :
    Reader.position ofTokens tokens (n + 1) = Reader.position ofTokens tokens n ∧
      ∃ cause, ∀ k ≥ n, Reader.outcome ofTokens tokens k = .error cause := by
  rw [← head?_left] at h
  obtain ⟨cause, hrun⟩ := ofTokens_of_not_starts h
  have hstays : Reader.left ofTokens tokens (n + 1) = Reader.left ofTokens tokens n := by
    rw [Reader.left, hrun, Reader.remainder]
  refine ⟨Reader.position_of_stays hstays (Nat.le_succ n), cause, fun k hk => ?_⟩
  rw [Reader.outcome_of_stays hstays hk, Reader.outcome, hrun, Reader.verdict]

/-- Nothing is left behind a statement. -/
theorem outcome_after_statement {statement : Statement}
    (h : Reader.outcome ofTokens tokens n = .ok statement) :
    Reader.position ofTokens tokens (n + 1) = tokens.length ∧
      ∀ k > n, Reader.outcome ofTokens tokens k = .error .emptyStatement := by
  -- a sentence is made of all tokens, so there are none for the next call
  obtain ⟨hnil, -⟩ := Rule.run_statement_iff.mp (Reader.outcome_ok_iff.mp h)
  exact ⟨(forward_ofTokens.of_left_eq_nil hnil (Nat.le_refl _)).2,
    fun k hk => (forward_ofTokens.of_left_eq_nil hnil hk).1⟩

/-- Behind a statement there is no other one. -/
theorem not_lt_of_statements {m : Nat} {a b : Statement}
    (hm : Reader.outcome ofTokens tokens m = .ok a)
    (hn : Reader.outcome ofTokens tokens n = .ok b) : ¬m < n := by
  intro hlt
  have hempty := (outcome_after_statement hm).2 n hlt
  rw [hn] at hempty
  cases hempty

end

/-- The grammar called again and again. It only goes forwards. A call that starts at the keyword of a
statement takes it, and any other call stays where it is, as all later calls do then. A statement is
always the last one: behind it nothing is left. So there is one outcome for all calls once there were as
many as tokens, and one statement at most. -/
theorem ofTokens_resumed (tokens : List Token) :
    let outcome := Reader.outcome ofTokens tokens
    let position := Reader.position ofTokens tokens
    (∀ n, outcome n = Reader.verdict (ofTokens (tokens.drop (position n)))) ∧
      Monotone position ∧ (∀ n, position n ≤ tokens.length) ∧
      (∀ n, (∃ first ∈ tokens[position n]?, first.Starts) → position n < position (n + 1)) ∧
      (∀ n, (∀ first ∈ tokens[position n]?, ¬first.Starts) →
        position (n + 1) = position n ∧ ∃ cause, ∀ k ≥ n, outcome k = .error cause) ∧
      (∀ n statement, outcome n = .ok statement →
        position (n + 1) = tokens.length ∧ ∀ k > n, outcome k = .error .emptyStatement) ∧
      SyntaxError.emptyStatement.message = "empty statement" ∧
      (∀ n ≥ tokens.length, outcome n = outcome tokens.length) ∧
      ∀ m n a b, outcome m = .ok a → outcome n = .ok b → m = n := by
  intro outcome position
  have hforward := forward_ofTokens
  refine ⟨hforward.outcome_eq, hforward.position_mono, fun n => Nat.sub_le _ _,
    fun n => position_lt_of_starts, fun n => stays_of_not_starts,
    fun n statement => outcome_after_statement, rfl, fun n => hforward.outcome_settles, ?_⟩
  intro m n a b hm hn
  have hmn : ¬m < n := not_lt_of_statements hm hn
  have hnm : ¬n < m := not_lt_of_statements hn hm
  omega

/-- A second statement is read by a call of its own, if the first one is refused because of it. -/
theorem ofTokens_resumed_twice :
    let tokens : List Token := [⟨.keyword, "DROP"⟩, ⟨.keyword, "TABLE"⟩, ⟨.identifier, "a"⟩,
      ⟨.keyword, "DROP"⟩, ⟨.keyword, "TABLE"⟩, ⟨.identifier, "b"⟩]
    let outcome := Reader.outcome ofTokens tokens
    outcome 0 = .error (.trailingToken ⟨.keyword, "DROP"⟩) ∧ outcome 1 = .ok (.dropTable "b") ∧
      ∀ k > 1, outcome k = .error .emptyStatement := by
  intro tokens outcome
  obtain ⟨-, -, -, -, -, hok, -⟩ := ofTokens_resumed tokens
  have hsecond : outcome 1 = .ok (.dropTable "b") := rfl
  exact ⟨rfl, hsecond, (hok 1 _ hsecond).2⟩

end Statement

end TableStore.Sql
