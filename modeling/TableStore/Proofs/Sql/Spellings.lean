import TableStore.Proofs.Sql.PrintedStatements

/-!
# The texts of a statement

A statement can be written in many ways: reserved words in any mix of letter case, texts between
either kind of quotes, numbers with zeros in front of them, any blanks between tokens as long as no
two of them run together, and a semicolon at the end or none. All these texts are read as the
statement, and no other text is. In particular no choice of this kind shows in what is read.

* `Sql.Spelling` — the ways to write a token; `Sql.Merges` — tokens that have to be kept apart.
* `Sql.Written` — the ways to write tokens one after the other.
* `Sql.Statement.Writes` — the texts of a statement.
* `Sql.written_iff` — texts of tokens fall into lexemes that stand for the tokens.
* `Sql.Statement.ofText_iff_writes` — a text is read as a statement exactly if it is one of its texts.
-/

namespace TableStore.Sql

/-! ## Ways to write -/

/-- The characters that a token may be written with. -/
inductive Spelling : Token → List Char → Prop where
  | keyword {word : String} {lexeme : List Char} (hcase : Recases lexeme word) :
      Spelling ⟨.keyword, word⟩ lexeme
  | identifier (name : String) : Spelling ⟨.identifier, name⟩ name.toList
  | number (zeros : Nat) (digits : String) :
      Spelling ⟨.number, digits⟩ (List.replicate zeros '0' ++ digits.toList)
  | text {s : String} {quote : Char} (hquote : quote = '\'' ∨ quote = '"')
      (hbody : quote ∉ s.toList) : Spelling ⟨.text, s⟩ (quote :: (s.toList ++ [quote]))
  | operator (symbol : String) : Spelling ⟨.operator, symbol⟩ symbol.toList
  | mark {c : Char} {kind : Token.Kind} (hmark : (c, kind) ∈ marks) :
      Spelling ⟨kind, String.singleton c⟩ [c]

/-- Two tokens that run together if no blank stands between them: a word goes on with the letters or
digits of the second token, a number with its digits, and `<` and `>` with an equals sign. -/
inductive Merges (first next : Token) : Prop where
  | words (hfirst : first.kind = .keyword ∨ first.kind = .identifier)
      (hnext : next.kind = .keyword ∨ next.kind = .identifier ∨ next.kind = .number)
  | numbers (hfirst : first.kind = .number) (hnext : next.kind = .number)
  | operators (hfirst : first.kind = .operator) (hsymbol : first.text = "<" ∨ first.text = ">")
      (hnext : next = ⟨.operator, "="⟩)

/-- Tokens are written one after the other, with any blanks before, between and behind them. There is
a blank at least between two tokens that would run together. -/
inductive Written : List Token → List Char → Prop where
  | done {blanks : List Char} (hblanks : ∀ c ∈ blanks, Text.isBlank c = true) : Written [] blanks
  | token {blanks lexeme after : List Char} {token : Token} {tokens : List Token}
      (hblanks : ∀ c ∈ blanks, Text.isBlank c = true) (hspelling : Spelling token lexeme)
      (hgap : ∀ next ∈ tokens.head?, Merges token next → ∃ c ∈ after.head?, Text.isBlank c = true)
      (hafter : Written tokens after) : Written (token :: tokens) (blanks ++ (lexeme ++ after))

/-- The texts of a statement: its tokens are written, with or without a semicolon behind them. -/
inductive Statement.Writes (statement : Statement) (text : String) : Prop where
  | bare (h : Written statement.tokens text.toList)
  | ended (h : Written (statement.tokens ++ [⟨.semicolon, ";"⟩]) text.toList)

/-! ## Tokens that have to be kept apart -/

variable {token next : Token} {c : Char} {rest after lexeme text : List Char} {tokens : List Token}

/-- The first character of a lexeme shows what it would go on with. -/
theorem head_of_lexeme (h : Lexeme token (c :: rest)) :
    (Lexer.isWordPart c = true ↔
      token.kind = .keyword ∨ token.kind = .identifier ∨ token.kind = .number) ∧
    (c.isDigit = true ↔ token.kind = .number) ∧ (c = '=' ↔ token = ⟨.operator, "="⟩) := by
  have hequals : ∀ d : Char, Lexer.isWordPart d = true → d ≠ '=' := by
    intro d hpart heq
    rw [heq] at hpart
    exact absurd hpart (by decide)
  have hword : IsWord (c :: rest) → Lexer.isWordPart c = true ∧ c.isDigit = false ∧ c ≠ '=' := by
    intro hword
    have hstart := hword.isWordStart_head
    have hpart : Lexer.isWordPart c = true := isWordPart_iff.mpr (.inl hstart)
    exact ⟨hpart, isDigit_of_isWordStart hstart, hequals c hpart⟩
  generalize hcs : c :: rest = lexeme at h
  -- words and numbers go on with letters or digits; of all other lexemes the first sign is known
  cases h with
  | keyword hmem hcase =>
    obtain ⟨hpart, hdigit, hne⟩ := hword (hcs ▸ Lexer.isWord_of_recases hmem hcase)
    simp [hpart, hdigit, hne]
  | name hname =>
    obtain ⟨hpart, hdigit, hne⟩ := hword (hcs ▸ hname.isWord)
    simp [hpart, hdigit, hne]
  | number hdigits =>
    rw [← hcs] at hdigits
    have hdigit : c.isDigit = true := hdigits.isDigit c List.mem_cons_self
    have hpart : Lexer.isWordPart c = true := isWordPart_iff.mpr (.inr hdigit)
    simp [hpart, hdigit, hequals c hpart]
  | text hquote =>
    obtain ⟨rfl, -⟩ := List.cons.inj hcs
    rcases hquote with rfl | rfl <;> simp <;> decide
  | operator op => cases op <;> obtain ⟨rfl, -⟩ := List.cons.inj hcs <;> decide
  | mark hmark =>
    obtain ⟨rfl, -⟩ := List.cons.inj hcs
    unfold marks at hmark
    fin_cases hmark <;> decide

/-- A token stops in front of a lexeme exactly if it does not run together with its token. -/
theorem stops_iff_not_merges (h : Lexeme next (c :: rest)) :
    Stops token (c :: after) ↔ ¬Merges token next := by
  obtain ⟨hword, hdigit, hequals⟩ := head_of_lexeme h
  obtain ⟨kind, symbol⟩ := token
  constructor
  · intro hstops hmerges
    cases hmerges with
    | words hfirst hnext =>
      have hpart := hword.mpr hnext
      have hnot : Lexer.isWordPart c = false := by
        rcases hfirst with hkind | hkind <;> cases hkind <;> exact hstops c rfl
      rw [hnot] at hpart
      cases hpart
    | numbers hfirst hnext =>
      have hnot : c.isDigit = false := by
        cases hfirst
        exact hstops c rfl
      rw [hdigit.mpr hnext] at hnot
      cases hnot
    | operators hfirst hsymbol hnext =>
      cases hfirst
      exact hstops hsymbol (congrArg some (hequals.mpr hnext))
  · intro hnot
    unfold Stops
    -- what may not follow a token of this kind would be the start of one that it runs together with
    cases kind with
    | keyword | identifier =>
      rintro d ⟨⟩
      rw [Bool.eq_false_iff]
      intro hpart
      exact hnot (.words (by simp) (hword.mp hpart))
    | number =>
      rintro d ⟨⟩
      rw [Bool.eq_false_iff]
      intro hpart
      exact hnot (.numbers rfl (hdigit.mp hpart))
    | operator =>
      intro hsymbol hhead
      exact hnot (.operators rfl hsymbol (hequals.mp (Option.some.inj hhead)))
    | _ => trivial

/-- A token stops in front of lexemes and blanks exactly if a blank comes first where it would run
together with what follows. -/
theorem stops_iff_gap (h : Spelled after tokens) :
    Stops token after ↔
      ∀ next ∈ tokens.head?, Merges token next → ∃ c ∈ after.head?, Text.isBlank c = true := by
  cases h with
  | done hblanks =>
    have hstops : Stops token after :=
      stops_of_blank fun c hc => hblanks c (List.mem_of_mem_head? hc)
    exact ⟨fun _ => nofun, fun _ => hstops⟩
  | @token blanks lexeme rest next tokens hblanks hlexeme hstops hafter =>
    -- a blank in front of the next lexeme is enough; without one the lexeme itself is what follows
    cases blanks with
    | nil =>
      obtain ⟨c, lexeme, rfl, hc⟩ := Lexer.exists_cons_of_lexeme hlexeme
      show Stops token (c :: (lexeme ++ rest)) ↔ _
      rw [stops_iff_not_merges hlexeme]
      constructor
      · rintro hnot _ ⟨⟩ hmerges
        exact absurd hmerges hnot
      · intro hgap hmerges
        obtain ⟨d, hd, hblank⟩ := hgap next rfl hmerges
        obtain rfl : c = d := Option.some.inj hd
        rw [hc] at hblank
        cases hblank
    | cons b blanks =>
      have hb : Text.isBlank b = true := hblanks b List.mem_cons_self
      have hstops : Stops token (b :: blanks ++ (lexeme ++ rest)) := by
        refine stops_of_blank ?_
        rintro c ⟨⟩
        exact hb
      exact ⟨fun _ _ _ _ => ⟨b, rfl, hb⟩, fun _ => hstops⟩

/-! ## From spellings to lexemes -/

/-- A lexeme is a way to write its token without zeros in front of a number. -/
theorem spelling_of_lexeme (h : Lexeme token lexeme) : Spelling token.shortest lexeme := by
  cases h with
  | keyword hword hcase => exact .keyword hcase
  | name hname =>
    have hspelling := Spelling.identifier (String.ofList lexeme)
    rw [String.toList_ofList] at hspelling
    exact hspelling
  | @number _ value hdigits =>
    -- digits are the shortest ones of their value with zeros in front
    obtain ⟨zeros, hzeros⟩ := hdigits.exists_zeros
    have hspelling := Spelling.number zeros (toString value)
    rw [Nat.toString_eq_ofList_toDigits, String.toList_ofList, ← hzeros] at hspelling
    rw [shortest_number hdigits, Nat.toString_eq_ofList_toDigits]
    exact hspelling
  | @text quote body hquote hbody =>
    have hnot : quote ∉ (String.ofList body).toList := by rwa [String.toList_ofList]
    have hspelling := Spelling.text hquote hnot
    rw [String.toList_ofList] at hspelling
    exact hspelling
  | operator op => exact .operator op.symbol
  | mark hmark =>
    have hspelling := Spelling.mark hmark
    unfold marks at hmark
    fin_cases hmark <;> exact hspelling

/-- Each way to write a plain token is a lexeme, of the token with zeros in front if it is a number. -/
theorem exists_lexeme_of_spelling (h : Spelling token lexeme) (hplain : token.IsPlain) :
    ∃ found, Lexeme found lexeme ∧ found.shortest = token := by
  cases h with
  | keyword hcase =>
    exact ⟨_, .keyword (mem_keywords_of_spellable hplain.spellable) hcase, rfl⟩
  | identifier name =>
    have hlexeme := Lexeme.name (spellable_identifier_iff.mp hplain.spellable)
    rw [String.ofList_toList] at hlexeme
    exact ⟨_, hlexeme, rfl⟩
  | number zeros digits =>
    obtain ⟨other, hother⟩ := hplain.spellable
    obtain ⟨value, hdigits, hle⟩ := digits_of_lexeme hother rfl
    -- a plain number is written with the shortest digits
    have hshort : toString value = digits := by
      have hshortest := hplain.shortest_eq
      rw [← String.ofList_toList (s := digits), shortest_number hdigits] at hshortest
      have htext := congrArg Token.text hshortest
      rwa [String.ofList_toList] at htext
    have hlist : digits.toList = Nat.toDigits 10 value := by
      rw [← hshort, Nat.toString_eq_ofList_toDigits, String.toList_ofList]
    rw [hlist]
    have hzeros := Decimal.digits_zeros zeros value
    refine ⟨_, .number hzeros hle, ?_⟩
    rw [shortest_number hzeros, hshort]
  | @text s quote hquote hbody =>
    have hlexeme := Lexeme.text hquote hbody
    rw [String.ofList_toList] at hlexeme
    exact ⟨_, hlexeme, rfl⟩
  | operator symbol =>
    obtain ⟨op, rfl⟩ := exists_comparison_of_spellable hplain.spellable
    exact ⟨_, .operator op, rfl⟩
  | mark hmark => exact ⟨_, .mark hmark, hplain.shortest_eq⟩

/-! ## Texts of tokens -/

/-- Zeros in front of numbers do not keep tokens apart. -/
theorem merges_shortest_iff : Merges token.shortest next.shortest ↔ Merges token next := by
  have hoperator : token.kind = .operator → token.shortest = token := by
    intro hkind
    refine shortest_of_kind_ne ?_
    rw [hkind]
    exact nofun
  constructor
  · intro h
    cases h with
    | words hfirst hnext =>
      rw [kind_shortest] at hfirst hnext
      exact .words hfirst hnext
    | numbers hfirst hnext =>
      rw [kind_shortest] at hfirst hnext
      exact .numbers hfirst hnext
    | operators hfirst hsymbol hnext =>
      rw [kind_shortest] at hfirst
      rw [hoperator hfirst] at hsymbol
      exact .operators hfirst hsymbol (eq_of_shortest_eq hnext nofun)
  · intro h
    cases h with
    | words hfirst hnext =>
      rw [← kind_shortest] at hfirst hnext
      exact .words hfirst hnext
    | numbers hfirst hnext =>
      rw [← kind_shortest] at hfirst hnext
      exact .numbers hfirst hnext
    | operators hfirst hsymbol hnext =>
      rw [hoperator hfirst, hnext]
      exact .operators hfirst hsymbol rfl

/-- The texts of plain tokens are those that fall into lexemes of them, up to zeros in front of
numbers. -/
theorem written_iff (hplain : ∀ token ∈ tokens, token.IsPlain) :
    Written tokens text ↔ ∃ found, Spelled text found ∧ found.map Token.shortest = tokens := by
  constructor
  · intro h
    -- on the tokens; what follows a token is spelled already, so it shows whether a gap is wanted
    induction h with
    | done hblanks => exact ⟨[], .done hblanks, rfl⟩
    | @token blanks lexeme after token tokens hblanks hspelling hgap _ ih =>
      obtain ⟨htoken, hothers⟩ := List.forall_mem_cons.mp hplain
      obtain ⟨found, hlexeme, rfl⟩ := exists_lexeme_of_spelling hspelling htoken
      obtain ⟨others, hspelled, rfl⟩ := ih hothers
      have hstops : Stops found after := by
        refine (stops_iff_gap hspelled).mpr fun next hnext hmerges => ?_
        refine hgap next.shortest ?_ (merges_shortest_iff.mpr hmerges)
        rw [List.head?_map]
        exact Option.mem_map_of_mem Token.shortest hnext
      exact ⟨found :: others, .token hblanks hlexeme hstops hspelled, rfl⟩
  · rintro ⟨found, hspelled, rfl⟩
    -- any lexemes will do here, so the induction must not speak of plain tokens
    clear hplain
    induction hspelled with
    | done hblanks => exact .done hblanks
    | @token blanks lexeme after token found hblanks hlexeme hstops hafter ih =>
      rw [List.map_cons]
      refine .token hblanks (spelling_of_lexeme hlexeme) ?_ ih
      intro next hnext hmerges
      rw [List.head?_map] at hnext
      obtain ⟨other, hother, rfl⟩ := Option.mem_map.mp hnext
      exact (stops_iff_gap hafter).mp hstops other hother (merges_shortest_iff.mp hmerges)

/-! ## Texts of statements -/

theorem isPlain_semicolon : Token.IsPlain ⟨.semicolon, ";"⟩ :=
  isPlain_mark (c := ';') (by decide)

/-- Tokens that can be spelled are a sentence exactly for a statement that can be written and has
these tokens, with or without a semicolon. -/
theorem sentence_iff {statement : Statement} (h : ∀ token ∈ tokens, Spellable token) :
    Sentence tokens statement ↔ statement.IsWritable ∧
      (tokens.map Token.shortest = statement.tokens ∨
        tokens.map Token.shortest = statement.tokens ++ [⟨.semicolon, ";"⟩]) := by
  constructor
  · intro hsentence
    cases hsentence with
    | bare hderives =>
      obtain ⟨hgood, htokens⟩ := (prints_statement.derives_iff h).mp hderives
      exact ⟨hgood, .inl htokens⟩
    | @ended mark phrase _ hderives =>
      obtain ⟨hphrase, hsemicolon⟩ := List.forall_mem_append.mp h
      obtain ⟨hgood, htokens⟩ := (prints_statement.derives_iff hphrase).mp hderives
      have hmark : mark = String.singleton ';' :=
        text_of_spellable (by decide) (hsemicolon _ List.mem_cons_self)
      refine ⟨hgood, .inr ?_⟩
      rw [List.map_append, htokens, hmark]
      rfl
  · rintro ⟨hgood, htokens | htokens⟩
    · exact .bare ((prints_statement.derives_iff h).mpr ⟨hgood, htokens⟩)
    · obtain ⟨phrase, last, rfl, hphrase, hlast⟩ := List.map_eq_append_iff.mp htokens
      obtain rfl := (map_shortest_iff (by simp)).mp hlast
      obtain ⟨hspellable, -⟩ := List.forall_mem_append.mp h
      exact .ended ";" ((prints_statement.derives_iff hspellable).mpr ⟨hgood, hphrase⟩)

/-- The texts of a statement are those that spell a sentence for it, if it can be written. -/
theorem Statement.writes_iff {statement : Statement} (hgood : statement.IsWritable)
    {text : String} :
    statement.Writes text ↔
      ∃ found, Spelled text.toList found ∧
        (found.map Token.shortest = statement.tokens ∨
          found.map Token.shortest = statement.tokens ++ [⟨.semicolon, ";"⟩]) := by
  have hplain := prints_statement.isPlain hgood
  have hended : ∀ token ∈ statement.tokens ++ [⟨.semicolon, ";"⟩], token.IsPlain := by
    refine List.forall_mem_append.mpr ⟨hplain, fun token htoken => ?_⟩
    obtain rfl := List.mem_singleton.mp htoken
    exact isPlain_semicolon
  constructor
  · intro h
    cases h with
    | bare hwritten =>
      obtain ⟨found, hspelled, htokens⟩ := (written_iff hplain).mp hwritten
      exact ⟨found, hspelled, .inl htokens⟩
    | ended hwritten =>
      obtain ⟨found, hspelled, htokens⟩ := (written_iff hended).mp hwritten
      exact ⟨found, hspelled, .inr htokens⟩
  · rintro ⟨found, hspelled, htokens | htokens⟩
    · exact .bare ((written_iff hplain).mpr ⟨found, hspelled, htokens⟩)
    · exact .ended ((written_iff hended).mpr ⟨found, hspelled, htokens⟩)

/-- A text is read as a statement exactly if the statement can be written and the text is one of its
texts, and a statement that can be written has a text. -/
theorem Statement.ofText_iff_writes (statement : Statement) :
    (∀ text, ofText text = .ok statement ↔ statement.IsWritable ∧ statement.Writes text) ∧
    (statement.IsWritable → ∃ text, statement.Writes text) := by
  have hread : ∀ text, ofText text = .ok statement ↔
      statement.IsWritable ∧ statement.Writes text := by
    intro text
    rw [ofText_ok_iff]
    constructor
    · rintro ⟨found, hspelled, hsentence⟩
      obtain ⟨hgood, htokens⟩ := (sentence_iff (spellable_of_spelled hspelled)).mp hsentence
      exact ⟨hgood, (writes_iff hgood).mpr ⟨found, hspelled, htokens⟩⟩
    · rintro ⟨hgood, hwrites⟩
      obtain ⟨found, hspelled, htokens⟩ := (writes_iff hgood).mp hwrites
      exact ⟨found, hspelled, (sentence_iff (spellable_of_spelled hspelled)).mpr ⟨hgood, htokens⟩⟩
  refine ⟨hread, fun hgood => ?_⟩
  -- a blank behind each token keeps all of them apart
  have hspellable : ∀ token ∈ statement.tokens, Spellable token :=
    fun token htoken => (prints_statement.isPlain hgood token htoken).spellable
  have hline := ofText_line hspellable (.bare (prints_statement.derives_tokens hgood))
  exact ⟨_, ((hread _).mp hline).2⟩

example : Statement.ofText "update t SET a=007where b<='x';" =
    .ok (.update "t" [⟨"a", .integer 7⟩] (.test "b" .atMost (.text "x"))) := by
  cbv

end TableStore.Sql
