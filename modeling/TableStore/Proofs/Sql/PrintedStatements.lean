import TableStore.Proofs.Sql.Printing

/-!
# The tokens of statements

Every notion of the grammar prints what can be written of it, from names and literals up to whole
statements. So the grammar gives to a statement that can be written the tokens that were given for it,
up to zeros in front of numbers, and gives none to a statement that cannot be written.

* `Sql.denotes_iff` — literals; `Sql.prints_refers` — names with and without a dot.
* `Sql.prints_restricts`, `Sql.prints_joins` and others — the parts of statements.
* `Sql.prints_statement` — statements.
-/

namespace TableStore.Sql

/-! ## Names and literals -/

theorem named_iff {phrase : List Token} {name : String} :
    Named phrase name ↔ phrase = [⟨.identifier, name⟩] := by
  constructor
  · intro h
    cases h
    rfl
  · rintro rfl
    exact .name name

theorem prints_named :
    Prints Named (fun name => IsName name.toList) fun name => [⟨.identifier, name⟩] where
  derives_iff := by
    intro phrase name hphrase
    rw [map_shortest_iff (by simp), named_iff]
    constructor
    · rintro rfl
      have hspellable := hphrase ⟨.identifier, name⟩ List.mem_cons_self
      exact ⟨spellable_identifier_iff.mp hspellable, rfl⟩
    · rintro ⟨-, hphrase⟩
      exact hphrase
  isPlain := by
    intro name hname token htoken
    obtain rfl := List.mem_singleton.mp htoken
    exact isPlain_identifier hname

theorem prints_names : Prints (Listed Named) (IsList fun name => IsName name.toList) names :=
  prints_listed prints_named

/-- A number that can be spelled stands for an integer exactly if, written as short as can be, it is
what is written for the integer. -/
theorem denotes_number_iff {numeral : String} (hspellable : Spellable ⟨.number, numeral⟩)
    {n : Int64} :
    Denotes ⟨.number, numeral⟩ (.integer n) ↔
      0 ≤ n.toInt ∧ Token.shortest ⟨.number, numeral⟩ = ⟨.number, Decimal.write n⟩ := by
  obtain ⟨lexeme, hlexeme⟩ := hspellable
  obtain ⟨value, hdigits, -⟩ := digits_of_lexeme hlexeme rfl
  have hshortest : Token.shortest ⟨.number, numeral⟩ = ⟨.number, toString value⟩ := by
    rw [← hdigits.value_eq]
    rfl
  rw [hshortest]
  constructor
  · intro hdenotes
    cases hdenotes with
    | number hnumeral =>
      have hvalue := hdigits.toInt_eq hnumeral
      have hnonneg : 0 ≤ n.toInt := hvalue ▸ Int.natCast_nonneg value
      refine ⟨hnonneg, ?_⟩
      rw [Decimal.write_eq_toString hnonneg, hvalue, Int.toNat_natCast]
  · rintro ⟨hnonneg, hwrite⟩
    rw [Decimal.write_eq_toString hnonneg] at hwrite
    -- numbers that are written alike are the same
    have hlist : Nat.toDigits 10 value = Nat.toDigits 10 n.toInt.toNat := by
      rw [← String.ofList_inj, ← Nat.toString_eq_ofList_toDigits,
        ← Nat.toString_eq_ofList_toDigits]
      exact congrArg Token.text hwrite
    have hsame : value = n.toInt.toNat :=
      calc
        value = Nat.ofDigitChars 10 (Nat.toDigits 10 value) 0 := Nat.ofDigitChars_ten_toDigits.symm
        _ = Nat.ofDigitChars 10 (Nat.toDigits 10 n.toInt.toNat) 0 := by rw [hlist]
        _ = n.toInt.toNat := Nat.ofDigitChars_ten_toDigits
    refine .number (.plain hdigits ?_)
    rw [hsame, Int.toNat_of_nonneg hnonneg]

theorem spellable_text {s : String} (h : '\'' ∉ s.toList ∨ '"' ∉ s.toList) :
    Spellable ⟨.text, s⟩ := by
  have hlexeme := Lexeme.text (quoteOf_eq s) (quoteOf_not_mem h)
  rw [String.ofList_toList] at hlexeme
  exact ⟨_, hlexeme⟩

/-- A token that can be spelled stands for a value exactly if it is the literal of the value, but for
zeros in front of a number. -/
theorem denotes_iff {token : Token} {value : Value} (hspellable : Spellable token) :
    Denotes token value ↔ IsLiteral value ∧ token.shortest = literal value := by
  constructor
  · intro hdenotes
    cases hdenotes with
    | text s =>
      obtain ⟨lexeme, hlexeme⟩ := hspellable
      exact ⟨exists_quote_of_lexeme hlexeme rfl, rfl⟩
    | number hnumeral => exact (denotes_number_iff hspellable).mp (.number hnumeral)
    | yes => exact ⟨trivial, rfl⟩
    | no => exact ⟨trivial, rfl⟩
  · rintro ⟨hgood, htoken⟩
    -- only a number is not told by its literal, since it may have had zeros in front
    cases value with
    | integer n =>
      obtain ⟨kind, numeral⟩ := token
      have hkind := kind_shortest ⟨kind, numeral⟩
      rw [htoken] at hkind
      obtain rfl : kind = .number := hkind.symm
      exact (denotes_number_iff hspellable).mpr ⟨hgood, htoken⟩
    | text s =>
      rw [eq_of_shortest_eq htoken nofun]
      exact .text s
    | boolean b =>
      cases b with
      | true =>
        rw [eq_of_shortest_eq htoken nofun]
        exact .yes
      | false =>
        rw [eq_of_shortest_eq htoken nofun]
        exact .no

theorem isPlain_literal {value : Value} (h : IsLiteral value) : (literal value).IsPlain := by
  cases value with
  | integer n =>
    have hspellable : Spellable ⟨.number, Decimal.write n⟩ := ⟨_, lexeme_write h⟩
    have hdenotes : Denotes ⟨.number, Decimal.write n⟩ (.integer n) :=
      .number (.plain (Decimal.digits_write h) (Int.toNat_of_nonneg h).symm)
    exact ⟨hspellable, ((denotes_number_iff hspellable).mp hdenotes).2⟩
  | text s => exact ⟨spellable_text h, rfl⟩
  | boolean b =>
    cases b with
    | true => exact isPlain_keyword (by decide)
    | false => exact isPlain_keyword (by decide)

theorem prints_literal : Prints Literal IsLiteral fun value => [literal value] where
  derives_iff := by
    intro phrase value hphrase
    constructor
    · intro hliteral
      cases hliteral with
      | @token token _ hdenotes =>
        have hspellable := hphrase token List.mem_cons_self
        obtain ⟨hgood, hshortest⟩ := (denotes_iff hspellable).mp hdenotes
        exact ⟨hgood, congrArg ([·]) hshortest⟩
    · rintro ⟨hgood, hmap⟩
      obtain ⟨token, rfl, hshortest⟩ := List.map_eq_singleton_iff.mp hmap
      have hspellable := hphrase token List.mem_cons_self
      exact .token ((denotes_iff hspellable).mpr ⟨hgood, hshortest⟩)
  isPlain := by
    intro value hgood token htoken
    obtain rfl := List.mem_singleton.mp htoken
    exact isPlain_literal hgood

theorem prints_tuples : Prints (Listed (Enclosed (Listed Literal))) (IsList (IsList IsLiteral))
    (commas tuple) :=
  prints_listed (prints_enclosed (prints_listed prints_literal))

/-! ## Parts of statements -/

theorem kind_ne_of_mem_tokens {declaration : Declaration} :
    ∀ token ∈ declaration.tokens, token.kind ≠ .number := by
  unfold Declaration.tokens
  split <;> simp

theorem prints_declares :
    Prints Declares (fun declaration => IsName declaration.field.name.toList)
      Declaration.tokens where
  derives_iff := by
    intro phrase declaration hphrase
    -- no declaration has a number in it
    rw [map_shortest_iff kind_ne_of_mem_tokens]
    constructor
    · intro hdeclares
      have hname : Spellable ⟨.identifier, declaration.field.name⟩ := by
        cases hdeclares <;> exact hphrase _ List.mem_cons_self
      refine ⟨spellable_identifier_iff.mp hname, ?_⟩
      cases hdeclares <;> rfl
    · rintro ⟨-, rfl⟩
      exact declares_tokens declaration
  isPlain := by
    intro declaration hname token htoken
    have hspellable := spellable_tokens (spellable_identifier_iff.mpr hname) token htoken
    exact ⟨hspellable, shortest_of_kind_ne (kind_ne_of_mem_tokens token htoken)⟩

theorem prints_restricts : Prints Restricts IsCondition restriction where
  derives_iff := by
    intro phrase condition hphrase
    constructor
    · intro hrestricts
      cases hrestricts with
      | always => exact ⟨trivial, rfl⟩
      | @test column op token value hliteral =>
        have hcolumn : Spellable ⟨.identifier, column⟩ := hphrase _ (by simp)
        have htoken : Spellable token := hphrase _ (by simp)
        obtain ⟨hgood, hshortest⟩ := (denotes_iff htoken).mp hliteral
        refine ⟨⟨spellable_identifier_iff.mp hcolumn, hgood⟩, ?_⟩
        show [_, _, _, token.shortest] = _
        rw [hshortest]
        rfl
    · rintro ⟨hgood, hmap⟩
      cases condition with
      | always =>
        obtain rfl := List.map_eq_nil_iff.mp hmap
        exact .always
      | test column op value =>
        -- all but the literal stays as it is
        have hmap : phrase.map Token.shortest =
            [⟨.keyword, "WHERE"⟩, ⟨.identifier, column⟩, ⟨.operator, op.symbol⟩] ++
              [literal value] := hmap
        obtain ⟨others, rfl, hothers⟩ := (map_shortest_append_iff (by simp)).mp hmap
        obtain ⟨token, rfl, hshortest⟩ := List.map_eq_singleton_iff.mp hothers
        have htoken : Spellable token := hphrase _ (by simp)
        exact .test column op ((denotes_iff htoken).mpr ⟨hgood.2, hshortest⟩)
  isPlain := by
    intro condition hgood token htoken
    cases condition with
    | always => cases htoken
    | test column op value =>
      unfold restriction at htoken
      simp only [List.mem_cons, List.not_mem_nil, or_false] at htoken
      rcases htoken with rfl | rfl | rfl | rfl
      · exact isPlain_keyword (by decide)
      · exact isPlain_identifier hgood.1
      · exact isPlain_operator op
      · exact isPlain_literal hgood.2

/-- No name has a dot in it. -/
theorem dot_not_mem_of_isName {cs : List Char} (h : IsName cs) : '.' ∉ cs := by
  have hdot : Lexer.isWordPart '.' = false := by decide
  intro hmem
  have hpart : Lexer.isWordPart '.' = true := by
    cases h.isWord with
    | word hstart hrest =>
      rcases List.mem_cons.mp hmem with heq | hmem
      · rw [heq]
        exact isWordPart_iff.mpr (.inl hstart)
      · exact hrest '.' hmem
  rw [hdot] at hpart
  cases hpart

theorem reference_of_isName {name : String} (h : IsName name.toList) :
    reference name = [⟨.identifier, name⟩] := by
  have hcut : name.toList.dropWhile (· ≠ '.') = [] := by
    rw [List.dropWhile_eq_nil_iff]
    intro c hc
    have hne : c ≠ '.' := fun heq => dot_not_mem_of_isName h (heq ▸ hc)
    simpa using hne
  unfold reference
  rw [hcut]

theorem reference_of_dotted {table column : String} (h : IsName table.toList) :
    reference (table ++ "." ++ column) =
      [⟨.identifier, table⟩, ⟨.dot, "."⟩, ⟨.identifier, column⟩] := by
  have hlist : (table ++ "." ++ column).toList = table.toList ++ '.' :: column.toList := by
    simp [String.toList_append]
  -- the first dot is the one behind the table's name
  have hcut : (table ++ "." ++ column).toList.takeWhile (· ≠ '.') = table.toList ∧
      (table ++ "." ++ column).toList.dropWhile (· ≠ '.') = '.' :: column.toList := by
    refine takeWhile_dropWhile_iff.mpr ⟨hlist, fun c hc => ?_, fun c hc => ?_⟩
    · have hne : c ≠ '.' := fun heq => dot_not_mem_of_isName h (heq ▸ hc)
      simpa using hne
    · obtain rfl : '.' = c := by simpa using hc
      simp
  unfold reference
  rw [hcut.1, hcut.2]
  dsimp only
  rw [String.ofList_toList, String.ofList_toList]

theorem prints_refers : Prints Refers IsReference reference where
  derives_iff := by
    intro phrase name hphrase
    constructor
    · intro hrefers
      cases hrefers with
      | column =>
        have hname := spellable_identifier_iff.mp (hphrase ⟨.identifier, name⟩ (by simp))
        rw [reference_of_isName hname]
        exact ⟨.column hname, rfl⟩
      | ofTable table column dot =>
        have htable := spellable_identifier_iff.mp (hphrase ⟨.identifier, table⟩ (by simp))
        have hcolumn := spellable_identifier_iff.mp (hphrase ⟨.identifier, column⟩ (by simp))
        have hdot : dot = String.singleton '.' :=
          text_of_spellable (by decide) (hphrase ⟨.dot, dot⟩ (by simp))
        rw [reference_of_dotted htable, hdot]
        exact ⟨.ofTable htable hcolumn, rfl⟩
    · rintro ⟨hgood, hmap⟩
      cases hgood with
      | column hname =>
        rw [reference_of_isName hname, map_shortest_iff (by simp)] at hmap
        rw [hmap]
        exact .column name
      | @ofTable table column htable hcolumn =>
        rw [reference_of_dotted htable, map_shortest_iff (by simp)] at hmap
        rw [hmap]
        exact .ofTable table column "."
  isPlain := by
    intro name hgood token htoken
    cases hgood with
    | column hname =>
      rw [reference_of_isName hname] at htoken
      obtain rfl := List.mem_singleton.mp htoken
      exact isPlain_identifier hname
    | ofTable htable hcolumn =>
      rw [reference_of_dotted htable] at htoken
      simp only [List.mem_cons, List.not_mem_nil, or_false] at htoken
      rcases htoken with rfl | rfl | rfl
      · exact isPlain_identifier htable
      · exact isPlain_mark (c := '.') (by decide)
      · exact isPlain_identifier hcolumn

theorem assigns_iff {phrase : List Token} {assignment : Assignment} :
    Assigns phrase assignment ↔
      Pair Named (Behind [⟨.operator, "="⟩] Literal) phrase
        (assignment.column, assignment.value) := by
  rw [pair_iff]
  constructor
  · intro h
    cases h with
    | equals column hvalue => exact ⟨_, _, rfl, .name column, Behind.head (Literal.token hvalue)⟩
  · rintro ⟨part, rest, rfl, hname, hbehind⟩
    obtain ⟨column, value⟩ := assignment
    obtain rfl := named_iff.mp hname
    obtain ⟨part, rfl, hliteral⟩ := behind_iff.mp hbehind
    cases hliteral with
    | token hdenotes => exact .equals column hdenotes

theorem prints_assigns :
    Prints Assigns
      (fun assignment => IsName assignment.column.toList ∧ IsLiteral assignment.value)
      assigned where
  derives_iff := by
    intro phrase assignment hphrase
    have hpair := prints_pair prints_named (prints_behind_equals prints_literal)
    exact assigns_iff.trans (hpair.derives_iff hphrase)
  isPlain := by
    intro assignment hgood
    have hpair := prints_pair prints_named (prints_behind_equals prints_literal)
    exact hpair.isPlain (x := (assignment.column, assignment.value)) hgood

/-- The reserved words, names and references that join a second table. -/
theorem prints_joined :
    Prints
      (Behind (["INNER", "JOIN"].map (⟨.keyword, ·⟩))
        (Pair Named (Behind (["ON"].map (⟨.keyword, ·⟩))
          (Pair Refers (Behind [⟨.operator, "="⟩] Refers)))))
      (fun join => IsName join.1.toList ∧ IsReference join.2.1 ∧ IsReference join.2.2)
      fun join => second (some ⟨join.1, join.2.1, join.2.2⟩) :=
  prints_behind_words (by decide) <|
    prints_pair prints_named <|
      prints_behind_words (by decide) <|
        prints_pair prints_refers (prints_behind_equals prints_refers)

theorem joins_some_iff {phrase : List Token} {join : Join} :
    Joins phrase (some join) ↔
      Behind (["INNER", "JOIN"].map (⟨.keyword, ·⟩))
        (Pair Named (Behind (["ON"].map (⟨.keyword, ·⟩))
          (Pair Refers (Behind [⟨.operator, "="⟩] Refers))))
        phrase (join.table, join.left, join.right) := by
  simp only [behind_iff, pair_iff, named_iff]
  constructor
  · intro h
    cases h with
    | inner table hleft hright =>
      exact ⟨_, rfl, _, _, rfl, rfl, _, rfl, _, _, rfl, hleft, _, rfl, hright⟩
  · rintro ⟨_, rfl, _, _, rfl, rfl, _, rfl, left, _, rfl, hleft, right, rfl, hright⟩
    exact .inner join.table hleft hright

theorem prints_joins :
    Prints Joins (fun join => ∀ table ∈ join, table.IsWritable) second where
  derives_iff := by
    intro phrase join hphrase
    cases join with
    | none =>
      rw [show second none = [] from rfl, List.map_eq_nil_iff]
      constructor
      · intro h
        cases h
        exact ⟨nofun, rfl⟩
      · rintro ⟨-, rfl⟩
        exact .none
    | some join =>
      rw [joins_some_iff, prints_joined.derives_iff hphrase]
      refine and_congr_left fun _ => ⟨?_, fun hgood => ?_⟩
      · rintro ⟨htable, hleft, hright⟩ _ ⟨⟩
        exact ⟨htable, hleft, hright⟩
      · obtain ⟨htable, hleft, hright⟩ := hgood join rfl
        exact ⟨htable, hleft, hright⟩
  isPlain := by
    intro join hgood token htoken
    cases join with
    | none => cases htoken
    | some join =>
      obtain ⟨htable, hleft, hright⟩ := hgood join rfl
      exact prints_joined.isPlain (x := (join.table, join.left, join.right))
        ⟨htable, hleft, hright⟩ token htoken

theorem prints_projects : Prints Projects IsProjection selected where
  derives_iff := by
    intro phrase projection hphrase
    cases projection with
    | all =>
      rw [show selected .all = [⟨.asterisk, "*"⟩] from rfl, map_shortest_iff (by simp)]
      constructor
      · intro h
        cases h with
        | all mark =>
          have hmark : mark = String.singleton '*' :=
            text_of_spellable (by decide) (hphrase _ List.mem_cons_self)
          rw [hmark]
          exact ⟨trivial, rfl⟩
      · rintro ⟨-, rfl⟩
        exact .all "*"
    | columns columns =>
      have hnames := prints_names.derives_iff (x := columns) hphrase
      constructor
      · intro h
        cases h with
        | columns hlisted => exact hnames.mp hlisted
      · intro h
        exact .columns (hnames.mpr h)
  isPlain := by
    intro projection hgood token htoken
    cases projection with
    | all =>
      obtain rfl := List.mem_singleton.mp htoken
      exact isPlain_mark (c := '*') (by decide)
    | columns columns => exact prints_names.isPlain hgood token htoken

theorem prints_targets :
    Prints Targets (fun columns => ∀ names ∈ columns, IsList (fun name => IsName name.toList) names)
      targets where
  derives_iff := by
    intro phrase columns hphrase
    cases columns with
    | none =>
      rw [show targets none = [] from rfl, List.map_eq_nil_iff]
      constructor
      · intro h
        cases h
        exact ⟨nofun, rfl⟩
      · rintro ⟨-, rfl⟩
        exact .none
    | some columns =>
      have hnames := (prints_enclosed prints_names).derives_iff (x := columns) hphrase
      constructor
      · intro h
        cases h with
        | columns henclosed =>
          obtain ⟨hgood, htokens⟩ := hnames.mp henclosed
          refine ⟨?_, htokens⟩
          rintro _ ⟨⟩
          exact hgood
      · rintro ⟨hgood, htokens⟩
        exact .columns (hnames.mpr ⟨hgood columns rfl, htokens⟩)
  isPlain := by
    intro columns hgood token htoken
    cases columns with
    | none => cases htoken
    | some columns =>
      exact (prints_enclosed prints_names).isPlain (hgood columns rfl) token htoken

/-! ## Statements -/

theorem prints_createTable :
    Prints
      (Behind (["CREATE", "TABLE"].map (⟨.keyword, ·⟩)) (Pair Named (Enclosed (Listed Declares))))
      (fun parts => (Statement.createTable parts.1 parts.2).IsWritable)
      fun parts => (Statement.createTable parts.1 parts.2).tokens :=
  prints_behind_words (by decide) <|
    prints_pair prints_named (prints_enclosed (prints_listed prints_declares))

theorem prints_dropTable :
    Prints (Behind (["DROP", "TABLE"].map (⟨.keyword, ·⟩)) Named)
      (fun table => (Statement.dropTable table).IsWritable)
      fun table => (Statement.dropTable table).tokens :=
  prints_behind_words (by decide) prints_named

theorem prints_insert :
    Prints
      (Behind (["INSERT", "INTO"].map (⟨.keyword, ·⟩))
        (Pair Named (Pair Targets (Behind (["VALUES"].map (⟨.keyword, ·⟩))
          (Listed (Enclosed (Listed Literal)))))))
      (fun parts => (Statement.insert parts.1 parts.2.1 parts.2.2).IsWritable)
      fun parts => (Statement.insert parts.1 parts.2.1 parts.2.2).tokens :=
  prints_behind_words (by decide) <|
    prints_pair prints_named <|
      prints_pair prints_targets (prints_behind_words (by decide) prints_tuples)

theorem prints_select :
    Prints
      (Behind (["SELECT"].map (⟨.keyword, ·⟩))
        (Pair Projects (Behind (["FROM"].map (⟨.keyword, ·⟩))
          (Pair Named (Pair Joins Restricts)))))
      (fun parts =>
        (Statement.select parts.1 parts.2.1 parts.2.2.1 parts.2.2.2).IsWritable)
      fun parts => (Statement.select parts.1 parts.2.1 parts.2.2.1 parts.2.2.2).tokens :=
  prints_behind_words (by decide) <|
    prints_pair prints_projects <|
      prints_behind_words (by decide) <|
        prints_pair prints_named (prints_pair prints_joins prints_restricts)

theorem prints_update :
    Prints
      (Behind (["UPDATE"].map (⟨.keyword, ·⟩))
        (Pair Named (Behind (["SET"].map (⟨.keyword, ·⟩))
          (Pair (Listed Assigns) Restricts))))
      (fun parts => (Statement.update parts.1 parts.2.1 parts.2.2).IsWritable)
      fun parts => (Statement.update parts.1 parts.2.1 parts.2.2).tokens :=
  prints_behind_words (by decide) <|
    prints_pair prints_named <|
      prints_behind_words (by decide) <|
        prints_pair (prints_listed prints_assigns) prints_restricts

theorem prints_delete :
    Prints (Behind (["DELETE", "FROM"].map (⟨.keyword, ·⟩)) (Pair Named Restricts))
      (fun parts => (Statement.delete parts.1 parts.2).IsWritable)
      fun parts => (Statement.delete parts.1 parts.2).tokens :=
  prints_behind_words (by decide) (prints_pair prints_named prints_restricts)

/-- Among the tokens that can be spelled, a statement has those given above, up to zeros in front of
numbers, and it has any only if it can be written. -/
theorem prints_statement : Prints Derives Statement.IsWritable Statement.tokens where
  derives_iff := by
    intro phrase statement hphrase
    -- each form of a statement is the sequence of its parts, with the words that stand between them
    cases statement with
    | createTable table declarations =>
      refine Iff.trans ?_ (prints_createTable.derives_iff (x := (table, declarations)) hphrase)
      simp only [behind_iff, pair_iff, named_iff]
      constructor
      · intro h
        cases h with
        | createTable _ hcolumns => exact ⟨_, rfl, _, _, rfl, rfl, hcolumns⟩
      · rintro ⟨_, rfl, _, _, rfl, rfl, hcolumns⟩
        exact .createTable table hcolumns
    | dropTable table =>
      refine Iff.trans ?_ (prints_dropTable.derives_iff (x := table) hphrase)
      simp only [behind_iff, named_iff]
      constructor
      · intro h
        cases h
        exact ⟨_, rfl, rfl⟩
      · rintro ⟨_, rfl, rfl⟩
        exact .dropTable table
    | insert table columns tuples =>
      refine Iff.trans ?_ (prints_insert.derives_iff (x := (table, columns, tuples)) hphrase)
      simp only [behind_iff, pair_iff, named_iff]
      constructor
      · intro h
        cases h with
        | insert _ hnames hrows => exact ⟨_, rfl, _, _, rfl, rfl, _, _, rfl, hnames, _, rfl, hrows⟩
      · rintro ⟨_, rfl, _, _, rfl, rfl, _, _, rfl, hnames, _, rfl, hrows⟩
        exact .insert table hnames hrows
    | select projection table join condition =>
      refine Iff.trans ?_
        (prints_select.derives_iff (x := (projection, table, join, condition)) hphrase)
      simp only [behind_iff, pair_iff, named_iff]
      constructor
      · intro h
        cases h with
        | select _ hcolumns hsecond hrestriction =>
          exact ⟨_, rfl, _, _, rfl, hcolumns, _, rfl, _, _, rfl, rfl, _, _, rfl, hsecond,
            hrestriction⟩
      · rintro ⟨_, rfl, _, _, rfl, hcolumns, _, rfl, _, _, rfl, rfl, _, _, rfl, hsecond,
          hrestriction⟩
        exact (Derives.select table hcolumns hsecond hrestriction :)
    | update table assignments condition =>
      refine Iff.trans ?_
        (prints_update.derives_iff (x := (table, assignments, condition)) hphrase)
      simp only [behind_iff, pair_iff, named_iff]
      constructor
      · intro h
        cases h with
        | update _ hchanges hrestriction =>
          exact ⟨_, rfl, _, _, rfl, rfl, _, rfl, _, _, rfl, hchanges, hrestriction⟩
      · rintro ⟨_, rfl, _, _, rfl, rfl, _, rfl, _, _, rfl, hchanges, hrestriction⟩
        exact (Derives.update table hchanges hrestriction :)
    | delete table condition =>
      refine Iff.trans ?_ (prints_delete.derives_iff (x := (table, condition)) hphrase)
      simp only [behind_iff, pair_iff, named_iff]
      constructor
      · intro h
        cases h with
        | delete _ hrestriction => exact ⟨_, rfl, _, _, rfl, rfl, hrestriction⟩
      · rintro ⟨_, rfl, _, _, rfl, rfl, hrestriction⟩
        exact .delete table hrestriction
  isPlain := by
    intro statement hgood
    cases statement with
    | createTable table declarations =>
      exact prints_createTable.isPlain (x := (table, declarations)) hgood
    | dropTable table => exact prints_dropTable.isPlain (x := table) hgood
    | insert table columns tuples =>
      exact prints_insert.isPlain (x := (table, columns, tuples)) hgood
    | select projection table join condition =>
      exact prints_select.isPlain (x := (projection, table, join, condition)) hgood
    | update table assignments condition =>
      exact prints_update.isPlain (x := (table, assignments, condition)) hgood
    | delete table condition => exact prints_delete.isPlain (x := (table, condition)) hgood

end TableStore.Sql
