import TableStore.Proofs.Sql.Readings

/-!
# The rules read statements

A statement ends where no token follows, or where a semicolon does. So each rule for a kind of
statement reads just the tokens that the grammar gives to it, and what is read as a statement is a
sentence of the grammar.

* `Sql.Closes` — what may follow a statement.
* `Sql.Rule.reads_body` — statements without the semicolon.
* `Sql.Rule.run_statement_iff` — all tokens together are read as a statement if they are a sentence.
* `Sql.Statement.ofTokens_iff_sentence` — so reading decides the grammar, which is unambiguous.
-/

namespace TableStore.Sql

/-! ## The end of a statement -/

/-- No token follows but a semicolon. -/
def Closes (rest : List Token) : Prop :=
  rest.head?.all (·.kind == .semicolon) = true

namespace Rule

variable {tokens rest : List Token} {statement : Statement}

theorem closes_iff : Closes rest ↔ rest = [] ∨ ∃ mark others, rest = ⟨.semicolon, mark⟩ :: others := by
  unfold Closes
  cases rest with
  | nil => simp
  | cons token others =>
    obtain ⟨kind, mark⟩ := token
    simp

theorem closes_nil : Closes [] :=
  rfl

theorem closes_semicolon (mark : String) : Closes [⟨.semicolon, mark⟩] :=
  rfl

theorem notAt_word_of_closes (h : Closes rest) (keyword : String) : NotAt (.word keyword) rest := by
  rcases closes_iff.mp h with rfl | ⟨mark, others, rfl⟩
  · rfl
  · rfl

theorem notAt_anyOf_of_closes (h : Closes rest) {kind : Token.Kind} (hkind : kind ≠ .semicolon) :
    NotAt (.anyOf kind) rest := by
  rcases closes_iff.mp h with rfl | ⟨mark, others, rfl⟩
  · rfl
  · show (Token.Kind.semicolon == kind) = false
    exact beq_false_of_ne hkind.symm

/-! ## The kinds of statements -/

theorem run_createTable_iff :
    createTable.run tokens = .ok statement rest ↔
      ∃ table phrase declarations, tokens = ⟨.keyword, "CREATE"⟩ :: ⟨.keyword, "TABLE"⟩ ::
          ⟨.identifier, table⟩ :: (phrase ++ rest) ∧
        Enclosed (Listed Declares) phrase declarations ∧
        statement = .createTable table declarations := by
  -- the closing parenthesis ends the columns, whatever follows
  have hcolumns : ∀ {tokens rest : List Token} {declarations : List Declaration},
      (parenthesised (commaSeparated declaration)).run tokens = .ok declarations rest ↔
        ∃ phrase, tokens = phrase ++ rest ∧ Enclosed (Listed Declares) phrase declarations :=
    run_parenthesised_iff (reads_commaSeparated reads_declaration fun _ _ => rfl)
      fun _ _ => ⟨rfl, rfl⟩
  unfold createTable
  simp only [run_bind_iff, run_word_iff, run_identifier_iff, run_pure_iff, hcolumns]
  constructor
  · rintro ⟨-, m₁, rfl, -, m₂, rfl, table, m₃, rfl, declarations, m₄, ⟨phrase, rfl, h⟩, rfl, rfl⟩
    exact ⟨table, phrase, declarations, rfl, h, rfl⟩
  · rintro ⟨table, phrase, declarations, rfl, h, rfl⟩
    exact ⟨(), _, rfl, (), _, rfl, table, _, rfl, declarations, rest, ⟨phrase, rfl, h⟩, rfl, rfl⟩

theorem run_dropTable_iff :
    dropTable.run tokens = .ok statement rest ↔
      ∃ table, tokens = ⟨.keyword, "DROP"⟩ :: ⟨.keyword, "TABLE"⟩ :: ⟨.identifier, table⟩ :: rest ∧
        statement = .dropTable table := by
  unfold dropTable
  simp only [run_bind_iff, run_word_iff, run_identifier_iff, run_pure_iff]
  constructor
  · rintro ⟨-, m₁, rfl, -, m₂, rfl, table, m₃, rfl, rfl, rfl⟩
    exact ⟨table, rfl, rfl⟩
  · rintro ⟨table, rfl, rfl⟩
    exact ⟨(), _, rfl, (), _, rfl, table, _, rfl, rfl, rfl⟩

theorem run_insert_iff (hclose : Closes rest) :
    insert.run tokens = .ok statement rest ↔
      ∃ table names rows columns tuples, tokens = ⟨.keyword, "INSERT"⟩ :: ⟨.keyword, "INTO"⟩ ::
          ⟨.identifier, table⟩ :: (names ++ ⟨.keyword, "VALUES"⟩ :: (rows ++ rest)) ∧
        Targets names columns ∧ Listed (Enclosed (Listed Literal)) rows tuples ∧
        statement = .insert table columns tuples := by
  -- the tuples end where the statement ends, and the column list before `VALUES`
  have hcomma := notAt_anyOf_of_closes hclose (show Token.Kind.comma ≠ .semicolon by decide)
  have hvalues : ∀ rows, NotAt (.anyOf .leftParen) (⟨.keyword, "VALUES"⟩ :: rows) := fun _ => rfl
  unfold insert
  simp only [run_bind_iff, run_word_iff, run_identifier_iff, run_pure_iff]
  constructor
  · rintro ⟨-, m₁, rfl, -, m₂, rfl, table, m₃, rfl, columns, m₄, hnames, -, m₅, rfl, tuples, m₆,
      hrows, rfl, rfl⟩
    obtain ⟨names, rfl, htargets⟩ := (reads_insertColumns (hvalues _)).mp hnames
    obtain ⟨rows, rfl, hlisted⟩ := (reads_tuples ⟨trivial, hcomma⟩).mp hrows
    exact ⟨table, names, rows, columns, tuples, rfl, htargets, hlisted, rfl⟩
  · rintro ⟨table, names, rows, columns, tuples, rfl, htargets, hlisted, rfl⟩
    exact ⟨(), _, rfl, (), _, rfl, table, _, rfl, columns, _,
      (reads_insertColumns (hvalues _)).mpr ⟨names, rfl, htargets⟩, (), _, rfl, tuples, rest,
      (reads_tuples ⟨trivial, hcomma⟩).mpr ⟨rows, rfl, hlisted⟩, rfl, rfl⟩

theorem run_select_iff (hclose : Closes rest) :
    select.run tokens = .ok statement rest ↔
      ∃ table columns second restriction projection joined condition,
        tokens = ⟨.keyword, "SELECT"⟩ :: (columns ++ ⟨.keyword, "FROM"⟩ :: ⟨.identifier, table⟩ ::
          (second ++ (restriction ++ rest))) ∧
        Projects columns projection ∧ Joins second joined ∧ Restricts restriction condition ∧
        statement = .select projection table joined condition := by
  have hwhere := notAt_word_of_closes hclose "WHERE"
  have hfrom : ∀ others, NotAt (.anyOf .comma) (⟨.keyword, "FROM"⟩ :: others) := fun _ => rfl
  -- behind the second table stands a condition, or nothing but the end of the statement
  have hbehind : ∀ {restriction : List Token} {condition : Predicate},
      Restricts restriction condition →
      NotAt (.word "INNER") (restriction ++ rest) ∧ NotAt (.anyOf .dot) (restriction ++ rest) := by
    intro restriction condition h
    cases h with
    | always =>
      exact ⟨notAt_word_of_closes hclose "INNER", notAt_anyOf_of_closes hclose (by decide)⟩
    | test => exact ⟨rfl, rfl⟩
  unfold select
  simp only [run_bind_iff, run_word_iff, run_identifier_iff, run_pure_iff]
  constructor
  · rintro ⟨-, m₁, rfl, projection, m₂, hcolumns, -, m₃, rfl, table, m₄, rfl, joined, m₅, hsecond,
      condition, m₆, hcondition, rfl, rfl⟩
    obtain ⟨columns, rfl, hprojects⟩ := (reads_projection (hfrom _)).mp hcolumns
    obtain ⟨restriction, rfl, hrestricts⟩ := (reads_condition hwhere).mp hcondition
    obtain ⟨second, rfl, hjoins⟩ := (reads_join (hbehind hrestricts)).mp hsecond
    exact ⟨table, columns, second, restriction, projection, joined, condition, rfl, hprojects, hjoins,
      hrestricts, rfl⟩
  · rintro ⟨table, columns, second, restriction, projection, joined, condition, rfl, hprojects,
      hjoins, hrestricts, rfl⟩
    exact ⟨(), _, rfl, projection, _, (reads_projection (hfrom _)).mpr ⟨columns, rfl, hprojects⟩, (),
      _, rfl, table, _, rfl, joined, _,
      (reads_join (hbehind hrestricts)).mpr ⟨second, rfl, hjoins⟩, condition, rest,
      (reads_condition hwhere).mpr ⟨restriction, rfl, hrestricts⟩, rfl, rfl⟩

theorem run_update_iff (hclose : Closes rest) :
    update.run tokens = .ok statement rest ↔
      ∃ table changes restriction assignments condition,
        tokens = ⟨.keyword, "UPDATE"⟩ :: ⟨.identifier, table⟩ :: ⟨.keyword, "SET"⟩ ::
          (changes ++ (restriction ++ rest)) ∧
        Listed Assigns changes assignments ∧ Restricts restriction condition ∧
        statement = .update table assignments condition := by
  have hwhere := notAt_word_of_closes hclose "WHERE"
  -- behind the assignments stands a condition, or nothing but the end of the statement
  have hcomma : ∀ {restriction : List Token} {condition : Predicate},
      Restricts restriction condition → NotAt (.anyOf .comma) (restriction ++ rest) := by
    intro restriction condition h
    cases h with
    | always => exact notAt_anyOf_of_closes hclose (by decide)
    | test => rfl
  unfold update
  simp only [run_bind_iff, run_word_iff, run_identifier_iff, run_pure_iff]
  constructor
  · rintro ⟨-, m₁, rfl, table, m₂, rfl, -, m₃, rfl, assignments, m₄, hchanges, condition, m₅,
      hcondition, rfl, rfl⟩
    obtain ⟨restriction, rfl, hrestricts⟩ := (reads_condition hwhere).mp hcondition
    obtain ⟨changes, rfl, hlisted⟩ := (reads_assignments ⟨trivial, hcomma hrestricts⟩).mp hchanges
    exact ⟨table, changes, restriction, assignments, condition, rfl, hlisted, hrestricts, rfl⟩
  · rintro ⟨table, changes, restriction, assignments, condition, rfl, hlisted, hrestricts, rfl⟩
    exact ⟨(), _, rfl, table, _, rfl, (), _, rfl, assignments, _,
      (reads_assignments ⟨trivial, hcomma hrestricts⟩).mpr ⟨changes, rfl, hlisted⟩, condition, rest,
      (reads_condition hwhere).mpr ⟨restriction, rfl, hrestricts⟩, rfl, rfl⟩

theorem run_delete_iff (hclose : Closes rest) :
    delete.run tokens = .ok statement rest ↔
      ∃ table restriction condition,
        tokens = ⟨.keyword, "DELETE"⟩ :: ⟨.keyword, "FROM"⟩ :: ⟨.identifier, table⟩ ::
          (restriction ++ rest) ∧
        Restricts restriction condition ∧ statement = .delete table condition := by
  have hwhere := notAt_word_of_closes hclose "WHERE"
  unfold delete
  simp only [run_bind_iff, run_word_iff, run_identifier_iff, run_pure_iff]
  constructor
  · rintro ⟨-, m₁, rfl, -, m₂, rfl, table, m₃, rfl, condition, m₄, hcondition, rfl, rfl⟩
    obtain ⟨restriction, rfl, hrestricts⟩ := (reads_condition hwhere).mp hcondition
    exact ⟨table, restriction, condition, rfl, hrestricts, rfl⟩
  · rintro ⟨table, restriction, condition, rfl, hrestricts, rfl⟩
    exact ⟨(), _, rfl, (), _, rfl, table, _, rfl, condition, rest,
      (reads_condition hwhere).mpr ⟨restriction, rfl, hrestricts⟩, rfl, rfl⟩

/-! ## Statements -/

/-- The first keyword tells which rule is used. -/
theorem run_body_cons (keyword : String) (others : List Token) :
    body.run (⟨.keyword, keyword⟩ :: others) =
      match ofKeyword? keyword with
      | some rule => rule.run (⟨.keyword, keyword⟩ :: others)
      | none => .error (.unexpectedKeyword keyword) (⟨.keyword, keyword⟩ :: others) := by
  show (match ofKeyword? keyword with
    | some rule => rule
    | none => throw (.unexpectedKeyword keyword) : Rule Statement) _ = _
  cases ofKeyword? keyword <;> rfl

theorem ofKeyword?_eq_some {keyword : String} {rule : Rule Statement}
    (h : ofKeyword? keyword = some rule) :
    rule = createTable ∨ rule = dropTable ∨ rule = insert ∨ rule = select ∨ rule = update ∨
      rule = delete := by
  -- the rule is one of the list of rules
  unfold ofKeyword? at h
  obtain ⟨before, after, hrules, -⟩ := List.lookup_eq_some_iff.mp h
  have hmem : (keyword, rule) ∈ before ++ (keyword, rule) :: after := by simp
  rw [← hrules] at hmem
  simp only [List.mem_cons, Prod.mk.injEq, List.not_mem_nil, or_false] at hmem
  rcases hmem with h | h | h | h | h | h <;> simp [h]

/-- The rule of a keyword reads tokens of a statement. -/
theorem exists_derives_of_run {keyword : String} {rule : Rule Statement} (hclose : Closes rest)
    (hrule : ofKeyword? keyword = some rule) (h : rule.run tokens = .ok statement rest) :
    ∃ phrase, tokens = phrase ++ rest ∧ Derives phrase statement := by
  rcases ofKeyword?_eq_some hrule with rfl | rfl | rfl | rfl | rfl | rfl
  · obtain ⟨table, phrase, declarations, heq, hcolumns, rfl⟩ := run_createTable_iff.mp h
    exact ⟨_, heq, .createTable table hcolumns⟩
  · obtain ⟨table, heq, rfl⟩ := run_dropTable_iff.mp h
    exact ⟨_, heq, .dropTable table⟩
  · obtain ⟨table, names, rows, columns, tuples, heq, hnames, hrows, rfl⟩ :=
      (run_insert_iff hclose).mp h
    exact ⟨_, by simpa using heq, .insert table hnames hrows⟩
  · obtain ⟨table, columns, second, restriction, projection, joined, condition, heq, hcolumns,
      hsecond, hrestriction, rfl⟩ := (run_select_iff hclose).mp h
    exact ⟨_, by simpa using heq, .select table hcolumns hsecond hrestriction⟩
  · obtain ⟨table, changes, restriction, assignments, condition, heq, hchanges, hrestriction,
      rfl⟩ := (run_update_iff hclose).mp h
    exact ⟨_, by simpa using heq, .update table hchanges hrestriction⟩
  · obtain ⟨table, restriction, condition, heq, hrestriction, rfl⟩ := (run_delete_iff hclose).mp h
    exact ⟨_, heq, .delete table hrestriction⟩

/-- No token but a keyword starts a statement. -/
theorem run_body_of_kind_ne {first : Token} (h : first.kind ≠ .keyword) (others : List Token) :
    body.run (first :: others) = .error (.unexpectedToken first) (first :: others) := by
  show (if first.kind = .keyword then _ else throw (.unexpectedToken first) : Rule Statement)
    (first :: others) = _
  rw [if_neg h]
  rfl

theorem reads_body : Reads body Derives Closes := by
  intro tokens rest statement hclose
  constructor
  · intro h
    cases tokens with
    | nil => cases h
    | cons first others =>
      obtain ⟨kind, keyword⟩ := first
      by_cases hkind : kind = .keyword
      · subst hkind
        rw [run_body_cons] at h
        cases hrule : ofKeyword? keyword with
        | none =>
          rw [hrule] at h
          cases h
        | some rule =>
          rw [hrule] at h
          exact exists_derives_of_run hclose hrule h
      · rw [run_body_of_kind_ne hkind] at h
        cases h
  · rintro ⟨phrase, rfl, hderives⟩
    cases hderives with
    | createTable table hcolumns =>
      exact run_createTable_iff.mpr ⟨table, _, _, rfl, hcolumns, rfl⟩
    | dropTable table => exact run_dropTable_iff.mpr ⟨table, rfl, rfl⟩
    | @insert table names rows columns tuples hnames hrows =>
      rw [List.cons_append, run_body_cons]
      show insert.run (_ :: _) = _
      exact (run_insert_iff hclose).mpr
        ⟨table, names, rows, columns, tuples, by simp, hnames, hrows, rfl⟩
    | @select table columns second restriction projection joined condition hcolumns hsecond
        hrestriction =>
      rw [List.cons_append, run_body_cons]
      show select.run (_ :: _) = _
      exact (run_select_iff hclose).mpr ⟨table, columns, second, restriction, projection, joined,
        condition, by simp, hcolumns, hsecond, hrestriction, rfl⟩
    | @update table changes restriction assignments condition hchanges hrestriction =>
      rw [List.cons_append, run_body_cons]
      show update.run (_ :: _) = _
      exact (run_update_iff hclose).mpr
        ⟨table, changes, restriction, assignments, condition, by simp, hchanges, hrestriction, rfl⟩
    | delete table hrestriction =>
      exact (run_delete_iff hclose).mpr ⟨table, _, _, rfl, hrestriction, rfl⟩

/-- Behind a statement stands nothing, or a semicolon and nothing else. -/
theorem run_statement_of_body {middle : List Token} (h : body.run tokens = .ok statement middle) :
    Rule.statement.run tokens =
      match middle with
      | [] => .ok statement []
      | ⟨.semicolon, _⟩ :: [] => .ok statement []
      | ⟨.semicolon, _⟩ :: token :: others => .error (.trailingToken token) (token :: others)
      | token :: others => .error (.trailingToken token) (token :: others) := by
  show EStateM.bind body _ tokens = _
  unfold EStateM.bind
  rw [show body tokens = .ok statement middle from h]
  cases middle with
  | nil => rfl
  | cons first others =>
    obtain ⟨kind, text⟩ := first
    cases kind with
    | semicolon => cases others <;> rfl
    | _ => rfl

/-- A statement is read if all tokens together are a sentence of the grammar. -/
theorem run_statement_iff :
    Rule.statement.run tokens = .ok statement rest ↔ rest = [] ∧ Sentence tokens statement := by
  constructor
  · intro h
    cases hbody : body.run tokens with
    | error cause left =>
      have herr : Rule.statement.run tokens = .error cause left := by
        show EStateM.bind body _ tokens = _
        unfold EStateM.bind
        rw [show body tokens = .error cause left from hbody]
      rw [herr] at h
      cases h
    | ok found middle =>
      rw [run_statement_of_body hbody] at h
      split at h
      · rename_i hbody
        cases h
        obtain ⟨phrase, rfl, hderives⟩ := (reads_body closes_nil).mp hbody
        rw [List.append_nil]
        exact ⟨rfl, .bare hderives⟩
      · rename_i mark hbody
        cases h
        obtain ⟨phrase, rfl, hderives⟩ := (reads_body (closes_semicolon mark)).mp hbody
        exact ⟨rfl, .ended mark hderives⟩
      · cases h
      · cases h
  · rintro ⟨rfl, hsentence⟩
    cases hsentence with
    | bare hderives =>
      exact run_statement_of_body ((reads_body closes_nil).mpr ⟨tokens, by simp, hderives⟩)
    | ended mark hderives =>
      exact run_statement_of_body ((reads_body (closes_semicolon mark)).mpr ⟨_, rfl, hderives⟩)

end Rule

/-- The tokens of a sentence make one statement. Nothing in the grammar says so, but whatever tokens
make a statement are read as it, and reading yields one statement at most. -/
theorem Sentence.unique {tokens : List Token} {a b : Statement} (ha : Sentence tokens a)
    (hb : Sentence tokens b) : a = b := by
  have hread : Rule.statement.run tokens = .ok a [] := Rule.run_statement_iff.mpr ⟨rfl, ha⟩
  have hread' : Rule.statement.run tokens = .ok b [] := Rule.run_statement_iff.mpr ⟨rfl, hb⟩
  rw [hread] at hread'
  cases hread'
  rfl

/-- Any tokens whatsoever, also such as no text contains, are read as a statement exactly if all of
them together are a sentence of the grammar for it, and they are a sentence for one statement at
most. -/
theorem Statement.ofTokens_iff_sentence (tokens : List Token) :
    (∀ statement rest, ofTokens tokens = .ok statement rest ↔
      rest = [] ∧ Sentence tokens statement) ∧
    (∀ a b, Sentence tokens a → Sentence tokens b → a = b) :=
  ⟨fun _ _ => Rule.run_statement_iff, fun _ _ => Sentence.unique⟩

end TableStore.Sql
