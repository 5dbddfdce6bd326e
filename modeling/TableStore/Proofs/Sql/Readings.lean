import TableStore.Proofs.Sql.Derivations
import TableStore.Sql.Grammar

/-!
# The rules read the grammar

Each rule reads just the tokens that the grammar gives to its notion. A rule that looks ahead does so
only where what follows cannot go on with its notion, so this holds for the tokens that may follow.

* `Sql.Reads` — a rule reads a notion of the grammar where certain tokens follow.
* `Sql.Rule.reads_commaSeparated`, `Sql.Rule.run_parenthesised_iff` — lists, for items of any kind.
* `Sql.Rule.reads_declaration`, `Sql.Rule.reads_join` and others — the parts of statements.
-/

namespace TableStore.Sql

/-! ## Reading -/

/-- The next token is none that a place admits. -/
def NotAt (place : Terminal) (rest : List Token) : Prop :=
  rest.head?.any place.admits = false

/-- Where what follows is as given, a rule reads just the tokens that stand for what it yields. -/
def Reads {α : Type} (rule : Rule α) (derives : List Token → α → Prop)
    (follows : List Token → Prop) : Prop :=
  ∀ {tokens rest : List Token} {x : α}, follows rest →
    (rule.run tokens = .ok x rest ↔ ∃ phrase, tokens = phrase ++ rest ∧ derives phrase x)

namespace Rule

variable {α β : Type} {tokens rest : List Token}

theorem run_bind_iff {rule : Rule α} {next : α → Rule β} {y : β} :
    (rule >>= next).run tokens = .ok y rest ↔
      ∃ x middle, rule.run tokens = .ok x middle ∧ (next x).run middle = .ok y rest := by
  show EStateM.bind rule next tokens = _ ↔ _
  unfold EStateM.bind
  constructor
  · intro h
    cases hrule : rule tokens with
    | ok x middle =>
      rw [hrule] at h
      exact ⟨x, middle, hrule, h⟩
    | error cause middle =>
      rw [hrule] at h
      cases h
  · rintro ⟨x, middle, hrule, hnext⟩
    rw [show rule tokens = .ok x middle from hrule]
    exact hnext

theorem run_pure_iff {x y : α} :
    (pure x : Rule α).run tokens = .ok y rest ↔ x = y ∧ tokens = rest := by
  show EStateM.Result.ok x tokens = .ok y rest ↔ _
  simp

theorem run_discard_iff {rule : Rule α} {u : PUnit} :
    (discard rule).run tokens = .ok u rest ↔ ∃ x, rule.run tokens = .ok x rest := by
  show EStateM.map (fun _ => PUnit.unit) rule tokens = _ ↔ _
  unfold EStateM.map
  constructor
  · intro h
    cases hrule : rule tokens with
    | ok x middle =>
      rw [hrule] at h
      cases h
      exact ⟨x, hrule⟩
    | error cause middle =>
      rw [hrule] at h
      cases h
  · rintro ⟨x, hrule⟩
    rw [show rule tokens = .ok x rest from hrule]

/-- A rule that looks at the next token goes on as the token says. -/
theorem run_looksAt (place : Terminal) (yes no : Rule α) (tokens : List Token) :
    (do if ← looksAt place then yes else no : Rule α).run tokens =
      if tokens.head?.any place.admits then yes.run tokens else no.run tokens := by
  show (if tokens.head?.any place.admits then yes else no) tokens = _
  split <;> rfl

/-! ## Single tokens -/

theorem run_expect_iff {place : Terminal} {token : Token} :
    (expect place).run tokens = .ok token rest ↔
      tokens = token :: rest ∧ place.admits token = true := by
  cases tokens with
  | nil =>
    constructor
    · intro h
      cases h
    · rintro ⟨h, -⟩
      cases h
  | cons first others =>
    have hrun : (expect place).run (first :: others) =
        if place.admits first then .ok first others
        else .error (.expected place (some first)) (first :: others) := by
      show (if place.admits first then _ else _ : Rule Token) (first :: others) = _
      split <;> rfl
    rw [hrun]
    cases hadmits : place.admits first with
    | true =>
      simp only [↓reduceIte, EStateM.Result.ok.injEq, List.cons.injEq]
      constructor
      · rintro ⟨rfl, rfl⟩
        exact ⟨⟨rfl, rfl⟩, hadmits⟩
      · rintro ⟨h, -⟩
        exact h
    | false =>
      simp only [Bool.false_eq_true, ↓reduceIte, reduceCtorEq, List.cons.injEq, false_iff]
      rintro ⟨⟨rfl, -⟩, h⟩
      rw [hadmits] at h
      cases h

theorem run_take_iff {token : Token} :
    take.run tokens = .ok token rest ↔ tokens = token :: rest := by
  cases tokens with
  | nil =>
    constructor
    · intro h
      cases h
    · intro h
      cases h
  | cons first others =>
    show EStateM.Result.ok first others = .ok token rest ↔ _
    simp

theorem run_word_iff {keyword : String} {u : Unit} :
    (word keyword).run tokens = .ok u rest ↔ tokens = ⟨.keyword, keyword⟩ :: rest := by
  unfold word
  rw [run_discard_iff]
  constructor
  · rintro ⟨token, h⟩
    obtain ⟨rfl, hadmits⟩ := run_expect_iff.mp h
    obtain rfl : token = ⟨.keyword, keyword⟩ := eq_of_beq hadmits
    rfl
  · rintro rfl
    exact ⟨_, run_expect_iff.mpr ⟨rfl, beq_self_eq_true _⟩⟩

theorem run_mark_iff {kind : Token.Kind} {u : Unit} :
    (mark kind).run tokens = .ok u rest ↔ ∃ text, tokens = ⟨kind, text⟩ :: rest := by
  unfold mark
  rw [run_discard_iff]
  constructor
  · rintro ⟨⟨kind', text⟩, h⟩
    obtain ⟨rfl, hadmits⟩ := run_expect_iff.mp h
    obtain rfl : kind' = kind := eq_of_beq hadmits
    exact ⟨text, rfl⟩
  · rintro ⟨text, rfl⟩
    exact ⟨_, run_expect_iff.mpr ⟨rfl, beq_self_eq_true kind⟩⟩

theorem run_equals_iff {u : PUnit} :
    (discard (expect .equals) : Rule PUnit).run tokens = .ok u rest ↔
      tokens = ⟨.operator, "="⟩ :: rest := by
  rw [run_discard_iff]
  constructor
  · rintro ⟨token, h⟩
    obtain ⟨rfl, hadmits⟩ := run_expect_iff.mp h
    obtain rfl : token = ⟨.operator, "="⟩ := eq_of_beq hadmits
    rfl
  · rintro rfl
    exact ⟨_, run_expect_iff.mpr ⟨rfl, rfl⟩⟩

theorem run_identifier_iff {name : String} :
    identifier.run tokens = .ok name rest ↔ tokens = ⟨.identifier, name⟩ :: rest := by
  unfold identifier
  rw [run_bind_iff]
  constructor
  · rintro ⟨⟨kind, text⟩, middle, h, hpure⟩
    obtain ⟨rfl, hadmits⟩ := run_expect_iff.mp h
    obtain rfl : kind = .identifier := eq_of_beq hadmits
    obtain ⟨rfl, rfl⟩ := run_pure_iff.mp hpure
    rfl
  · rintro rfl
    exact ⟨_, rest, run_expect_iff.mpr ⟨rfl, rfl⟩, rfl⟩

theorem run_columnType_iff {type : ValueType} :
    columnType.run tokens = .ok type rest ↔ tokens = ⟨.keyword, type.keyword⟩ :: rest := by
  unfold columnType
  rw [run_bind_iff]
  constructor
  · rintro ⟨⟨kind, text⟩, middle, h, hnext⟩
    obtain ⟨rfl, hadmits⟩ := run_expect_iff.mp h
    obtain rfl : kind = .keyword := eq_of_beq hadmits
    cases hfind : ValueType.ofKeyword? text with
    | none =>
      simp only [hfind] at hnext
      cases hnext
    | some found =>
      simp only [hfind] at hnext
      obtain ⟨rfl, rfl⟩ := run_pure_iff.mp hnext
      have htext := List.find?_some hfind
      rw [eq_of_beq htext]
  · rintro rfl
    refine ⟨_, rest, run_expect_iff.mpr ⟨rfl, rfl⟩, ?_⟩
    cases type <;> rfl

theorem run_comparison_iff {op : Comparison} :
    comparison.run tokens = .ok op rest ↔ tokens = ⟨.operator, op.symbol⟩ :: rest := by
  unfold comparison
  rw [run_bind_iff]
  constructor
  · rintro ⟨⟨kind, text⟩, middle, h, hnext⟩
    obtain ⟨rfl, hadmits⟩ := run_expect_iff.mp h
    obtain rfl : kind = .operator := eq_of_beq hadmits
    cases hfind : Comparison.ofSymbol? text with
    | none =>
      simp only [hfind] at hnext
      cases hnext
    | some found =>
      simp only [hfind] at hnext
      obtain ⟨rfl, rfl⟩ := run_pure_iff.mp hnext
      have htext := List.find?_some hfind
      rw [eq_of_beq htext]
  · rintro rfl
    refine ⟨_, rest, run_expect_iff.mpr ⟨rfl, rfl⟩, ?_⟩
    cases op <;> rfl

theorem run_literal_iff {value : Value} :
    literal.run tokens = .ok value rest ↔
      ∃ token, tokens = token :: rest ∧ Denotes token value := by
  unfold literal
  rw [run_bind_iff]
  constructor
  · rintro ⟨⟨kind, text⟩, middle, htake, hnext⟩
    obtain rfl := run_take_iff.mp htake
    cases kind with
    | text =>
      cases hnext
      exact ⟨_, rfl, .text text⟩
    | number =>
      cases hread : Decimal.read text.toList with
      | error fault =>
        simp only [hread] at hnext
        cases hnext
      | ok n =>
        simp only [hread] at hnext
        cases hnext
        exact ⟨_, rfl, .number (Decimal.read_ok_iff.mp hread)⟩
    | keyword =>
      by_cases hyes : text = "TRUE"
      · subst hyes
        cases hnext
        exact ⟨_, rfl, .yes⟩
      · by_cases hno : text = "FALSE"
        · subst hno
          cases hnext
          exact ⟨_, rfl, .no⟩
        · simp only [hyes, hno, ↓reduceIte] at hnext
          cases hnext
    | _ => cases hnext
  · rintro ⟨token, rfl, hdenotes⟩
    refine ⟨token, rest, run_take_iff.mpr rfl, ?_⟩
    cases hdenotes with
    | text | yes | no => rfl
    | number hnumeral =>
      simp only [Decimal.read_ok_iff.mpr hnumeral]
      rfl

/-! ## Lists -/

section

variable {item : Rule α} {derives : List Token → α → Prop} {follows : List Token → Prop}

theorem run_afterCommas_of_notAt (hnot : NotAt (.anyOf .comma) tokens) (bound : Nat) :
    (afterCommas item bound).run tokens = .ok [] tokens := by
  cases bound with
  | zero => rfl
  | succ bound =>
    unfold afterCommas
    rw [run_looksAt, show tokens.head?.any (Terminal.anyOf .comma).admits = false from hnot]
    rfl

/-- In front of more items stands a comma, or what follows the list. -/
theorem follows_of_run_afterCommas (hcomma : ∀ mark rest, follows (⟨.comma, mark⟩ :: rest))
    (hfollows : follows rest) {bound : Nat} {xs : List α}
    (h : (afterCommas item bound).run tokens = .ok xs rest) : follows tokens := by
  cases hhead : tokens.head?.any (Terminal.anyOf .comma).admits with
  | true =>
    cases tokens with
    | nil => cases hhead
    | cons token others =>
      obtain ⟨kind, mark⟩ := token
      obtain rfl : kind = .comma := by simpa [Terminal.admits] using hhead
      exact hcomma mark others
  | false =>
    rw [run_afterCommas_of_notAt hhead bound] at h
    cases h
    exact hfollows

/-- Items with a comma in front of each are read as far as there are commas. -/
theorem run_afterCommas_iff (h : Reads item derives follows)
    (hcomma : ∀ mark rest, follows (⟨.comma, mark⟩ :: rest)) (hfollows : follows rest)
    (hend : NotAt (.anyOf .comma) rest) {bound : Nat} (hbound : tokens.length ≤ bound)
    {xs : List α} :
    (afterCommas item bound).run tokens = .ok xs rest ↔
      ∃ phrase, tokens = phrase ++ rest ∧ MoreItems derives phrase xs := by
  -- every comma takes a token, so the bound does not end the loop before the tokens do
  induction bound generalizing tokens xs with
  | zero =>
    obtain rfl : tokens = [] := List.length_eq_zero_iff.mp (by omega)
    constructor
    · intro hrun
      cases hrun
      exact ⟨[], rfl, .none⟩
    · rintro ⟨phrase, hphrase, hmore⟩
      obtain ⟨rfl, rfl⟩ := List.append_eq_nil_iff.mp hphrase.symm
      cases hmore
      rfl
  | succ bound ih =>
    unfold afterCommas
    rw [run_looksAt]
    cases hcommas : tokens.head?.any (Terminal.anyOf .comma).admits with
    | false =>
      simp only [Bool.false_eq_true, ↓reduceIte, run_pure_iff]
      constructor
      · rintro ⟨rfl, rfl⟩
        exact ⟨[], rfl, .none⟩
      · rintro ⟨phrase, rfl, hmore⟩
        cases hmore with
        | none => exact ⟨rfl, rfl⟩
        | more mark => cases hcommas
    | true =>
      simp only [↓reduceIte, run_bind_iff, run_discard_iff, run_take_iff, run_pure_iff]
      constructor
      · rintro ⟨-, middle, ⟨⟨kind, mark⟩, rfl⟩, x, middle', hitem, xs', middle'', hrest, rfl, rfl⟩
        obtain rfl : kind = .comma := by simpa [Terminal.admits] using hcommas
        -- the items behind tell what follows this one
        have hfollows' := follows_of_run_afterCommas hcomma hfollows hrest
        obtain ⟨phrase, rfl, hphrase⟩ := (h hfollows').mp hitem
        have hshort : middle'.length ≤ bound := by
          simp only [List.length_cons, List.length_append] at hbound
          omega
        obtain ⟨others, rfl, hmore⟩ := (ih hshort).mp hrest
        exact ⟨_, by simp, .more mark hphrase hmore⟩
      · rintro ⟨phrase, rfl, hmore⟩
        cases hmore with
        | none =>
          rw [List.nil_append, show rest.head?.any _ = false from hend] at hcommas
          cases hcommas
        | @more mark phrase others x xs hitem hrest =>
          have hfollows' : follows (others ++ rest) := by
            cases hrest with
            | none => exact hfollows
            | more mark => exact hcomma mark _
          have hshort : (others ++ rest).length ≤ bound := by
            simp only [List.length_cons, List.length_append] at hbound ⊢
            omega
          refine ⟨(), phrase ++ (others ++ rest), ⟨⟨.comma, mark⟩, by simp⟩, x, others ++ rest,
            (h hfollows').mpr ⟨phrase, rfl, hitem⟩, xs, rest,
            (ih hshort).mpr ⟨others, rfl, hrest⟩, rfl, rfl⟩

theorem reads_commaSeparated (h : Reads item derives follows)
    (hcomma : ∀ mark rest, follows (⟨.comma, mark⟩ :: rest)) :
    Reads (commaSeparated item) (Listed derives)
      fun rest => follows rest ∧ NotAt (.anyOf .comma) rest := by
  intro tokens rest xs ⟨hfollows, hend⟩
  unfold commaSeparated
  simp only [run_bind_iff, run_pure_iff]
  constructor
  · rintro ⟨x, middle, hitem, seen, middle', hget, xs', last, hrest, rfl, rfl⟩
    cases hget
    have hfollows' := follows_of_run_afterCommas hcomma hfollows hrest
    obtain ⟨phrase, rfl, hphrase⟩ := (h hfollows').mp hitem
    obtain ⟨others, rfl, hmore⟩ :=
      (run_afterCommas_iff h hcomma hfollows hend (Nat.le_refl _)).mp hrest
    exact ⟨phrase ++ others, by simp, .items hphrase hmore⟩
  · rintro ⟨phrase, rfl, hlisted⟩
    cases hlisted with
    | @items phrase others x xs hitem hrest =>
      have hfollows' : follows (others ++ rest) := by
        cases hrest with
        | none => exact hfollows
        | more mark => exact hcomma mark _
      refine ⟨x, others ++ rest, (h hfollows').mpr ⟨phrase, by simp, hitem⟩, others ++ rest,
        others ++ rest, rfl, xs, rest, ?_, rfl, rfl⟩
      exact (run_afterCommas_iff h hcomma hfollows hend (Nat.le_refl _)).mpr ⟨others, rfl, hrest⟩

theorem run_parenthesised_iff (h : Reads item derives follows)
    (hclose : ∀ mark rest, follows (⟨.rightParen, mark⟩ :: rest)) {x : α} :
    (parenthesised item).run tokens = .ok x rest ↔
      ∃ phrase, tokens = phrase ++ rest ∧ Enclosed derives phrase x := by
  unfold parenthesised
  simp only [run_bind_iff, run_pure_iff, run_mark_iff]
  constructor
  · rintro ⟨-, middle, ⟨opening, rfl⟩, x, middle', hitem, -, middle'', ⟨closing, rfl⟩, rfl, rfl⟩
    obtain ⟨phrase, rfl, hphrase⟩ := (h (hclose closing _)).mp hitem
    exact ⟨_, by simp, .item opening closing hphrase⟩
  · rintro ⟨phrase, rfl, henclosed⟩
    cases henclosed with
    | @item opening closing phrase x hitem =>
      refine ⟨(), phrase ++ ⟨.rightParen, closing⟩ :: rest, ⟨opening, by simp⟩, x,
        ⟨.rightParen, closing⟩ :: rest, (h (hclose closing rest)).mpr ⟨phrase, rfl, hitem⟩, (), rest,
        ⟨closing, rfl⟩, rfl, rfl⟩

end

/-! ## Parts of statements -/

theorem reads_identifier : Reads identifier Named fun _ => True := by
  intro tokens rest name _
  rw [run_identifier_iff]
  constructor
  · rintro rfl
    exact ⟨_, rfl, .name name⟩
  · rintro ⟨phrase, rfl, hnamed⟩
    cases hnamed
    rfl

theorem reads_literal : Reads literal Literal fun _ => True := by
  intro tokens rest value _
  rw [run_literal_iff]
  constructor
  · rintro ⟨token, rfl, hdenotes⟩
    exact ⟨[token], rfl, .token hdenotes⟩
  · rintro ⟨phrase, rfl, hliteral⟩
    cases hliteral with
    | token hdenotes => exact ⟨_, rfl, hdenotes⟩

theorem reads_names : Reads (commaSeparated identifier) (Listed Named)
    fun rest => True ∧ NotAt (.anyOf .comma) rest :=
  reads_commaSeparated reads_identifier fun _ _ => trivial

theorem reads_tuple : Reads (parenthesised (commaSeparated literal)) (Enclosed (Listed Literal))
    fun _ => True := by
  intro tokens rest tuple _
  exact run_parenthesised_iff (reads_commaSeparated reads_literal fun _ _ => trivial)
    fun _ _ => ⟨trivial, rfl⟩

theorem reads_tuples : Reads (commaSeparated (parenthesised (commaSeparated literal)))
    (Listed (Enclosed (Listed Literal))) fun rest => True ∧ NotAt (.anyOf .comma) rest :=
  reads_commaSeparated reads_tuple fun _ _ => trivial

theorem reads_declaration : Reads declaration Declares (NotAt (.word "PRIMARY")) := by
  intro tokens rest found hfollows
  unfold declaration
  simp only [run_bind_iff, run_identifier_iff, run_columnType_iff, run_looksAt]
  constructor
  · rintro ⟨name, middle, rfl, type, middle', rfl, h⟩
    split at h
    · simp only [run_bind_iff, run_discard_iff, run_take_iff, run_word_iff, run_pure_iff] at h
      obtain ⟨-, next, ⟨token, rfl⟩, -, last, rfl, rfl, rfl⟩ := h
      rename_i hprimary
      obtain rfl : token = ⟨.keyword, "PRIMARY"⟩ := eq_of_beq hprimary
      exact ⟨_, rfl, .key name type⟩
    · obtain ⟨rfl, rfl⟩ := run_pure_iff.mp h
      exact ⟨_, rfl, .plain name type⟩
  · rintro ⟨phrase, rfl, hdeclares⟩
    cases hdeclares with
    | plain name type =>
      refine ⟨name, _, rfl, type, rest, rfl, ?_⟩
      exact (if_neg (Bool.eq_false_iff.mp hfollows)).trans rfl
    | key name type => exact ⟨name, _, rfl, type, _, rfl, rfl⟩

theorem reads_reference : Reads reference Refers (NotAt (.anyOf .dot)) := by
  intro tokens rest found hfollows
  unfold reference
  simp only [run_bind_iff, run_identifier_iff, run_looksAt]
  constructor
  · rintro ⟨table, middle, rfl, h⟩
    split at h
    · simp only [run_bind_iff, run_discard_iff, run_take_iff, run_identifier_iff, run_pure_iff] at h
      obtain ⟨-, next, ⟨⟨kind, dot⟩, rfl⟩, column, last, rfl, rfl, rfl⟩ := h
      rename_i hdot
      obtain rfl : kind = .dot := eq_of_beq hdot
      exact ⟨_, rfl, .ofTable table column dot⟩
    · obtain ⟨rfl, rfl⟩ := run_pure_iff.mp h
      exact ⟨_, rfl, .column table⟩
  · rintro ⟨phrase, rfl, hrefers⟩
    cases hrefers with
    | column =>
      refine ⟨found, rest, rfl, ?_⟩
      exact (if_neg (Bool.eq_false_iff.mp hfollows)).trans rfl
    | ofTable table column dot => exact ⟨table, _, rfl, rfl⟩

theorem reads_condition : Reads condition Restricts (NotAt (.word "WHERE")) := by
  intro tokens rest found hfollows
  unfold condition
  rw [run_looksAt]
  constructor
  · intro h
    split at h
    · simp only [run_bind_iff, run_discard_iff, run_take_iff, run_identifier_iff,
        run_comparison_iff, run_literal_iff, run_pure_iff] at h
      obtain ⟨-, next, ⟨token, rfl⟩, column, middle, rfl, op, middle', rfl, literal, last,
        ⟨value, rfl, hdenotes⟩, rfl, rfl⟩ := h
      rename_i hwhere
      obtain rfl : token = ⟨.keyword, "WHERE"⟩ := eq_of_beq hwhere
      exact ⟨_, rfl, .test column op hdenotes⟩
    · obtain ⟨rfl, rfl⟩ := run_pure_iff.mp h
      exact ⟨[], rfl, .always⟩
  · rintro ⟨phrase, rfl, hrestricts⟩
    cases hrestricts with
    | always => exact (if_neg (Bool.eq_false_iff.mp hfollows)).trans rfl
    | test column op hliteral =>
      refine (if_pos rfl).trans ?_
      simp only [run_bind_iff, run_discard_iff, run_take_iff, run_identifier_iff,
        run_comparison_iff, run_literal_iff, run_pure_iff]
      exact ⟨(), _, ⟨_, rfl⟩, column, _, rfl, op, _, rfl, _, _, ⟨_, rfl, hliteral⟩, rfl, rfl⟩

theorem reads_join : Reads join Joins
    fun rest => NotAt (.word "INNER") rest ∧ NotAt (.anyOf .dot) rest := by
  intro tokens rest found ⟨hinner, hdot⟩
  -- the first reference ends before the equals sign
  have hequals : ∀ right, NotAt (.anyOf .dot) (⟨.operator, "="⟩ :: right) := fun _ => rfl
  unfold join
  rw [run_looksAt]
  constructor
  · intro h
    split at h
    · simp only [run_bind_iff, run_discard_iff, run_take_iff, run_word_iff, run_identifier_iff,
        run_pure_iff] at h
      obtain ⟨-, m₁, ⟨token, rfl⟩, -, m₂, rfl, table, m₃, rfl, -, m₄, rfl, column, m₅, hleft, -, m₆,
        ⟨sign, hexpect⟩, column', m₇, hright, rfl, rfl⟩ := h
      rename_i hjoin
      obtain rfl : token = ⟨.keyword, "INNER"⟩ := eq_of_beq hjoin
      obtain ⟨rfl, hadmits⟩ := run_expect_iff.mp hexpect
      obtain rfl : sign = ⟨.operator, "="⟩ := eq_of_beq hadmits
      obtain ⟨left, rfl, hrefers⟩ := (reads_reference (hequals _)).mp hleft
      obtain ⟨right, rfl, hrefers'⟩ := (reads_reference hdot).mp hright
      exact ⟨_, by simp, .inner table hrefers hrefers'⟩
    · obtain ⟨rfl, rfl⟩ := run_pure_iff.mp h
      exact ⟨[], rfl, .none⟩
  · rintro ⟨phrase, rfl, hjoins⟩
    cases hjoins with
    | none => exact (if_neg (Bool.eq_false_iff.mp hinner)).trans rfl
    | @inner table left right column column' hleft hright =>
      refine (if_pos rfl).trans ?_
      simp only [run_bind_iff, run_discard_iff, run_take_iff, run_word_iff, run_identifier_iff,
        run_pure_iff]
      refine ⟨(), _, ⟨_, rfl⟩, (), _, rfl, table, _, rfl, (), _, rfl, column,
        ⟨.operator, "="⟩ :: (right ++ rest), (reads_reference (hequals _)).mpr ⟨left, by simp, hleft⟩, (),
        right ++ rest, ⟨_, run_expect_iff.mpr ⟨rfl, rfl⟩⟩, column', rest,
        (reads_reference hdot).mpr ⟨right, rfl, hright⟩, rfl, rfl⟩

theorem reads_projection : Reads projection Projects (NotAt (.anyOf .comma)) := by
  intro tokens rest found hfollows
  unfold projection
  rw [run_looksAt]
  constructor
  · intro h
    split at h
    · simp only [run_bind_iff, run_discard_iff, run_take_iff, run_pure_iff] at h
      obtain ⟨-, middle, ⟨⟨kind, mark⟩, rfl⟩, rfl, rfl⟩ := h
      rename_i hall
      obtain rfl : kind = .asterisk := eq_of_beq hall
      exact ⟨_, rfl, .all mark⟩
    · simp only [run_bind_iff, run_pure_iff] at h
      obtain ⟨names, middle, hnames, rfl, rfl⟩ := h
      obtain ⟨phrase, rfl, hlisted⟩ := (reads_names ⟨trivial, hfollows⟩).mp hnames
      exact ⟨phrase, rfl, .columns hlisted⟩
  · rintro ⟨phrase, rfl, hprojects⟩
    cases hprojects with
    | all mark => rfl
    | @columns phrase names hnames =>
      have hread := (reads_names ⟨trivial, hfollows⟩).mpr ⟨phrase, rfl, hnames⟩
      -- a list of names starts with a name
      have hnot : ¬(phrase ++ rest).head?.any (Terminal.anyOf .asterisk).admits = true := by
        cases hnames with
        | items hname =>
          cases hname
          exact Bool.false_ne_true
      rw [if_neg hnot, run_bind_iff]
      exact ⟨names, rest, hread, rfl⟩

theorem reads_insertColumns : Reads insertColumns Targets (NotAt (.anyOf .leftParen)) := by
  intro tokens rest found hfollows
  have hnames : ∀ {tokens rest : List Token} {names : List String},
      (parenthesised (commaSeparated identifier)).run tokens = .ok names rest ↔
        ∃ phrase, tokens = phrase ++ rest ∧ Enclosed (Listed Named) phrase names :=
    run_parenthesised_iff reads_names fun _ _ => ⟨trivial, rfl⟩
  unfold insertColumns
  rw [run_looksAt]
  constructor
  · intro h
    split at h
    · simp only [run_bind_iff, run_pure_iff] at h
      obtain ⟨names, middle, hread, rfl, rfl⟩ := h
      obtain ⟨phrase, rfl, henclosed⟩ := hnames.mp hread
      exact ⟨phrase, rfl, .columns henclosed⟩
    · obtain ⟨rfl, rfl⟩ := run_pure_iff.mp h
      exact ⟨[], rfl, .none⟩
  · rintro ⟨phrase, rfl, htargets⟩
    cases htargets with
    | none => exact (if_neg (Bool.eq_false_iff.mp hfollows)).trans rfl
    | @columns phrase names henclosed =>
      have hread : _ = EStateM.Result.ok names rest := hnames.mpr ⟨phrase, rfl, henclosed⟩
      -- a column list starts with a parenthesis
      have hparen : (phrase ++ rest).head?.any (Terminal.anyOf .leftParen).admits = true := by
        cases henclosed
        rfl
      rw [if_pos hparen, run_bind_iff]
      exact ⟨names, rest, hread, rfl⟩

theorem reads_assignment : Reads assignment Assigns fun _ => True := by
  intro tokens rest found _
  unfold assignment
  simp only [run_bind_iff, run_identifier_iff, run_equals_iff, run_literal_iff, run_pure_iff]
  constructor
  · rintro ⟨column, middle, rfl, -, middle', rfl, value, last, ⟨token, rfl, hdenotes⟩, rfl, rfl⟩
    exact ⟨_, rfl, .equals column hdenotes⟩
  · rintro ⟨phrase, rfl, hassigns⟩
    cases hassigns with
    | equals column hvalue =>
      exact ⟨column, _, rfl, (), _, rfl, _, _, ⟨_, rfl, hvalue⟩, rfl, rfl⟩

theorem reads_assignments : Reads (commaSeparated assignment) (Listed Assigns)
    fun rest => True ∧ NotAt (.anyOf .comma) rest :=
  reads_commaSeparated reads_assignment fun _ _ => trivial

end Rule

end TableStore.Sql
