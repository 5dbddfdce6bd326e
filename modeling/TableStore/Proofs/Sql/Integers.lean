import Mathlib.Algebra.Group.Int.Defs
import Mathlib.Algebra.Group.Nat.Defs
import TableStore.Proofs.Sql.Readings
import TableStore.Proofs.Sql.Texts
import TableStore.Proofs.Text.Faults

/-!
# Integers are read twice and never differently

The lexer looks at a run of digits to see whether it is an integer and keeps its text, and the grammar
reads the text once more. The grammar takes more texts than the lexer lets through, for it takes signs
as well; for each other text it tells the first fault.

* `Sql.Lexer.next_digits`, `Sql.Lexer.tokens_digits` — digits are a token unless they are too large.
* `Sql.Rule.run_literal_number` — what the grammar makes of a number token with any text.
* `Sql.integer_literals_exact` — both limits, and that the two readings agree.
-/

namespace TableStore.Sql

open Lexer

/-! ## Runs of digits -/

namespace Lexer

variable {digits after : List Char} {value : Nat}

/-- Where a token starts with digits, it is made of all of them. -/
theorem next_digits {c : Char} {rest : List Char} (hdigits : Decimal.Digits digits value)
    (hafter : ∀ d ∈ after.head?, d.isDigit = false) (hcs : c :: rest = digits ++ after) :
    next c rest =
      if value ≤ Decimal.greatest then .ok ⟨.number, String.ofList digits⟩ after
      else .error (.integerLiteral (String.ofList digits) .tooLarge) after := by
  obtain ⟨d, more, rfl⟩ := List.exists_cons_of_ne_nil hdigits.ne_nil
  obtain ⟨rfl, -⟩ := List.cons.inj hcs
  rw [next_digit (hdigits.isDigit c List.mem_cons_self)]
  -- the run of digits is cut off before it is looked at, in both cases
  split
  · rename_i hle
    exact number_ok_iff.mpr ⟨_, value, hcs, hdigits, hle, hafter, rfl⟩
  · rename_i hlt
    obtain ⟨hrun, hrest⟩ := (takeWhile_dropWhile_iff (p := Char.isDigit)).mpr
      ⟨hcs, hdigits.isDigit, hafter⟩
    simp only [number, hrun, hrest, hdigits.read_eq_error (Nat.lt_of_not_le hlt)]

/-- Digits behind blanks are the first token of a text, or the text is refused because of them. -/
theorem tokens_digits {blanks : List Char} (hblanks : ∀ c ∈ blanks, Text.isBlank c = true)
    (hdigits : Decimal.Digits digits value) (hafter : ∀ c ∈ after.head?, c.isDigit = false) :
    tokens (blanks ++ (digits ++ after)) =
      if value ≤ Decimal.greatest then
        match tokens after with
        | .ok more last => .ok (⟨.number, String.ofList digits⟩ :: more) last
        | .error cause last => .error cause last
      else .error (.integerLiteral (String.ofList digits) .tooLarge) after := by
  obtain ⟨c, more, hmore⟩ := List.exists_cons_of_ne_nil hdigits.ne_nil
  have hdigit : c.isDigit = true := hdigits.isDigit c (by simp [hmore])
  have hblank := isBlank_of_isWordPart (isWordPart_iff.mpr (.inr hdigit))
  have hcs : c :: (more ++ after) = digits ++ after := by rw [hmore, List.cons_append]
  rw [tokens_eq, List.dropWhile_append_of_pos hblanks, ← hcs,
    List.dropWhile_cons_of_neg (by simp [hblank])]
  have hnext := next_digits hdigits hafter hcs
  by_cases hle : value ≤ Decimal.greatest
  · rw [if_pos hle] at hnext ⊢
    cases htokens : tokens after <;> simp only [hnext, htokens]
  · rw [if_neg hle] at hnext ⊢
    simp only [hnext]

end Lexer

/-! ## Number tokens -/

namespace Rule

/-- A number token is the integer that its text is read as. -/
theorem run_literal_number (text : String) (rest : List Token) :
    literal.run (⟨.number, text⟩ :: rest) =
      match Decimal.read text.toList with
      | .ok n => .ok (.integer n) rest
      | .error fault => .error (.numberToken fault) rest := by
  show (match Decimal.read text.toList with
    | .ok n => (return .integer n : Rule Value)
    | .error fault => throw (SyntaxError.numberToken fault)).run rest = _
  cases Decimal.read text.toList <;> rfl

variable {text : String} {rest : List Token}

theorem run_literal_number_ok_iff {n : Int64} :
    literal.run (⟨.number, text⟩ :: rest) = .ok (.integer n) rest ↔
      Decimal.StandsFor text.toList n.toInt := by
  rw [run_literal_number, ← Decimal.numeral_iff, ← Decimal.read_ok_iff]
  cases Decimal.read text.toList <;> simp

theorem run_literal_number_error_iff {cause : SyntaxError} {after : List Token} :
    literal.run (⟨.number, text⟩ :: rest) = .error cause after ↔
      after = rest ∧ ∃ fault, Decimal.Faulty text.toList fault ∧ cause = .numberToken fault := by
  rw [run_literal_number]
  simp only [← Decimal.read_error_iff]
  cases Decimal.read text.toList with
  | ok n => simp
  | error fault =>
    simp only [EStateM.Result.error.injEq, Except.error.injEq, exists_eq_left']
    constructor
    · rintro ⟨rfl, rfl⟩
      exact ⟨rfl, rfl⟩
    · rintro ⟨rfl, rfl⟩
      exact ⟨rfl, rfl⟩

/-- A number token that some text has is the integer that its digits make up. -/
theorem run_literal_spellable {token : Token} (h : Spellable token) (hkind : token.kind = .number) :
    ∃ (value : Nat) (n : Int64), Decimal.Digits token.text.toList value ∧ n.toInt = value ∧
      ∀ rest, literal.run (token :: rest) = .ok (.integer n) rest := by
  obtain ⟨lexeme, hlexeme⟩ := h
  -- the lexer has let the digits through, so they are read once more
  obtain ⟨value, hdigits, hle⟩ := digits_of_lexeme hlexeme hkind
  obtain ⟨n, hread⟩ := (read_digits_iff hdigits.isDigit).mpr ⟨value, hdigits, hle⟩
  refine ⟨value, n, hdigits, hdigits.toInt_eq (Decimal.read_ok_iff.mp hread), fun rest => ?_⟩
  obtain ⟨kind, text⟩ := token
  obtain rfl : kind = .number := hkind
  rw [run_literal_number, hread]

/-- The integer of a number token is any that is within the limits. -/
theorem exists_run_literal_number_iff {i : Int} :
    (∃ n : Int64, n.toInt = i ∧
      literal.run (⟨.number, text⟩ :: rest) = .ok (.integer n) rest) ↔
    Decimal.StandsFor text.toList i ∧ -2 ^ 63 ≤ i ∧ i ≤ 2 ^ 63 - 1 := by
  constructor
  · rintro ⟨n, rfl, hrun⟩
    have hle := n.le_toInt
    have hlt := n.toInt_lt
    exact ⟨run_literal_number_ok_iff.mp hrun, by omega, by omega⟩
  · rintro ⟨hstands, hle, hge⟩
    have hint : (Int64.ofInt i).toInt = i := Int64.toInt_ofInt_of_le hle (by omega)
    exact ⟨Int64.ofInt i, hint, run_literal_number_ok_iff.mpr (hint.symm ▸ hstands)⟩

end Rule

/-! ## Two readings -/

/-- Digits of any length are a token exactly if the number they make up, zeros in front included, is at
most the greatest integer; otherwise they are refused as too large. The grammar makes the same number
of every number token of a text that has tokens. Of a number token with any text it makes the integer
that the text stands for, with one sign at most and within the limits, and it refuses each other text
for its first fault from the left. -/
theorem integer_literals_exact :
    (∀ (blanks digits after : List Char) (value : Nat), (∀ c ∈ blanks, Text.isBlank c = true) →
      Decimal.Digits digits value → (∀ c ∈ after.head?, c.isDigit = false) →
      (value ≤ 2 ^ 63 - 1 → tokens (blanks ++ (digits ++ after)) =
        match tokens after with
        | .ok more last => .ok (⟨.number, String.ofList digits⟩ :: more) last
        | .error cause last => .error cause last) ∧
      (2 ^ 63 - 1 < value → ∃ cause, tokens (blanks ++ (digits ++ after)) = .error cause after ∧
        cause = .integerLiteral (String.ofList digits) .tooLarge ∧
        cause.message = "invalid integer literal " ++ String.ofList digits ++ ": " ++
          "number too large to fit in target type")) ∧
    (∀ (text : String) (found : List Token) (last : List Char),
      tokens text.toList = .ok found last → ∀ token ∈ found, token.kind = .number →
        ∃ (value : Nat) (n : Int64), Decimal.Digits token.text.toList value ∧ n.toInt = value ∧
          ∀ rest, Rule.literal.run (token :: rest) = .ok (.integer n) rest) ∧
    ∀ (text : String) (rest : List Token),
      (∀ i : Int,
        (∃ n : Int64, n.toInt = i ∧
          Rule.literal.run (⟨.number, text⟩ :: rest) = .ok (.integer n) rest) ↔
        Decimal.StandsFor text.toList i ∧ -2 ^ 63 ≤ i ∧ i ≤ 2 ^ 63 - 1) ∧
      (∀ (cause : SyntaxError) (after : List Token),
        Rule.literal.run (⟨.number, text⟩ :: rest) = .error cause after ↔
        after = rest ∧
          ∃ fault, Decimal.Faulty text.toList fault ∧ cause = .numberToken fault) ∧
      ((∃ n : Int64, Rule.literal.run (⟨.number, text⟩ :: rest) = .ok (.integer n) rest) ∨
        ∃ fault, Rule.literal.run (⟨.number, text⟩ :: rest) = .error (.numberToken fault) rest) := by
  refine ⟨fun blanks digits after value hblanks hdigits hafter => ⟨fun hle => ?_, fun hlt => ?_⟩,
    fun text found last hfound token htoken hkind => ?_,
    fun text rest => ⟨fun i => ?_, fun cause after => Rule.run_literal_number_error_iff, ?_⟩⟩
  · exact (tokens_digits hblanks hdigits hafter).trans (if_pos hle)
  · have hrefused := (tokens_digits hblanks hdigits hafter).trans (if_neg (Nat.not_le.mpr hlt))
    exact ⟨_, hrefused, rfl, rfl⟩
  · have hspelled := (tokens_ok_iff.mp hfound).2
    exact Rule.run_literal_spellable (spellable_of_spelled hspelled token htoken) hkind
  · exact Rule.exists_run_literal_number_iff
  · rw [Rule.run_literal_number]
    cases Decimal.read text.toList with
    | ok n => exact .inl ⟨n, rfl⟩
    | error fault => exact .inr ⟨fault, rfl⟩

/-- The greatest integer with a zero in front, and one more than it; and the least integer, which only
the grammar takes. -/
theorem integer_literals_exact_limits :
    tokens "09223372036854775807".toList = .ok [⟨.number, "09223372036854775807"⟩] [] ∧
    tokens "9223372036854775808".toList =
      .error (.integerLiteral "9223372036854775808" .tooLarge) [] ∧
    Rule.literal.run [⟨.number, "-9223372036854775808"⟩] = .ok (.integer Int64.minValue) [] ∧
    Rule.literal.run [⟨.number, "-9223372036854775809x"⟩] = .error (.numberToken .tooSmall) [] := by
  obtain ⟨hlexer, -, hgrammar⟩ := integer_literals_exact
  have hdigits : Decimal.Digits "09223372036854775807".toList 9223372036854775807 :=
    ⟨by decide, List.all_eq_true.mp (by decide), by decide⟩
  have hmore : Decimal.Digits "9223372036854775808".toList 9223372036854775808 :=
    ⟨by decide, List.all_eq_true.mp (by decide), by decide⟩
  -- the last digit is one too many, so the letter behind it does not matter
  have hbreaks : Decimal.Breaks Decimal.leastMagnitude .tooSmall
      ("922337203685477580".toList ++ '9' :: ['x']) .tooSmall :=
    .beyond (List.all_eq_true.mp (by decide)) (by decide) (by decide) (by decide)
  have hnone : tokens [] = .ok [] [] := tokens_ok_iff.mpr ⟨rfl, .done (by simp)⟩
  obtain ⟨hread, -⟩ := hlexer [] _ [] _ (by simp) hdigits (by simp)
  obtain ⟨-, hrefused⟩ := hlexer [] _ [] _ (by simp) hmore (by simp)
  obtain ⟨cause, herror, rfl, -⟩ := hrefused (by decide)
  obtain ⟨hok, -, -⟩ := hgrammar "-9223372036854775808" []
  obtain ⟨-, hfaulty, -⟩ := hgrammar "-9223372036854775809x" []
  obtain ⟨n, hn, hleast⟩ := (hok (-9223372036854775808)).mpr ⟨.minus hmore, by decide, by decide⟩
  obtain rfl : n = Int64.minValue := Int64.toInt_inj.mp hn
  refine ⟨?_, ?_, hleast, ?_⟩
  · have htokens := hread (by decide)
    rw [hnone] at htokens
    simpa only [List.nil_append, List.append_nil, String.ofList_toList] using htokens
  · simpa only [List.nil_append, List.append_nil, String.ofList_toList] using herror
  · exact (hfaulty _ _).mpr ⟨rfl, .tooSmall, .minus hbreaks, rfl⟩

end TableStore.Sql
