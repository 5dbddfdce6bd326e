import TableStore.Json.Lexeme
import TableStore.Proofs.Text.Decimal
import TableStore.Proofs.Traversal

/-!
# Numbers in JSON

A number is a whole part with at most a minus sign in front, then a fraction and an exponent, either
of which may be left out. A zero in front of the whole part is all of it. That is told here without
a word on how a number is read, and the check of the lexer is shown to agree with it.

* `Json.Exponent`, `Json.Tail`, `Json.Unsigned`, `Json.Numeral` — the parts of a number.
* `Json.isNumeral_iff` — the check accepts just the numbers.
* `Json.Numeral.isNumeric` — the characters of a number.
* `Json.numeral_write`, `Json.numeral_toString` — what is written for integers and counts.
-/

namespace TableStore.Json

/-- Digits, at least one. -/
structure IsDigits (cs : List Char) : Prop where
  ne_nil : cs ≠ []
  isDigit : ∀ c ∈ cs, c.isDigit = true

/-- An exponent, which may be left out. -/
inductive Exponent : List Char → Prop where
  | absent : Exponent []
  | plain {mark : Char} {digits : List Char} (hmark : mark = 'e' ∨ mark = 'E')
      (hdigits : IsDigits digits) : Exponent (mark :: digits)
  | signed {mark sign : Char} {digits : List Char} (hmark : mark = 'e' ∨ mark = 'E')
      (hsign : sign = '+' ∨ sign = '-') (hdigits : IsDigits digits) :
      Exponent (mark :: sign :: digits)

/-- What stands behind the whole part of a number: a fraction, which may be left out, and an
exponent. -/
inductive Tail : List Char → Prop where
  | whole {exponent : List Char} (hexponent : Exponent exponent) : Tail exponent
  | fraction {digits exponent : List Char} (hdigits : IsDigits digits)
      (hexponent : Exponent exponent) : Tail ('.' :: (digits ++ exponent))

/-- A number without a sign. A zero in front is the whole part. -/
inductive Unsigned : List Char → Prop where
  | zero {tail : List Char} (htail : Tail tail) : Unsigned ('0' :: tail)
  | positive {c : Char} {digits tail : List Char} (hzero : c ≠ '0')
      (hdigits : IsDigits (c :: digits)) (htail : Tail tail) : Unsigned (c :: (digits ++ tail))

/-- A number. There is no plus sign in front. -/
inductive Numeral : List Char → Prop where
  | plain {cs : List Char} (h : Unsigned cs) : Numeral cs
  | minus {cs : List Char} (h : Unsigned cs) : Numeral ('-' :: cs)

/-! ## Digits -/

theorem isDigits_cons {c : Char} {cs : List Char} :
    IsDigits (c :: cs) ↔ c.isDigit = true ∧ ∀ d ∈ cs, d.isDigit = true := by
  constructor
  · intro h
    exact List.forall_mem_cons.mp h.isDigit
  · intro h
    exact ⟨List.cons_ne_nil c cs, List.forall_mem_cons.mpr h⟩

/-- The check for digits in the lexer. -/
theorem isDigits_iff {cs : List Char} :
    (!cs.isEmpty && cs.all Char.isDigit) = true ↔ IsDigits cs := by
  rw [Bool.and_eq_true, Bool.not_eq_true', List.isEmpty_eq_false_iff, List.all_eq_true]
  constructor
  · rintro ⟨hne, hall⟩
    exact ⟨hne, hall⟩
  · intro h
    exact ⟨h.ne_nil, h.isDigit⟩

/-! ## The parts of a number -/

/-- The digits of an exponent, behind its sign. -/
def exponentDigits : List Char → List Char
  | [] => []
  | sign :: digits => if sign = '+' ∨ sign = '-' then digits else sign :: digits

theorem isExponent_cons {mark : Char} {rest : List Char} :
    isExponent (mark :: rest) = true ↔
      (mark = 'e' ∨ mark = 'E') ∧ IsDigits (exponentDigits rest) := by
  have hmark : (mark == 'e' || mark == 'E') = true ↔ mark = 'e' ∨ mark = 'E' := by simp
  rw [← hmark, ← isDigits_iff, ← Bool.and_eq_true, ← Bool.and_assoc]
  cases rest with
  | nil => rfl
  | cons sign digits =>
    simp only [isExponent, exponentDigits, Bool.or_eq_true, decide_eq_true_eq]

theorem isExponent_iff {cs : List Char} : isExponent cs = true ↔ Exponent cs := by
  cases cs with
  | nil => exact ⟨fun _ => .absent, fun _ => rfl⟩
  | cons mark rest =>
    rw [isExponent_cons]
    constructor
    · rintro ⟨hmark, hdigits⟩
      cases rest with
      | nil => exact absurd rfl hdigits.ne_nil
      | cons sign digits =>
        rw [exponentDigits] at hdigits
        split at hdigits
        · exact .signed hmark ‹_› hdigits
        · exact .plain hmark hdigits
    · intro h
      cases h with
      | @plain _ digits hmark hdigits =>
        refine ⟨hmark, ?_⟩
        -- digits start with no sign
        cases rest with
        | nil => exact hdigits
        | cons sign digits =>
          have hsign : ¬(sign = '+' ∨ sign = '-') := by
            have hdigit := (isDigits_cons.mp hdigits).1
            rintro (rfl | rfl) <;> exact absurd hdigit (by decide)
          rw [exponentDigits, if_neg hsign]
          exact hdigits
      | signed hmark hsign hdigits =>
        rw [exponentDigits, if_pos hsign]
        exact ⟨hmark, hdigits⟩

/-- What may follow the digits of a number is none of them. -/
theorem Exponent.not_digit {cs : List Char} (h : Exponent cs) :
    ∀ c ∈ cs.head?, c.isDigit = false := by
  intro c hc
  cases h with
  | absent => cases hc
  | plain hmark | signed hmark =>
    obtain rfl := Option.some.inj hc
    rcases hmark with rfl | rfl <;> rfl

theorem Tail.not_digit {cs : List Char} (h : Tail cs) : ∀ c ∈ cs.head?, c.isDigit = false := by
  cases h with
  | whole hexponent => exact hexponent.not_digit
  | fraction =>
    intro c hc
    obtain rfl := Option.some.inj hc
    rfl

theorem isFraction_iff {cs : List Char} : isFraction cs = true ↔ Tail cs := by
  cases cs with
  | nil => exact ⟨fun _ => .whole .absent, fun _ => rfl⟩
  | cons c rest =>
    rw [isFraction]
    split
    · rename_i hpoint
      subst hpoint
      rw [Bool.and_eq_true, isExponent_iff, Bool.not_eq_true', List.isEmpty_eq_false_iff]
      constructor
      · rintro ⟨hne, hexponent⟩
        have hdigits : IsDigits (rest.takeWhile Char.isDigit) :=
          ⟨hne, fun d hd => List.mem_takeWhile_imp hd⟩
        have h := Tail.fraction hdigits hexponent
        rwa [List.takeWhile_append_dropWhile] at h
      · intro h
        cases h with
        | whole hexponent =>
          -- a point is no mark of an exponent
          cases hexponent with
          | plain hmark | signed hmark => exact absurd hmark (by decide)
        | fraction hdigits hexponent =>
          obtain ⟨hrun, hrest⟩ := takeWhile_dropWhile_iff.mpr
            ⟨rfl, hdigits.isDigit, hexponent.not_digit⟩
          rw [hrun, hrest]
          exact ⟨hdigits.ne_nil, hexponent⟩
    · rename_i hpoint
      rw [isExponent_iff]
      constructor
      · exact .whole
      · intro h
        cases h with
        | whole hexponent => exact hexponent
        | fraction => exact absurd rfl hpoint

theorem isUnsigned_iff {cs : List Char} : isUnsigned cs = true ↔ Unsigned cs := by
  cases cs with
  | nil =>
    constructor <;> intro h <;> cases h
  | cons c rest =>
    rw [isUnsigned]
    split
    · rename_i hzero
      subst hzero
      rw [isFraction_iff]
      constructor
      · exact .zero
      · intro h
        cases h with
        | zero htail => exact htail
        | positive hne => exact absurd rfl hne
    · rename_i hzero
      rw [Bool.and_eq_true, isFraction_iff]
      constructor
      · rintro ⟨hdigit, htail⟩
        have hdigits : IsDigits (c :: rest.takeWhile Char.isDigit) :=
          isDigits_cons.mpr ⟨hdigit, fun d hd => List.mem_takeWhile_imp hd⟩
        have h := Unsigned.positive hzero hdigits htail
        rwa [List.takeWhile_append_dropWhile] at h
      · intro h
        cases h with
        | zero => exact absurd rfl hzero
        | positive _ hdigits htail =>
          obtain ⟨hdigit, hmore⟩ := isDigits_cons.mp hdigits
          rw [(takeWhile_dropWhile_iff.mpr ⟨rfl, hmore, htail.not_digit⟩).2]
          exact ⟨hdigit, htail⟩

theorem Unsigned.isDigit_head {c : Char} {cs : List Char} (h : Unsigned (c :: cs)) :
    c.isDigit = true := by
  cases h with
  | zero => rfl
  | positive _ hdigits => exact (isDigits_cons.mp hdigits).1

/-! ## Numbers -/

/-- Numbers are checked as the grammar has them. -/
theorem isNumeral_iff {cs : List Char} : isNumeral cs = true ↔ Numeral cs := by
  cases cs with
  | nil =>
    constructor
    · intro h
      cases h
    · rintro ⟨⟨⟩⟩
  | cons c rest =>
    rw [isNumeral]
    split
    · rename_i hminus
      subst hminus
      rw [isUnsigned_iff]
      constructor
      · exact .minus
      · intro h
        cases h with
        | plain hunsigned => exact absurd hunsigned.isDigit_head (by decide)
        | minus hunsigned => exact hunsigned
    · rename_i hminus
      rw [isUnsigned_iff]
      constructor
      · exact .plain
      · intro h
        cases h with
        | plain hunsigned => exact hunsigned
        | minus => exact absurd rfl hminus

theorem Numeral.head {c : Char} {cs : List Char} (h : Numeral (c :: cs)) :
    c = '-' ∨ c.isDigit = true := by
  cases h with
  | plain hunsigned => exact .inr hunsigned.isDigit_head
  | minus => exact .inl rfl

theorem isNumeric_of_isDigit {c : Char} (h : c.isDigit = true) : isNumeric c = true := by
  simp only [isNumeric, h, Bool.true_or]

theorem IsDigits.isNumeric {cs : List Char} (h : IsDigits cs) : ∀ c ∈ cs, isNumeric c = true :=
  fun c hc => isNumeric_of_isDigit (h.isDigit c hc)

theorem Exponent.isNumeric {cs : List Char} (h : Exponent cs) :
    ∀ c ∈ cs, Json.isNumeric c = true := by
  cases h with
  | absent => exact List.forall_mem_nil _
  | plain hmark hdigits =>
    refine List.forall_mem_cons.mpr ⟨?_, hdigits.isNumeric⟩
    rcases hmark with rfl | rfl <;> rfl
  | signed hmark hsign hdigits =>
    refine List.forall_mem_cons.mpr ⟨?_, List.forall_mem_cons.mpr ⟨?_, hdigits.isNumeric⟩⟩
    · rcases hmark with rfl | rfl <;> rfl
    · rcases hsign with rfl | rfl <;> rfl

theorem Tail.isNumeric {cs : List Char} (h : Tail cs) : ∀ c ∈ cs, Json.isNumeric c = true := by
  cases h with
  | whole hexponent => exact hexponent.isNumeric
  | fraction hdigits hexponent =>
    exact List.forall_mem_cons.mpr
      ⟨rfl, List.forall_mem_append.mpr ⟨hdigits.isNumeric, hexponent.isNumeric⟩⟩

theorem Unsigned.isNumeric {cs : List Char} (h : Unsigned cs) :
    ∀ c ∈ cs, Json.isNumeric c = true := by
  cases h with
  | zero htail => exact List.forall_mem_cons.mpr ⟨rfl, htail.isNumeric⟩
  | positive _ hdigits htail =>
    rw [← List.cons_append]
    exact List.forall_mem_append.mpr ⟨hdigits.isNumeric, htail.isNumeric⟩

/-- A number is made of characters that may stand in one. -/
theorem Numeral.isNumeric {cs : List Char} (h : Numeral cs) :
    ∀ c ∈ cs, Json.isNumeric c = true := by
  cases h with
  | plain hunsigned => exact hunsigned.isNumeric
  | minus hunsigned => exact List.forall_mem_cons.mpr ⟨rfl, hunsigned.isNumeric⟩

/-! ## What is written -/

/-- The shortest digits of a number are one without a sign. -/
theorem unsigned_toDigits (value : Nat) : Unsigned (Nat.toDigits 10 value) := by
  rcases Nat.eq_zero_or_pos value with rfl | hpositive
  · rw [Nat.toDigits_zero]
    exact .zero (.whole .absent)
  · obtain ⟨c, rest, hdigits, hzero⟩ := Decimal.toDigits_head hpositive
    have hall := (Decimal.digits_zeros 0 value).isDigit
    rw [List.replicate_zero, List.nil_append, hdigits] at hall
    have h := Unsigned.positive hzero ⟨List.cons_ne_nil c rest, hall⟩ (.whole .absent)
    rw [List.append_nil] at h
    rw [hdigits]
    exact h

theorem numeral_write (n : Int64) : Numeral (Decimal.write n).toList := by
  rcases Int.lt_or_le n.toInt 0 with hneg | hnonneg
  · rw [Decimal.toList_write_neg hneg]
    exact .minus (unsigned_toDigits _)
  · rw [Decimal.toList_write hnonneg]
    exact .plain (unsigned_toDigits _)

theorem numeral_toString (count : Nat) : Numeral (toString count).toList := by
  rw [Nat.toString_eq_ofList_toDigits, String.toList_ofList]
  exact .plain (unsigned_toDigits count)

end TableStore.Json
