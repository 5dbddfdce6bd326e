import TableStore.Text.Decimal

/-!
# What a text must be to stand for an integer

A text stands for an integer if it is a run of digits with at most one sign in front of it, and if
the integer that these make up is one of 64 bits. That is said here without a word on how a text is
read, and reading is shown to agree with it.

* `Decimal.Digits`, `Decimal.Numeral` — digits and the number they make up, texts and the integer
  they stand for.
* `Decimal.magnitude_ok_iff` — the loop reads digits, all of them and no more than the limit allows.
* `Decimal.read_ok_iff` — a text is read as an integer exactly if it stands for it.
* `Decimal.digits_write`, `Decimal.numeral_write` — what is written for an integer.
* `Decimal.toDigits_head` — there is no zero in front of it.
-/

namespace TableStore.Decimal

/-- Digits, at least one, make up a number in the decimal system. -/
structure Digits (cs : List Char) (value : Nat) : Prop where
  ne_nil : cs ≠ []
  isDigit : ∀ c ∈ cs, c.isDigit = true
  value_eq : Nat.ofDigitChars 10 cs 0 = value

/-- A text stands for an integer: digits with at most one sign in front of them. -/
inductive Numeral : List Char → Int64 → Prop where
  | plain {digits : List Char} {value : Nat} {n : Int64} (hdigits : Digits digits value)
      (hvalue : n.toInt = value) : Numeral digits n
  | plus {digits : List Char} {value : Nat} {n : Int64} (hdigits : Digits digits value)
      (hvalue : n.toInt = value) : Numeral ('+' :: digits) n
  | minus {digits : List Char} {value : Nat} {n : Int64} (hdigits : Digits digits value)
      (hvalue : n.toInt = -value) : Numeral ('-' :: digits) n

/-! ## Digits -/

theorem le_ofDigitChars (cs : List Char) (value : Nat) : value ≤ Nat.ofDigitChars 10 cs value := by
  induction cs generalizing value with
  | nil => exact Nat.le_refl value
  | cons c cs ih =>
    have hrest := ih (10 * value + (c.toNat - '0'.toNat))
    rw [Nat.ofDigitChars_cons]
    omega

theorem magnitude_ok_iff {limit value n : Nat} {excess : Fault} {cs : List Char}
    (hvalue : value ≤ limit) :
    magnitude limit excess value cs = .ok n ↔
      (∀ c ∈ cs, c.isDigit = true) ∧ Nat.ofDigitChars 10 cs value = n ∧ n ≤ limit := by
  induction cs generalizing value with
  | nil =>
    simp only [magnitude, Except.ok.injEq, Nat.ofDigitChars_nil]
    constructor
    · rintro rfl
      exact ⟨by simp, rfl, hvalue⟩
    · rintro ⟨-, h, -⟩
      exact h
  | cons c cs ih =>
    rw [Nat.ofDigitChars_cons, magnitude, digit?]
    by_cases hdigit : c.isDigit = true
    · simp only [hdigit, ↓reduceIte]
      by_cases hle : 10 * value + (c.toNat - '0'.toNat) ≤ limit
      · rw [if_pos hle, ih hle]
        simp [hdigit]
      · -- the value only grows from here on
        rw [if_neg hle]
        have hgrows := le_ofDigitChars cs (10 * value + (c.toNat - '0'.toNat))
        constructor
        · intro h
          cases h
        · rintro ⟨-, rfl, hlimit⟩
          omega
    · simp only [hdigit]
      constructor
      · intro h
        cases h
      · rintro ⟨hall, -⟩
        exact absurd (hall c List.mem_cons_self) hdigit

theorem digit_lt_ten {c : Char} (h : c.isDigit = true) : c.toNat - '0'.toNat < 10 := by
  have hrange := Char.isDigit_iff_toNat.mp h
  have hzero : '0'.toNat = 48 := rfl
  have hnine : '9'.toNat = 57 := rfl
  omega

/-- A digit is what is written for its number. -/
theorem toDigits_digit {c : Char} (h : c.isDigit = true) :
    Nat.toDigits 10 (c.toNat - '0'.toNat) = [c] := by
  have hrange := Char.isDigit_iff_toNat.mp h
  have hlt := digit_lt_ten h
  rw [Nat.toDigits_of_lt_base hlt, List.singleton_inj, ← Char.toNat_inj,
    Nat.toNat_digitChar_of_lt_ten hlt]
  have hzero : '0'.toNat = 48 := rfl
  omega

/-- A sign is no digit. -/
theorem Digits.ne_sign {c : Char} {rest : List Char} {value : Nat} (h : Digits (c :: rest) value) :
    c ≠ '-' ∧ c ≠ '+' := by
  have hdigit := h.isDigit c List.mem_cons_self
  constructor
  · intro hminus
    rw [hminus] at hdigit
    exact absurd hdigit (by decide)
  · intro hplus
    rw [hplus] at hdigit
    exact absurd hdigit (by decide)

theorem unsigned_ok_iff {limit n : Nat} {excess : Fault} {cs : List Char} :
    unsigned limit excess cs = .ok n ↔ Digits cs n ∧ n ≤ limit := by
  cases cs with
  | nil =>
    constructor
    · intro h
      cases h
    · intro h
      exact absurd rfl h.1.ne_nil
  | cons c rest =>
    show magnitude limit excess 0 (c :: rest) = .ok n ↔ _
    rw [magnitude_ok_iff (Nat.zero_le limit)]
    constructor
    · rintro ⟨hdigits, hvalue, hle⟩
      exact ⟨⟨List.cons_ne_nil c rest, hdigits, hvalue⟩, hle⟩
    · rintro ⟨⟨-, hdigits, hvalue⟩, hle⟩
      exact ⟨hdigits, hvalue, hle⟩

/-! ## Integers -/

/-- Digits up to a limit are read as the integer that stands for their number with the sign. -/
theorem map_unsigned_ok_iff {limit : Nat} {excess : Fault} {cs : List Char} {sign : Nat → Int}
    {n : Int64}
    (hrange : ∀ value, value ≤ limit ↔ -leastMagnitude ≤ sign value ∧ sign value ≤ greatest) :
    (unsigned limit excess cs).map (fun value => Int64.ofInt (sign value)) = .ok n ↔
      ∃ value, Digits cs value ∧ n.toInt = sign value := by
  constructor
  · intro h
    cases hread : unsigned limit excess cs with
    | error fault =>
      rw [hread] at h
      cases h
    | ok value =>
      rw [hread] at h
      cases h
      obtain ⟨hdigits, hle⟩ := unsigned_ok_iff.mp hread
      obtain ⟨hleast, hgreatest⟩ := (hrange value).mp hle
      rw [leastMagnitude] at hleast
      rw [greatest] at hgreatest
      exact ⟨value, hdigits, Int64.toInt_ofInt_of_le (by omega) (by omega)⟩
  · rintro ⟨value, hdigits, hvalue⟩
    have hle : value ≤ limit := by
      have hleast := n.le_toInt
      have hgreatest := n.toInt_lt
      rw [hrange, ← hvalue, leastMagnitude, greatest]
      omega
    rw [unsigned_ok_iff.mpr ⟨hdigits, hle⟩]
    show Except.ok (Int64.ofInt (sign value)) = .ok n
    rw [← hvalue, Int64.ofInt_toInt]

/-- A text is read as an integer exactly if it stands for it. -/
theorem read_ok_iff {cs : List Char} {n : Int64} : read cs = .ok n ↔ Numeral cs n := by
  have hpositive : ∀ digits : List Char,
      (unsigned greatest .tooLarge digits).map (fun value : Nat => Int64.ofInt value) = .ok n ↔
        ∃ value, Digits digits value ∧ n.toInt = value := by
    intro digits
    refine map_unsigned_ok_iff fun value => ?_
    rw [leastMagnitude, greatest]
    omega
  have hnegative : ∀ digits : List Char,
      (unsigned leastMagnitude .tooSmall digits).map (fun value : Nat => Int64.ofInt (-value)) =
          .ok n ↔
        ∃ value, Digits digits value ∧ n.toInt = -value := by
    intro digits
    refine map_unsigned_ok_iff fun value => ?_
    rw [leastMagnitude, greatest]
    omega
  cases cs with
  | nil =>
    constructor
    · intro h
      cases h
    · intro h
      cases h with
      | plain hdigits => exact absurd rfl hdigits.ne_nil
  | cons c rest =>
    rw [read]
    -- the first character tells which kind of numeral it can be
    split
    · rename_i hminus
      subst hminus
      rw [hnegative]
      constructor
      · rintro ⟨value, hdigits, hvalue⟩
        exact .minus hdigits hvalue
      · intro h
        cases h with
        | plain hdigits => exact absurd rfl hdigits.ne_sign.1
        | minus hdigits hvalue => exact ⟨_, hdigits, hvalue⟩
    split
    · rename_i hplus
      subst hplus
      rw [hpositive]
      constructor
      · rintro ⟨value, hdigits, hvalue⟩
        exact .plus hdigits hvalue
      · intro h
        cases h with
        | plain hdigits => exact absurd rfl hdigits.ne_sign.2
        | plus hdigits hvalue => exact ⟨_, hdigits, hvalue⟩
    · rename_i hminus hplus
      rw [hpositive]
      constructor
      · rintro ⟨value, hdigits, hvalue⟩
        exact .plain hdigits hvalue
      · intro h
        cases h with
        | plain hdigits hvalue => exact ⟨_, hdigits, hvalue⟩
        | plus => exact absurd rfl hplus
        | minus => exact absurd rfl hminus

/-- Digits alone stand for the number that they make up. -/
theorem Digits.toInt_eq {cs : List Char} {value : Nat} {n : Int64} (h : Digits cs value)
    (hnumeral : Numeral cs n) : n.toInt = value := by
  cases hnumeral with
  | plain hdigits hvalue => rw [hvalue, ← hdigits.value_eq, ← h.value_eq]
  | plus => exact absurd rfl h.ne_sign.2
  | minus => exact absurd rfl h.ne_sign.1

theorem toNat_le_greatest (n : Int64) : n.toInt.toNat ≤ greatest := by
  have hlt := n.toInt_lt
  rw [greatest]
  omega

/-! ## Leading zeros -/

/-- Digits behind those of a positive number are the digits of what all of them make up. -/
theorem toDigits_append {value : Nat} (hvalue : 0 < value) {cs : List Char}
    (hdigits : ∀ c ∈ cs, c.isDigit = true) :
    Nat.toDigits 10 value ++ cs = Nat.toDigits 10 (Nat.ofDigitChars 10 cs value) := by
  induction cs generalizing value with
  | nil => rw [List.append_nil, Nat.ofDigitChars_nil]
  | cons c cs ih =>
    have hdigit : c.isDigit = true := hdigits c List.mem_cons_self
    have hlt := digit_lt_ten hdigit
    have hrest : ∀ d ∈ cs, d.isDigit = true := fun d hd => hdigits d (List.mem_cons_of_mem c hd)
    have hgrown : 0 < 10 * value + (c.toNat - '0'.toNat) := by omega
    calc Nat.toDigits 10 value ++ c :: cs
        = (Nat.toDigits 10 value ++ Nat.toDigits 10 (c.toNat - '0'.toNat)) ++ cs := by
          rw [toDigits_digit hdigit, List.append_assoc, List.singleton_append]
      _ = Nat.toDigits 10 (10 * value + (c.toNat - '0'.toNat)) ++ cs := by
          rw [Nat.toDigits_append_toDigits (by decide) hvalue hlt]
      _ = Nat.toDigits 10 (Nat.ofDigitChars 10 (c :: cs) value) := by
          rw [ih hgrown hrest, Nat.ofDigitChars_cons]

/-- Digits are the shortest ones of their number, with zeros in front of them. -/
theorem Digits.exists_zeros {cs : List Char} {value : Nat} (h : Digits cs value) :
    ∃ zeros, cs = List.replicate zeros '0' ++ Nat.toDigits 10 value := by
  induction cs with
  | nil => exact absurd rfl h.ne_nil
  | cons c cs ih =>
    have hvalue : Nat.ofDigitChars 10 cs (c.toNat - '0'.toNat) = value := by
      rw [← h.value_eq, Nat.ofDigitChars_cons, Nat.mul_zero, Nat.zero_add]
    have hdigit : c.isDigit = true := h.isDigit c List.mem_cons_self
    have hrest : ∀ d ∈ cs, d.isDigit = true := fun d hd => h.isDigit d (List.mem_cons_of_mem c hd)
    rcases Nat.eq_zero_or_pos (c.toNat - '0'.toNat) with hzero | hpositive
    · -- a zero, which is the whole number or stands in front of it
      have hc : [c] = ['0'] := by rw [← toDigits_digit hdigit, hzero, Nat.toDigits_zero]
      obtain rfl : c = '0' := List.singleton_inj.mp hc
      rw [hzero] at hvalue
      by_cases hnil : cs = []
      · rw [hnil, Nat.ofDigitChars_nil] at hvalue
        rw [hnil, ← hvalue, Nat.toDigits_zero]
        exact ⟨0, rfl⟩
      · obtain ⟨zeros, hzeros⟩ := ih ⟨hnil, hrest, hvalue⟩
        rw [hzeros]
        exact ⟨zeros + 1, rfl⟩
    · have happend := toDigits_append hpositive hrest
      rw [toDigits_digit hdigit, List.singleton_append, hvalue] at happend
      exact ⟨0, happend⟩

/-- Zeros in front of digits do not change what they make up. -/
theorem digits_zeros (zeros value : Nat) :
    Digits (List.replicate zeros '0' ++ Nat.toDigits 10 value) value := by
  refine ⟨?_, ?_, ?_⟩
  · intro hnil
    exact Nat.toDigits_ne_nil (List.append_eq_nil_iff.mp hnil).2
  · intro c hc
    rcases List.mem_append.mp hc with hzero | hdigit
    · rw [List.eq_of_mem_replicate hzero]
      rfl
    · exact Nat.isDigit_of_mem_toDigits (by decide) (by decide) hdigit
  · rw [Nat.ofDigitChars_append, Nat.ofDigitChars_replicate_zero, Nat.mul_zero,
      Nat.ofDigitChars_ten_toDigits]

/-! ## Writing -/

theorem toList_write {n : Int64} (h : 0 ≤ n.toInt) :
    (write n).toList = Nat.toDigits 10 n.toInt.toNat := by
  obtain ⟨m, hm⟩ := Int.eq_ofNat_of_zero_le h
  rw [write, hm]
  show (Nat.repr m).toList = Nat.toDigits 10 m
  rw [Nat.repr, String.toList_ofList]

theorem write_eq_toString {n : Int64} (h : 0 ≤ n.toInt) : write n = toString n.toInt.toNat := by
  rw [← String.toList_inj, toList_write h, Nat.toString_eq_ofList_toDigits, String.toList_ofList]

/-- What is written for an integer that is not negative are the digits of its number. -/
theorem digits_write {n : Int64} (h : 0 ≤ n.toInt) : Digits (write n).toList n.toInt.toNat := by
  rw [toList_write h]
  exact digits_zeros 0 n.toInt.toNat

/-- What is written for a negative integer are the digits of its magnitude behind a minus sign. -/
theorem toList_write_neg {n : Int64} (h : n.toInt < 0) :
    (write n).toList = '-' :: Nat.toDigits 10 n.toInt.natAbs := by
  obtain ⟨m, hm⟩ := Int.eq_negSucc_of_lt_zero h
  rw [write, hm]
  show ("-" ++ Nat.repr (m + 1)).toList = '-' :: Nat.toDigits 10 (m + 1)
  rw [String.toList_append, Nat.repr, String.toList_ofList, String.toList_ofList,
    List.singleton_append]

/-- What is written for an integer stands for it. -/
theorem numeral_write (n : Int64) : Numeral (write n).toList n := by
  rcases Int.lt_or_le n.toInt 0 with hneg | hnonneg
  · rw [toList_write_neg hneg]
    exact .minus (digits_zeros 0 n.toInt.natAbs) (by omega)
  · exact .plain (digits_write hnonneg) (by omega)

theorem read_write (n : Int64) : read (write n).toList = .ok n :=
  read_ok_iff.mpr (numeral_write n)

/-- The shortest digits of a positive number start with no zero. -/
theorem toDigits_head {value : Nat} (hvalue : 0 < value) :
    ∃ c rest, Nat.toDigits 10 value = c :: rest ∧ c ≠ '0' := by
  obtain ⟨c, rest, hdigits⟩ := List.exists_cons_of_ne_nil (Nat.toDigits_ne_nil (n := value))
  refine ⟨c, rest, hdigits, ?_⟩
  rintro rfl
  have hall := (digits_zeros 0 value).isDigit
  have hsum := (digits_zeros 0 value).value_eq
  rw [List.replicate_zero, List.nil_append, hdigits] at hall hsum
  -- the digits behind the zero would make up the number as well, and there are too few of them
  have hrest : Digits rest value := by
    refine ⟨?_, fun d hd => hall d (List.mem_cons_of_mem _ hd), hsum⟩
    rintro rfl
    exact Nat.ne_of_gt hvalue hsum.symm
  obtain ⟨zeros, hzeros⟩ := hrest.exists_zeros
  have hlength := congrArg List.length hzeros
  rw [List.length_append, hdigits, List.length_cons] at hlength
  omega

end TableStore.Decimal
