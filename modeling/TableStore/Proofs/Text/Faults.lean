import TableStore.Proofs.Text.Decimal

/-!
# Why a text stands for no 64-bit integer

A text that is refused has a first fault from the left, and it is refused for this one. The fault is
told by what stands before it: digits that make up a number within the limit, and then something that
is no digit or a digit too many. The limit below zero is one more than the one above.

* `Decimal.Breaks` — the first fault behind a sign; `Decimal.Faulty` — the first fault of a text.
* `Decimal.magnitude_append` — digits within the limit are read, and reading goes on behind them.
* `Decimal.read_error_iff` — a text is refused exactly for its first fault.
* `Decimal.Digits.read_eq_error` — digits alone are refused for nothing but their number.
* `Decimal.StandsFor`, `Decimal.numeral_iff` — what a text stands for, whatever its size.
-/

namespace TableStore.Decimal

/-! ## Faults -/

/-- The first fault of what stands behind a sign. There is nothing, or a character that is no digit
follows digits within the limit, or a digit is one too many for it. -/
inductive Breaks (limit : Nat) (excess : Fault) : List Char → Fault → Prop where
  | missing : Breaks limit excess [] .invalidDigit
  | stray {before after : List Char} {c : Char} (hbefore : ∀ d ∈ before, d.isDigit = true)
      (hle : Nat.ofDigitChars 10 before 0 ≤ limit) (hc : c.isDigit = false) :
      Breaks limit excess (before ++ c :: after) .invalidDigit
  | beyond {before after : List Char} {c : Char} (hbefore : ∀ d ∈ before, d.isDigit = true)
      (hle : Nat.ofDigitChars 10 before 0 ≤ limit) (hc : c.isDigit = true)
      (hlt : limit < Nat.ofDigitChars 10 (before ++ [c]) 0) :
      Breaks limit excess (before ++ c :: after) excess

/-- The first fault of a text from the left. A number with a minus sign has a limit of its own. -/
inductive Faulty : List Char → Fault → Prop where
  | empty : Faulty [] .empty
  | minus {rest : List Char} {fault : Fault} (h : Breaks leastMagnitude .tooSmall rest fault) :
      Faulty ('-' :: rest) fault
  | plus {rest : List Char} {fault : Fault} (h : Breaks greatest .tooLarge rest fault) :
      Faulty ('+' :: rest) fault
  | plain {c : Char} {rest : List Char} {fault : Fault} (hminus : c ≠ '-') (hplus : c ≠ '+')
      (h : Breaks greatest .tooLarge (c :: rest) fault) : Faulty (c :: rest) fault

section

variable {limit value : Nat} {excess fault : Fault} {c : Char} {cs : List Char}

theorem magnitude_digit (hc : c.isDigit = true) :
    magnitude limit excess value (c :: cs) =
      if Nat.ofDigitChars 10 [c] value ≤ limit then
        magnitude limit excess (Nat.ofDigitChars 10 [c] value) cs
      else .error excess := by
  simp only [magnitude, digit?, hc, ↓reduceIte, Nat.ofDigitChars_cons, Nat.ofDigitChars_nil]

theorem magnitude_stray (hc : c.isDigit = false) :
    magnitude limit excess value (c :: cs) = .error .invalidDigit := by
  simp [magnitude, digit?, hc]

/-- Digits within the limit are read, and reading goes on behind them. -/
theorem magnitude_append {before : List Char} (hbefore : ∀ d ∈ before, d.isDigit = true)
    (hle : Nat.ofDigitChars 10 before value ≤ limit) :
    magnitude limit excess value (before ++ cs) =
      magnitude limit excess (Nat.ofDigitChars 10 before value) cs := by
  induction before generalizing value with
  | nil => rfl
  | cons c before ih =>
    rw [← List.singleton_append, Nat.ofDigitChars_append] at hle ⊢
    -- the number only grows, so the limit is not passed at the first digit either
    have hfirst := Nat.le_trans (le_ofDigitChars before (Nat.ofDigitChars 10 [c] value)) hle
    rw [List.append_assoc, List.singleton_append,
      magnitude_digit (hbefore c List.mem_cons_self), if_pos hfirst]
    exact ih (fun d hd => hbefore d (List.mem_cons_of_mem c hd)) hle

/-- Where the loop fails, digits within the limit stand in front. -/
theorem exists_of_magnitude_error (hvalue : value ≤ limit)
    (h : magnitude limit excess value cs = .error fault) :
    ∃ before c after, cs = before ++ c :: after ∧ (∀ d ∈ before, d.isDigit = true) ∧
      Nat.ofDigitChars 10 before value ≤ limit ∧
      (c.isDigit = false ∧ fault = .invalidDigit ∨
        c.isDigit = true ∧ limit < Nat.ofDigitChars 10 (before ++ [c]) value ∧ fault = excess) := by
  -- by induction on the text, with the number that the digits before it make up
  induction cs generalizing value with
  | nil => cases h
  | cons c cs ih =>
    cases hc : c.isDigit with
    | false =>
      rw [magnitude_stray hc] at h
      cases h
      exact ⟨[], c, cs, rfl, by simp, hvalue, .inl ⟨hc, rfl⟩⟩
    | true =>
      rw [magnitude_digit hc] at h
      split at h
      · rename_i hle
        obtain ⟨before, d, after, rfl, hbefore, hwithin, hfault⟩ := ih hle h
        rw [← Nat.ofDigitChars_append] at hwithin hfault
        refine ⟨c :: before, d, after, rfl, ?_, hwithin, hfault⟩
        exact List.forall_mem_cons.mpr ⟨hc, hbefore⟩
      · -- the digit itself is the one too many
        rename_i hover
        cases h
        exact ⟨[], c, cs, rfl, by simp, hvalue, .inr ⟨hc, Nat.lt_of_not_le hover, rfl⟩⟩

theorem unsigned_eq_magnitude (h : cs ≠ []) :
    unsigned limit excess cs = magnitude limit excess 0 cs := by
  cases cs with
  | nil => exact absurd rfl h
  | cons c rest => rfl

theorem unsigned_error_iff :
    unsigned limit excess cs = .error fault ↔ Breaks limit excess cs fault := by
  constructor
  · intro h
    by_cases hnil : cs = []
    · subst hnil
      cases h
      exact .missing
    · rw [unsigned_eq_magnitude hnil] at h
      obtain ⟨before, c, after, rfl, hbefore, hle, ⟨hc, rfl⟩ | ⟨hc, hlt, rfl⟩⟩ :=
        exists_of_magnitude_error (Nat.zero_le limit) h
      · exact .stray hbefore hle hc
      · exact .beyond hbefore hle hc hlt
  · intro h
    cases h with
    | missing => rfl
    | stray hbefore hle hc =>
      rw [unsigned_eq_magnitude (by simp), magnitude_append hbefore hle, magnitude_stray hc]
    | beyond hbefore hle hc hlt =>
      rw [Nat.ofDigitChars_append] at hlt
      rw [unsigned_eq_magnitude (by simp), magnitude_append hbefore hle, magnitude_digit hc,
        if_neg (Nat.not_le.mpr hlt)]

theorem map_eq_error_iff {α β : Type} {f : α → β} {reading : Except Fault α} :
    reading.map f = .error fault ↔ reading = .error fault := by
  cases reading <;> simp [Except.map]

/-- A text is refused exactly for its first fault. -/
theorem read_error_iff : read cs = .error fault ↔ Faulty cs fault := by
  cases cs with
  | nil =>
    constructor
    · intro h
      cases h
      exact .empty
    · intro h
      cases h
      rfl
  | cons c rest =>
    rw [read]
    -- the first character tells the sign, and with it the limit
    split
    · rename_i hminus
      subst hminus
      rw [map_eq_error_iff, unsigned_error_iff]
      refine ⟨.minus, fun h => ?_⟩
      cases h with
      | minus h => exact h
      | plain hminus => exact absurd rfl hminus
    split
    · rename_i hplus
      subst hplus
      rw [map_eq_error_iff, unsigned_error_iff]
      refine ⟨.plus, fun h => ?_⟩
      cases h with
      | plus h => exact h
      | plain _ hplus => exact absurd rfl hplus
    · rename_i hminus hplus
      rw [map_eq_error_iff, unsigned_error_iff]
      refine ⟨.plain hminus hplus, fun h => ?_⟩
      cases h with
      | plain _ _ h => exact h
      | minus => exact absurd rfl hminus
      | plus => exact absurd rfl hplus

/-- Digits without anything else have no fault but that there are too many. -/
theorem Breaks.eq_excess (h : Breaks limit excess cs fault) (hdigits : Digits cs value) :
    fault = excess := by
  cases h with
  | missing => exact absurd rfl hdigits.ne_nil
  | @stray before after c _ _ hc =>
    have hdigit := hdigits.isDigit c (List.mem_append_right before List.mem_cons_self)
    rw [hdigit] at hc
    cases hc
  | beyond => rfl

/-- A number above the greatest integer is too large. -/
theorem Digits.read_eq_error (h : Digits cs value) (hlt : greatest < value) :
    read cs = .error .tooLarge := by
  cases hread : read cs with
  | ok n =>
    have hvalue := h.toInt_eq (read_ok_iff.mp hread)
    have hle := toNat_le_greatest n
    omega
  | error fault =>
    -- there is no sign, and every character is a digit
    rw [Except.error.injEq]
    cases read_error_iff.mp hread with
    | empty => exact absurd rfl h.ne_nil
    | minus => exact absurd rfl h.ne_sign.1
    | plus => exact absurd rfl h.ne_sign.2
    | plain _ _ hbreaks => exact hbreaks.eq_excess h

end

/-! ## Integers of any size -/

/-- A text stands for an integer of any size. -/
inductive StandsFor : List Char → Int → Prop where
  | plain {digits : List Char} {value : Nat} (h : Digits digits value) : StandsFor digits value
  | plus {digits : List Char} {value : Nat} (h : Digits digits value) :
      StandsFor ('+' :: digits) value
  | minus {digits : List Char} {value : Nat} (h : Digits digits value) :
      StandsFor ('-' :: digits) (-value)

theorem numeral_iff {cs : List Char} {n : Int64} : Numeral cs n ↔ StandsFor cs n.toInt := by
  constructor
  · intro h
    cases h with
    | plain hdigits hvalue => exact hvalue ▸ .plain hdigits
    | plus hdigits hvalue => exact hvalue ▸ .plus hdigits
    | minus hdigits hvalue => exact hvalue ▸ .minus hdigits
  · generalize hi : n.toInt = i
    intro h
    cases h with
    | plain hdigits => exact .plain hdigits hi
    | plus hdigits => exact .plus hdigits hi
    | minus hdigits => exact .minus hdigits hi

end TableStore.Decimal
