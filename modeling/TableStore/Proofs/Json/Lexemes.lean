import Mathlib.Data.List.Chain
import TableStore.Proofs.Json.Numerals

/-!
# What the lexemes of JSON text are

The lexical grammar, told without a word on how a text is read: what spells a text or any other
lexeme, and how symbols are cut into lexemes with blanks between them. What the lexer finds is such
a cut. A cut need not be the only one, since a numeral may be cut in two; but where of any two
neighbours one is a bracket or a mark, it is the one that the lexer finds.

* `Json.Letters`, `Json.Spells` — what spells the letters of a text, and a lexeme.
* `Json.Cut` — symbols cut into lexemes.
* `Json.letters?_eq_some_iff` — texts are read as the grammar has them.
* `Json.Cut.of_lexemes?`, `Json.Cut.lexemes?_eq_some` — readings are cuts, and cuts are readings.
-/

namespace TableStore.Json

open Utf8 (Symbol)

/-! ## The grammar -/

/-- A hexadecimal digit of a value, in either letter case. -/
def IsHex (c : Char) (value : Nat) : Prop :=
  value < 16 ∧ (c = value.digitChar ∨ c = value.digitChar.toUpper)

/-- The characters that may stand behind a backslash, with those that they stand for. -/
def shortEscapes : List (Char × Char) :=
  [('"', '"'), ('\\', '\\'), ('/', '/'), ('b', '\x08'), ('f', '\x0c'), ('n', '\n'), ('r', '\r'),
   ('t', '\t')]

/-- What spells the letters of a text between its quotes. -/
inductive Letters : List Symbol → List Letter → Prop where
  | nil : Letters [] []
  | stray {byte : UInt8} {rest : List Symbol} {letters : List Letter}
      (hrest : Letters rest letters) :
      Letters (.stray byte :: rest) (.plain (.stray byte) :: letters)
  | plain {c : Char} {rest : List Symbol} {letters : List Letter} (hquote : c ≠ '"')
      (hbackslash : c ≠ '\\') (hcontrol : 0x20 ≤ c.toNat) (hrest : Letters rest letters) :
      Letters (.char c :: rest) (.plain (.char c) :: letters)
  | short {e c : Char} {rest : List Symbol} {letters : List Letter}
      (hescape : (e, c) ∈ shortEscapes) (hrest : Letters rest letters) :
      Letters (.char '\\' :: .char e :: rest) (.plain (.char c) :: letters)
  | codeUnit {a b c d : Char} {p q r s : Nat} {rest : List Symbol} {letters : List Letter}
      (ha : IsHex a p) (hb : IsHex b q) (hc : IsHex c r) (hd : IsHex d s)
      (hrest : Letters rest letters) :
      Letters (.char '\\' :: .char 'u' :: .char a :: .char b :: .char c :: .char d :: rest)
        (.codeUnit (((16 * p + q) * 16 + r) * 16 + s) :: letters)

/-- The brackets and marks. -/
def marks : List (Char × Lexeme) :=
  [('[', .leftBracket), (']', .rightBracket), ('\x7b', .leftBrace), ('\x7d', .rightBrace),
   (':', .colon), (',', .comma)]

/-- The words. -/
def words : List (String × Lexeme) :=
  [("null", .null), ("true", .boolean true), ("false", .boolean false)]

/-- What spells a lexeme. -/
inductive Spells : Lexeme → List Symbol → Prop where
  | mark {c : Char} {lexeme : Lexeme} (hmark : (c, lexeme) ∈ marks) : Spells lexeme [.char c]
  | word {word : String} {lexeme : Lexeme} (hword : (word, lexeme) ∈ words) :
      Spells lexeme (word.toList.map .char)
  | number {cs : List Char} (hnumeral : Numeral cs) :
      Spells (.number (String.ofList cs)) (cs.map .char)
  | text {body : List Symbol} {letters : List Letter} (hletters : Letters body letters) :
      Spells (.text letters) (.char '"' :: (body ++ [.char '"']))

/-- Symbols cut into lexemes, with blanks before, between and behind them. -/
inductive Cut : List Symbol → List Lexeme → Prop where
  | nil : Cut [] []
  | space {c : Char} {rest : List Symbol} {lexemes : List Lexeme} (hspace : isSpace c = true)
      (hrest : Cut rest lexemes) : Cut (.char c :: rest) lexemes
  | lexeme {lexeme : Lexeme} {spelling rest : List Symbol} {lexemes : List Lexeme}
      (hspells : Spells lexeme spelling) (hrest : Cut rest lexemes) :
      Cut (spelling ++ rest) (lexeme :: lexemes)

/-- Whether a lexeme is a bracket or a mark. -/
def Lexeme.isMark : Lexeme → Bool
  | .leftBracket | .rightBracket | .leftBrace | .rightBrace | .colon | .comma => true
  | _ => false

/-- Of any two neighbours one is a bracket or a mark. -/
def Separated (lexemes : List Lexeme) : Prop :=
  lexemes.IsChain fun before after => before.isMark = true ∨ after.isMark = true

/-! ## Texts -/

/-- Hexadecimal digits are ASCII characters. -/
theorem toNat_lt_of_hexDigit? {c : Char} {value : Nat} (h : hexDigit? c = some value) :
    c.toNat < 128 := by
  rw [hexDigit?] at h
  split at h
  · rename_i hdigit
    have hrange := Char.isDigit_iff_toNat.mp hdigit
    have hnine : '9'.toNat = 57 := rfl
    omega
  split at h
  · rename_i hletter
    have hle : c ≤ 'f' := by simpa using (Bool.and_eq_true_iff.mp hletter).2
    have hlast : 'f'.toNat = 102 := rfl
    exact Nat.lt_of_le_of_lt (UInt32.le_iff_toNat_le.mp hle) (by decide)
  split at h
  · rename_i hletter
    have hle : c ≤ 'F' := by simpa using (Bool.and_eq_true_iff.mp hletter).2
    have hlast : 'F'.toNat = 70 := rfl
    exact Nat.lt_of_le_of_lt (UInt32.le_iff_toNat_le.mp hle) (by decide)
  · cases h

theorem hexDigit?_eq_some_iff {c : Char} {value : Nat} :
    hexDigit? c = some value ↔ IsHex c value := by
  constructor
  · intro h
    have hlt := toNat_lt_of_hexDigit? h
    rw [← Char.ofNat_toNat c] at h ⊢
    revert hlt h value
    generalize c.toNat = n
    -- there are 128 characters to look at
    revert n
    have hall : ∀ n < 128, ∀ value ∈ hexDigit? (Char.ofNat n), value < 16 ∧
        (Char.ofNat n = value.digitChar ∨ Char.ofNat n = value.digitChar.toUpper) := by
      decide
    exact fun n value h hlt => hall n hlt value h
  · rintro ⟨hvalue, hc⟩
    -- there are sixteen digits in two letter cases
    rcases hc with rfl | rfl <;> revert hvalue <;> revert value <;> decide

theorem hexSymbol?_eq_some_iff {symbol : Symbol} {value : Nat} :
    hexSymbol? symbol = some value ↔ ∃ c, symbol = .char c ∧ IsHex c value := by
  cases symbol with
  | char c =>
    rw [hexSymbol?, hexDigit?_eq_some_iff]
    constructor
    · intro h
      exact ⟨c, rfl, h⟩
    · rintro ⟨d, hd, h⟩
      cases hd
      exact h
  | stray byte =>
    constructor
    · intro h
      cases h
    · rintro ⟨c, hc, -⟩
      cases hc

theorem codeUnit?_eq_some_iff {a b c d : Symbol} {value : Nat} :
    codeUnit? a b c d = some value ↔
      ∃ p q r s, hexSymbol? a = some p ∧ hexSymbol? b = some q ∧ hexSymbol? c = some r ∧
        hexSymbol? d = some s ∧ ((16 * p + q) * 16 + r) * 16 + s = value := by
  simp [codeUnit?, Option.bind_eq_some_iff]

theorem shortEscape?_eq_some_iff {e c : Char} :
    shortEscape? e = some c ↔ (e, c) ∈ shortEscapes := by
  unfold shortEscape? shortEscapes
  constructor
  · intro h
    split at h <;> cases h <;> decide
  · intro h
    simp only [List.mem_cons, Prod.mk.injEq, List.not_mem_nil, or_false] at h
    rcases h with ⟨rfl, rfl⟩ | ⟨rfl, rfl⟩ | ⟨rfl, rfl⟩ | ⟨rfl, rfl⟩ | ⟨rfl, rfl⟩ | ⟨rfl, rfl⟩ |
      ⟨rfl, rfl⟩ | ⟨rfl, rfl⟩ <;> rfl

/-- The letters before a closing quote are read as the grammar has them. -/
theorem letters?_append {body after : List Symbol} {letters : List Letter}
    (h : Letters body letters) :
    letters? (body ++ .char '"' :: after) = some (letters, after) := by
  induction h with
  | nil =>
    rw [letters?.eq_def]
    rfl
  | stray _ ih => simp [letters?, ih]
  | plain hquote hbackslash hcontrol _ ih =>
    have hcontrol := Nat.not_lt.mpr hcontrol
    rw [letters?.eq_def]
    simp [hquote, hbackslash, hcontrol, ih]
  | @short e c rest letters hescape _ ih =>
    have hmeant := shortEscape?_eq_some_iff.mpr hescape
    have hunit : e ≠ 'u' := by
      rintro rfl
      cases hmeant
    rw [letters?.eq_def]
    simp [hunit, hmeant, ih]
  | codeUnit ha hb hc hd _ ih =>
    have hvalue := codeUnit?_eq_some_iff.mpr ⟨_, _, _, _,
      hexSymbol?_eq_some_iff.mpr ⟨_, rfl, ha⟩, hexSymbol?_eq_some_iff.mpr ⟨_, rfl, hb⟩,
      hexSymbol?_eq_some_iff.mpr ⟨_, rfl, hc⟩, hexSymbol?_eq_some_iff.mpr ⟨_, rfl, hd⟩, rfl⟩
    simp [letters?, hvalue, ih]

/-- One letter in front of those that are read. -/
theorem exists_letters_of_more (lead : List Symbol) {rest after : List Symbol} {letter : Letter}
    {letters : List Letter}
    (hlead : ∀ {body : List Symbol} {more : List Letter},
      Letters body more → Letters (lead ++ body) (letter :: more))
    (hmore : ∀ {more : List Letter}, letters? rest = some (more, after) →
      ∃ body, rest = body ++ .char '"' :: after ∧ Letters body more)
    (h : (letters? rest).bind (fun (more, after) => some (letter :: more, after)) =
      some (letters, after)) :
    ∃ body, lead ++ rest = body ++ .char '"' :: after ∧ Letters body letters := by
  obtain ⟨⟨more, last⟩, hread, heq⟩ := Option.bind_eq_some_iff.mp h
  cases heq
  obtain ⟨body, rfl, hbody⟩ := hmore hread
  exact ⟨lead ++ body, (List.append_assoc lead body _).symm, hlead hbody⟩

/-- What is read as the letters of a text spells them, and the closing quote stands behind it. -/
theorem exists_letters_of_letters? {symbols after : List Symbol} {letters : List Letter}
    (h : letters? symbols = some (letters, after)) :
    ∃ body, symbols = body ++ .char '"' :: after ∧ Letters body letters := by
  fun_induction letters? symbols generalizing letters with
  | case1 | case4 | case6 | case8 => cases h
  | case2 byte rest ih => exact exists_letters_of_more [_] .stray ih h
  | case3 rest =>
    cases h
    exact ⟨[], rfl, .nil⟩
  | case5 a b c d rest _ _ ih =>
    obtain ⟨value, hvalue, hmore⟩ := Option.bind_eq_some_iff.mp h
    obtain ⟨p, q, r, s, hp, hq, hr, hs, rfl⟩ := codeUnit?_eq_some_iff.mp hvalue
    obtain ⟨a, rfl, ha⟩ := hexSymbol?_eq_some_iff.mp hp
    obtain ⟨b, rfl, hb⟩ := hexSymbol?_eq_some_iff.mp hq
    obtain ⟨c, rfl, hc⟩ := hexSymbol?_eq_some_iff.mp hr
    obtain ⟨d, rfl, hd⟩ := hexSymbol?_eq_some_iff.mp hs
    exact exists_letters_of_more [_, _, _, _, _, _] (.codeUnit ha hb hc hd) ih hmore
  | case7 e rest _ _ _ ih =>
    obtain ⟨c, hc, hmore⟩ := Option.bind_eq_some_iff.mp h
    exact exists_letters_of_more [_, _] (.short (shortEscape?_eq_some_iff.mp hc)) ih hmore
  | case9 c rest hquote hcontrol hbackslash ih =>
    exact exists_letters_of_more [_] (.plain hquote hbackslash (Nat.not_lt.mp hcontrol)) ih h

/-- Texts are read as the grammar has them. -/
theorem letters?_eq_some_iff {symbols after : List Symbol} {letters : List Letter} :
    letters? symbols = some (letters, after) ↔
      ∃ body, symbols = body ++ .char '"' :: after ∧ Letters body letters := by
  constructor
  · exact exists_letters_of_letters?
  · rintro ⟨body, rfl, hbody⟩
    exact letters?_append hbody

/-! ## Runs and tables -/

/-- A run of characters of a kind is followed by none of them. -/
theorem run_eq_iff {p : Char → Bool} {symbols after : List Symbol} {cs : List Char} :
    run p symbols = (cs, after) ↔
      symbols = cs.map .char ++ after ∧ (∀ c ∈ cs, p c = true) ∧
        ∀ c, after.head? = some (.char c) → p c = false := by
  constructor
  · intro h
    fun_induction run p symbols generalizing cs with
    | case1 =>
      cases h
      simp
    | case2 byte rest =>
      cases h
      simp
    | case3 c rest hc ih =>
      cases h
      obtain ⟨hrest, hall, hstop⟩ := ih rfl
      refine ⟨?_, List.forall_mem_cons.mpr ⟨hc, hall⟩, hstop⟩
      rw [List.map_cons, List.cons_append, ← hrest]
    | case4 c rest hc =>
      cases h
      simpa using hc
  · rintro ⟨rfl, hall, hstop⟩
    induction cs with
    | nil =>
      cases after with
      | nil => rfl
      | cons symbol rest =>
        cases symbol with
        | stray byte => rfl
        | char c =>
          have hc := hstop c rfl
          simp [run, hc]
    | cons c cs ih =>
      obtain ⟨hc, hall⟩ := List.forall_mem_cons.mp hall
      simp [run, hc, ih hall]

theorem single?_eq_some_iff {c : Char} {lexeme : Lexeme} :
    single? c = some lexeme ↔ (c, lexeme) ∈ marks := by
  unfold single? marks
  constructor
  · intro h
    split at h <;> cases h <;> decide
  · intro h
    simp only [List.mem_cons, Prod.mk.injEq, List.not_mem_nil, or_false] at h
    rcases h with ⟨rfl, rfl⟩ | ⟨rfl, rfl⟩ | ⟨rfl, rfl⟩ | ⟨rfl, rfl⟩ | ⟨rfl, rfl⟩ | ⟨rfl, rfl⟩ <;>
      rfl

theorem word?_eq_some_iff {cs : List Char} {lexeme : Lexeme} :
    word? cs = some lexeme ↔ ∃ word, (word, lexeme) ∈ words ∧ cs = word.toList := by
  constructor
  · intro h
    obtain ⟨before, after, hwords, -⟩ := List.lookup_eq_some_iff.mp h
    refine ⟨String.ofList cs, ?_, String.toList_ofList.symm⟩
    rw [words, hwords]
    exact List.mem_append_cons_self
  · rintro ⟨word, hword, rfl⟩
    rw [word?, String.ofList_toList]
    simp only [words, List.mem_cons, Prod.mk.injEq, List.not_mem_nil, or_false] at hword
    rcases hword with ⟨rfl, rfl⟩ | ⟨rfl, rfl⟩ | ⟨rfl, rfl⟩ <;> rfl

/-! ## Single lexemes -/

/-- Brackets and marks are characters of no other kind. -/
theorem kind_of_mem_marks {c : Char} {lexeme : Lexeme} (h : (c, lexeme) ∈ marks) :
    isSpace c = false ∧ isNumeric c = false ∧ c.isLower = false ∧ lexeme.isMark = true := by
  have hall : ∀ mark ∈ marks, isSpace mark.1 = false ∧ isNumeric mark.1 = false ∧
      mark.1.isLower = false ∧ mark.2.isMark = true := by
    decide
  exact hall (c, lexeme) h

/-- Words are made of small letters. -/
theorem kind_of_mem_words {word : String} {lexeme : Lexeme} (h : (word, lexeme) ∈ words) :
    word.toList ≠ [] ∧ (∀ c ∈ word.toList, c.isLower = true) ∧ lexeme.isMark = false := by
  have hall : ∀ word ∈ words, word.1.toList ≠ [] ∧ word.1.toList.all Char.isLower = true ∧
      word.2.isMark = false := by
    decide
  simpa only [List.all_eq_true] using hall (word, lexeme) h

theorem single?_eq_none {c : Char} (h : isNumeric c = true ∨ c.isLower = true) :
    single? c = none := by
  cases hsingle : single? c with
  | none => rfl
  | some lexeme =>
    obtain ⟨-, hnumeric, hlower, -⟩ := kind_of_mem_marks (single?_eq_some_iff.mp hsingle)
    rw [hnumeric, hlower] at h
    rcases h with h | h <;> cases h

/-- A blank is no part of a lexeme other than a text. -/
theorem kind_of_isSpace {c : Char} (h : isSpace c = true) :
    isNumeric c = false ∧ c.isLower = false := by
  simp only [isSpace, Bool.or_eq_true, beq_iff_eq] at h
  rcases h with ((rfl | rfl) | rfl) | rfl <;> decide

theorem isSpace_eq_false {c : Char} (h : isNumeric c = true ∨ c.isLower = true) :
    isSpace c = false := by
  rw [Bool.eq_false_iff]
  intro hspace
  obtain ⟨hnumeric, hlower⟩ := kind_of_isSpace hspace
  rw [hnumeric, hlower] at h
  rcases h with h | h <;> cases h

/-- What follows a lexeme does not go on with it: it starts with no character that may stand in a
number or a word. -/
def Stops (after : List Symbol) : Prop :=
  ∀ c, after.head? = some (.char c) → isNumeric c = false ∧ c.isLower = false

/-- What is read as a lexeme spells it. -/
theorem exists_spells_of_next? {c : Char} {rest after : List Symbol} {lexeme : Lexeme}
    (h : next? c rest = some (lexeme, after)) :
    ∃ spelling, .char c :: rest = spelling ++ after ∧ Spells lexeme spelling := by
  unfold next? at h
  split at h
  · rename_i hmark
    cases h
    exact ⟨[.char c], rfl, .mark (single?_eq_some_iff.mp hmark)⟩
  split at h
  · rename_i hquote
    obtain ⟨⟨letters, last⟩, hletters, heq⟩ := Option.map_eq_some_iff.mp h
    cases heq
    obtain ⟨body, rfl, hbody⟩ := letters?_eq_some_iff.mp hletters
    refine ⟨_, ?_, .text hbody⟩
    rw [hquote, List.cons_append, List.append_assoc, List.singleton_append]
  split at h
  · split at h
    · rename_i hnumeral
      cases h
      obtain ⟨hrest, -, -⟩ := run_eq_iff.mp (rfl : run isNumeric rest = _)
      refine ⟨_, ?_, .number (isNumeral_iff.mp hnumeral)⟩
      rw [List.map_cons, List.cons_append, ← hrest]
    · cases h
  · obtain ⟨found, hword, heq⟩ := Option.map_eq_some_iff.mp h
    cases heq
    obtain ⟨word, hmem, hcs⟩ := word?_eq_some_iff.mp hword
    obtain ⟨hrest, -, -⟩ := run_eq_iff.mp (rfl : run Char.isLower rest = _)
    refine ⟨_, ?_, .word hmem⟩
    rw [← hcs, List.map_cons, List.cons_append, ← hrest]

theorem next?_number {c : Char} {cs : List Char} {after : List Symbol} (h : Numeral (c :: cs))
    (hstops : Stops after) :
    next? c (cs.map .char ++ after) = some (.number (String.ofList (c :: cs)), after) := by
  obtain ⟨hc, hcs⟩ := List.forall_mem_cons.mp h.isNumeric
  have hquote : c ≠ '"' := by
    rintro rfl
    cases hc
  have hstart : (decide (c = '-') || c.isDigit) = true := by simpa using h.head
  have hrun := run_eq_iff.mpr ⟨rfl, hcs, fun d hd => (hstops d hd).1⟩
  unfold next?
  rw [single?_eq_none (.inl hc), hrun]
  simp only [hquote, hstart, isNumeral_iff.mpr h, ↓reduceIte]

theorem next?_word {c : Char} {cs : List Char} {after : List Symbol} {lexeme : Lexeme}
    (h : word? (c :: cs) = some lexeme) (hlower : ∀ d ∈ c :: cs, d.isLower = true)
    (hstops : Stops after) : next? c (cs.map .char ++ after) = some (lexeme, after) := by
  obtain ⟨hc, hcs⟩ := List.forall_mem_cons.mp hlower
  have hquote : c ≠ '"' := by
    rintro rfl
    cases hc
  have hstart : (decide (c = '-') || c.isDigit) = false := by
    rw [Bool.or_eq_false_iff, decide_eq_false_iff_not, Bool.eq_false_iff]
    refine ⟨?_, fun hdigit => ?_⟩
    · rintro rfl
      cases hc
    · have hrange : c.toNat ≤ 57 := (Char.isDigit_iff_toNat.mp hdigit).2
      have hletter : 97 ≤ c.val := of_decide_eq_true (Bool.and_eq_true_iff.mp hc).1
      have hle : 97 ≤ c.toNat := UInt32.le_iff_toNat_le.mp hletter
      omega
  have hrun := run_eq_iff.mpr ⟨rfl, hcs, fun d hd => (hstops d hd).2⟩
  unfold next?
  rw [single?_eq_none (.inr hc), hrun]
  simp [hquote, hstart, h]

/-- What spells a lexeme is read as it, unless what follows goes on with it. -/
theorem next?_of_spells {lexeme : Lexeme} {spelling after : List Symbol}
    (h : Spells lexeme spelling) (hstops : lexeme.isMark = true ∨ Stops after) :
    ∃ c rest, spelling ++ after = .char c :: rest ∧ isSpace c = false ∧
      next? c rest = some (lexeme, after) := by
  cases h with
  | @mark c _ hmark =>
    refine ⟨c, after, rfl, (kind_of_mem_marks hmark).1, ?_⟩
    unfold next?
    rw [single?_eq_some_iff.mpr hmark]
  | @word word _ hword =>
    obtain ⟨hne, hlower, hmark⟩ := kind_of_mem_words hword
    have hstops : Stops after := by simpa [hmark] using hstops
    have hread := word?_eq_some_iff.mpr ⟨word, hword, rfl⟩
    obtain ⟨c, cs, hcs⟩ := List.exists_cons_of_ne_nil hne
    rw [hcs] at hlower hread ⊢
    exact ⟨c, _, rfl, isSpace_eq_false (.inr (hlower c List.mem_cons_self)),
      next?_word hread hlower hstops⟩
  | @number cs hnumeral =>
    have hafter : Stops after := hstops.resolve_left Bool.false_ne_true
    cases cs with
    | nil =>
      rcases hnumeral with ⟨hunsigned⟩
      cases hunsigned
    | cons c cs =>
      exact ⟨c, _, rfl, isSpace_eq_false (.inl (hnumeral.isNumeric c List.mem_cons_self)),
        next?_number hnumeral hafter⟩
  | @text body letters hletters =>
    refine ⟨'"', body ++ .char '"' :: after, ?_, rfl, ?_⟩
    · rw [List.cons_append, List.append_assoc, List.singleton_append]
    · show (letters? _).map _ = _
      rw [letters?_append hletters]
      rfl

/-! ## Cuts -/

theorem Cut.append {symbols rest : List Symbol} {lexemes more : List Lexeme}
    (h : Cut symbols lexemes) (hrest : Cut rest more) :
    Cut (symbols ++ rest) (lexemes ++ more) := by
  induction h with
  | nil => exact hrest
  | space hspace _ ih => exact .space hspace ih
  | lexeme hspells _ ih =>
    rw [List.append_assoc]
    exact .lexeme hspells ih

/-- What the lexer finds is a cut. -/
theorem Cut.of_lexemes? {symbols : List Symbol} {lexemes : List Lexeme}
    (h : lexemes? symbols = some lexemes) : Cut symbols lexemes := by
  fun_induction lexemes? symbols generalizing lexemes with
  | case1 =>
    cases h
    exact .nil
  | case2 => cases h
  | case3 c rest hspace ih => exact .space hspace (ih h)
  | case4 => cases h
  | case5 c rest hspace lexeme after hnext ih =>
    obtain ⟨more, hmore, rfl⟩ := Option.map_eq_some_iff.mp h
    obtain ⟨spelling, hsymbols, hspells⟩ := exists_spells_of_next? hnext
    rw [hsymbols]
    exact .lexeme hspells (ih hmore)

/-- What is cut into lexemes of which the first is a bracket or a mark goes on with no lexeme that
stands in front of it. -/
theorem Cut.stops {symbols : List Symbol} {lexemes : List Lexeme} (h : Cut symbols lexemes)
    (hmark : ∀ lexeme ∈ lexemes.head?, lexeme.isMark = true) : Stops symbols := by
  intro c hc
  cases h with
  | nil => cases hc
  | space hspace =>
    cases hc
    exact kind_of_isSpace hspace
  | lexeme hspells =>
    have hmark := hmark _ rfl
    cases hspells with
    | mark hmem =>
      cases hc
      obtain ⟨-, hnumeric, hlower, -⟩ := kind_of_mem_marks hmem
      exact ⟨hnumeric, hlower⟩
    | word hmem =>
      rw [(kind_of_mem_words hmem).2.2] at hmark
      cases hmark
    | number | text => cases hmark

/-- A cut is found by the lexer where of any two neighbours one is a bracket or a mark. -/
theorem Cut.lexemes?_eq_some {symbols : List Symbol} {lexemes : List Lexeme}
    (h : Cut symbols lexemes) (hseparated : Separated lexemes) :
    lexemes? symbols = some lexemes := by
  induction h with
  | nil => rw [lexemes?]
  | space hspace _ ih => rw [lexemes?, if_pos hspace, ih hseparated]
  | @lexeme lexeme spelling rest more hspells hrest ih =>
    obtain ⟨hnext, hmore⟩ := List.isChain_cons.mp hseparated
    have hstops : lexeme.isMark = true ∨ Stops rest := by
      cases hmark : lexeme.isMark with
      | true => exact .inl rfl
      | false =>
        refine .inr (hrest.stops fun next hhead => ?_)
        simpa [hmark] using hnext next hhead
    obtain ⟨c, after, hsymbols, hspace, hread⟩ := next?_of_spells hspells hstops
    rw [hsymbols, lexemes?, hspace]
    simp only [Bool.false_eq_true, ↓reduceIte]
    split
    · rename_i hnone
      rw [hread] at hnone
      cases hnone
    · rename_i found last hsome
      rw [hread] at hsome
      cases hsome
      rw [ih hmore]
      rfl

end TableStore.Json
