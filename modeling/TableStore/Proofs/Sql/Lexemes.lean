import Mathlib.Tactic.FinCases
import TableStore.Data.Comparison
import TableStore.Proofs.Text.Decimal
import TableStore.Proofs.Traversal
import TableStore.Sql.Lexer

/-!
# What the tokens of a text are

A text has the tokens that it spells: lexemes one after the other, with blanks between them where
they are wanted, each lexeme going on as far as it can.

* `Sql.IsName`, `Sql.Lexeme` — names, and the characters that spell a token.
* `Sql.Stops` — a token cannot go on with what follows its lexeme.
* `Sql.Spelled` — a text spells tokens.
* `Sql.Lexer.next_ok_iff`, `Sql.Lexer.tokens_ok_iff` — the lexer finds just these.
-/

namespace TableStore.Sql

open Lexer

/-! ## Lexemes -/

/-- A word: a letter or an underscore, and then letters, digits and underscores. -/
inductive IsWord : List Char → Prop where
  | word {c : Char} {rest : List Char} (hstart : isWordStart c = true)
      (hrest : ∀ d ∈ rest, isWordPart d = true) : IsWord (c :: rest)

/-- The characters are those of a reserved word in some mix of letter case. -/
def Recases (lexeme : List Char) (keyword : String) : Prop :=
  lexeme.map Char.toUpper = keyword.toList

/-- A word that is not reserved in any mix of letter case. -/
structure IsName (lexeme : List Char) : Prop where
  isWord : IsWord lexeme
  not_keyword : ∀ keyword ∈ keywords, ¬Recases lexeme keyword

/-- The marks that are tokens by themselves. -/
def marks : List (Char × Token.Kind) :=
  [(',', .comma), ('(', .leftParen), (')', .rightParen), (';', .semicolon), ('*', .asterisk),
   ('.', .dot)]

/-- The characters that spell a token. -/
inductive Lexeme : Token → List Char → Prop where
  | keyword {word : String} {lexeme : List Char} (hword : word ∈ keywords)
      (hcase : Recases lexeme word) : Lexeme ⟨.keyword, word⟩ lexeme
  | name {lexeme : List Char} (hname : IsName lexeme) :
      Lexeme ⟨.identifier, String.ofList lexeme⟩ lexeme
  | number {digits : List Char} {value : Nat} (hdigits : Decimal.Digits digits value)
      (hle : value ≤ Decimal.greatest) : Lexeme ⟨.number, String.ofList digits⟩ digits
  | text {quote : Char} {body : List Char} (hquote : quote = '\'' ∨ quote = '"')
      (hbody : quote ∉ body) : Lexeme ⟨.text, String.ofList body⟩ (quote :: (body ++ [quote]))
  | operator (op : Comparison) : Lexeme ⟨.operator, op.symbol⟩ op.symbol.toList
  | mark {c : Char} {kind : Token.Kind} (hmark : (c, kind) ∈ marks) :
      Lexeme ⟨kind, String.singleton c⟩ [c]

/-- A token cannot go on with what follows its lexeme. -/
def Stops (token : Token) (after : List Char) : Prop :=
  match token.kind with
  | .keyword | .identifier => ∀ c ∈ after.head?, isWordPart c = false
  | .number => ∀ c ∈ after.head?, c.isDigit = false
  | .operator => token.text = "<" ∨ token.text = ">" → after.head? ≠ some '='
  | _ => True

/-- A text spells tokens, with blanks before, between and behind them. -/
inductive Spelled : List Char → List Token → Prop where
  | done {blanks : List Char} (hblanks : ∀ c ∈ blanks, Text.isBlank c = true) : Spelled blanks []
  | token {blanks lexeme after : List Char} {token : Token} {tokens : List Token}
      (hblanks : ∀ c ∈ blanks, Text.isBlank c = true) (hlexeme : Lexeme token lexeme)
      (hstops : Stops token after) (hafter : Spelled after tokens) :
      Spelled (blanks ++ (lexeme ++ after)) (token :: tokens)

/-! ## Kinds of characters -/

theorem isDigit_iff {c : Char} : c.isDigit = true ↔ 48 ≤ c.toNat ∧ c.toNat ≤ 57 :=
  Char.isDigit_iff_toNat

theorem isWordStart_iff {c : Char} : isWordStart c = true ↔
    (65 ≤ c.toNat ∧ c.toNat ≤ 90) ∨ (97 ≤ c.toNat ∧ c.toNat ≤ 122) ∨ c.toNat = 95 := by
  have hunderscore : (c == '_') = true ↔ c.toNat = 95 := by
    rw [beq_iff_eq, ← Char.toNat_inj]
    rfl
  rw [isWordStart, Bool.or_eq_true, hunderscore]
  delta Char.isAlpha Char.isUpper Char.isLower
  simp only [UInt32.le_iff_toNat_le]
  simp
  omega

theorem isWordPart_iff {c : Char} :
    isWordPart c = true ↔ isWordStart c = true ∨ c.isDigit = true := by
  simp only [isWordPart, Char.isAlphanum, isWordStart, Bool.or_eq_true]
  exact or_right_comm

/-- No word starts with a digit. -/
theorem isDigit_of_isWordStart {c : Char} (h : isWordStart c = true) : c.isDigit = false := by
  rw [isWordStart_iff] at h
  rw [Bool.eq_false_iff]
  intro hdigit
  rw [isDigit_iff] at hdigit
  omega

theorem IsWord.isWordStart_head {c : Char} {rest : List Char} (h : IsWord (c :: rest)) :
    isWordStart c = true := by
  cases h with
  | word hstart => exact hstart

/-- No word has a blank in it. -/
theorem isBlank_of_isWordPart {c : Char} (h : isWordPart c = true) : Text.isBlank c = false := by
  rw [isWordPart_iff, isWordStart_iff, isDigit_iff] at h
  simp [Text.isBlank]
  omega

/-! ## Single tokens -/

namespace Lexer

variable {c : Char} {rest after : List Char} {token : Token}

theorem quotedText_ok_iff {quote : Char} :
    quotedText quote rest = .ok token after ↔
      ∃ body, rest = body ++ quote :: after ∧ quote ∉ body ∧
        token = ⟨.text, String.ofList body⟩ := by
  unfold quotedText
  constructor
  · intro h
    -- the lexer cuts the text at the first quote
    have hcut : rest = rest.takeWhile (· ≠ quote) ++ rest.dropWhile (· ≠ quote) ∧ _ :=
      takeWhile_dropWhile_iff.mp ⟨rfl, rfl⟩
    obtain ⟨hrest, hbody, hclose⟩ := hcut
    cases hafter : rest.dropWhile (· ≠ quote) with
    | nil =>
      rw [hafter] at h
      cases h
    | cons d tail =>
      rw [hafter] at h
      cases h
      obtain rfl : d = quote := by
        have hd := hclose d (by rw [hafter]; rfl)
        simpa using hd
      refine ⟨_, hafter ▸ hrest, fun hmem => ?_, rfl⟩
      have hd := hbody d hmem
      simp at hd
  · rintro ⟨body, rfl, hbody, rfl⟩
    -- a body without quotes is the part before the first one
    have hcut : (body ++ quote :: after).takeWhile (· ≠ quote) = body ∧
        (body ++ quote :: after).dropWhile (· ≠ quote) = quote :: after := by
      refine takeWhile_dropWhile_iff.mpr ⟨rfl, fun c hc => ?_, fun c hc => ?_⟩
      · have hne : c ≠ quote := fun heq => hbody (heq ▸ hc)
        simpa using hne
      · obtain rfl : quote = c := by simpa using hc
        simp
    rw [hcut.1, hcut.2]

/-- Digits are read as an integer unless there are none or their number is too great. -/
theorem read_digits_iff {digits : List Char} (hdigits : ∀ c ∈ digits, c.isDigit = true) :
    (∃ n, Decimal.read digits = .ok n) ↔
      ∃ value, Decimal.Digits digits value ∧ value ≤ Decimal.greatest := by
  constructor
  · rintro ⟨n, hread⟩
    have hnumeral := Decimal.read_ok_iff.mp hread
    have hvalue : Decimal.Digits digits (Nat.ofDigitChars 10 digits 0) := by
      refine ⟨?_, hdigits, rfl⟩
      rintro rfl
      cases hread
    have hle := n.toInt_lt
    rw [hvalue.toInt_eq hnumeral] at hle
    exact ⟨_, hvalue, by rw [Decimal.greatest]; omega⟩
  · rintro ⟨value, hvalue, hle⟩
    rw [Decimal.greatest] at hle
    have hint : (Int64.ofInt value).toInt = value :=
      Int64.toInt_ofInt_of_le (by omega) (by omega)
    exact ⟨_, Decimal.read_ok_iff.mpr (.plain hvalue hint)⟩

theorem number_ok_iff {cs : List Char} :
    number cs = .ok token after ↔
      ∃ digits value, cs = digits ++ after ∧ Decimal.Digits digits value ∧
        value ≤ Decimal.greatest ∧ (∀ c ∈ after.head?, c.isDigit = false) ∧
        token = ⟨.number, String.ofList digits⟩ := by
  unfold number
  constructor
  · intro h
    have hcut : cs = cs.takeWhile Char.isDigit ++ cs.dropWhile Char.isDigit ∧ _ :=
      takeWhile_dropWhile_iff.mp ⟨rfl, rfl⟩
    obtain ⟨hcs, hdigits, hafter⟩ := hcut
    cases hread : Decimal.read (cs.takeWhile Char.isDigit) with
    | error fault => simp [hread] at h
    | ok n =>
      simp only [hread, EStateM.Result.ok.injEq] at h
      obtain ⟨rfl, rfl⟩ := h
      obtain ⟨value, hvalue, hle⟩ := (read_digits_iff hdigits).mp ⟨n, hread⟩
      exact ⟨_, value, hcs, hvalue, hle, hafter, rfl⟩
  · rintro ⟨digits, value, hcs, hvalue, hle, hafter, rfl⟩
    obtain ⟨hrun, hrest⟩ := (takeWhile_dropWhile_iff (p := Char.isDigit)).mpr
      ⟨hcs, hvalue.isDigit, hafter⟩
    obtain ⟨n, hread⟩ := (read_digits_iff hvalue.isDigit).mpr ⟨value, hvalue, hle⟩
    simp only [hrun, hrest, hread]

theorem exists_operator_of_ok (hc : c = '!' ∨ c = '<' ∨ c = '>' ∨ c = '=')
    (h : operator c rest = .ok token after) :
    ∃ op : Comparison, c :: rest = op.symbol.toList ++ after ∧ token = ⟨.operator, op.symbol⟩ ∧
      Stops token after := by
  unfold operator at h
  split at h
  · -- two characters, unless the first one is an operator by itself
    split at h
    · rename_i heq
      cases h
      exact ⟨.equal, by rw [heq]; rfl, rfl, by simp [Stops]⟩
    · rename_i hne
      cases h
      rcases hc with rfl | rfl | rfl | rfl
      · exact ⟨.notEqual, rfl, rfl, by simp [Stops]⟩
      · exact ⟨.atMost, rfl, rfl, by simp [Stops]⟩
      · exact ⟨.atLeast, rfl, rfl, by simp [Stops]⟩
      · exact absurd rfl hne
  · -- one character, and no equals sign behind it
    rename_i hnext
    have hafter : rest.head? ≠ some '=' := by
      intro hhead
      obtain ⟨tail, rfl⟩ := List.head?_eq_some_iff.mp hhead
      exact hnext tail rfl
    split at h
    · cases h
    · rename_i hne
      cases h
      rcases hc with rfl | rfl | rfl | rfl
      · exact absurd rfl hne
      · exact ⟨.less, rfl, rfl, fun _ => hafter⟩
      · exact ⟨.greater, rfl, rfl, fun _ => hafter⟩
      · exact ⟨.equal, rfl, rfl, fun _ => hafter⟩

theorem operator_symbol {op : Comparison} (h : c :: rest = op.symbol.toList ++ after)
    (hstops : Stops ⟨.operator, op.symbol⟩ after) :
    operator c rest = .ok ⟨.operator, op.symbol⟩ after := by
  cases op with
  | equal =>
    obtain ⟨rfl, rfl⟩ : c = '=' ∧ rest = after := List.cons.inj h
    unfold operator
    split <;> rfl
  | less =>
    obtain ⟨rfl, rfl⟩ : c = '<' ∧ rest = after := List.cons.inj h
    have hafter := hstops (.inl rfl)
    unfold operator
    split
    · exact absurd rfl hafter
    · rfl
  | greater =>
    obtain ⟨rfl, rfl⟩ : c = '>' ∧ rest = after := List.cons.inj h
    have hafter := hstops (.inr rfl)
    unfold operator
    split
    · exact absurd rfl hafter
    · rfl
  | notEqual =>
    obtain ⟨rfl, rfl⟩ : c = '!' ∧ rest = '=' :: after := List.cons.inj h
    rfl
  | atMost =>
    obtain ⟨rfl, rfl⟩ : c = '<' ∧ rest = '=' :: after := List.cons.inj h
    rfl
  | atLeast =>
    obtain ⟨rfl, rfl⟩ : c = '>' ∧ rest = '=' :: after := List.cons.inj h
    rfl

theorem stops_ofWord {word : List Char} :
    Stops (Token.ofWord word) after ↔ ∀ c ∈ after.head?, isWordPart c = false := by
  have hkind : (Token.ofWord word).kind = .keyword ∨ (Token.ofWord word).kind = .identifier := by
    unfold Token.ofWord
    dsimp only
    split
    · exact .inl rfl
    · exact .inr rfl
  unfold Stops
  rcases hkind with hkind | hkind <;> rw [hkind]

/-- A word spells the token that the lexer makes of it. -/
theorem lexeme_ofWord {word : List Char} (h : IsWord word) : Lexeme (Token.ofWord word) word := by
  unfold Token.ofWord
  dsimp only
  split
  · rename_i hmem
    have hcase : Recases word (String.ofList (word.map Char.toUpper)) := String.toList_ofList.symm
    exact .keyword hmem hcase
  · rename_i hnot
    refine .name ⟨h, fun keyword hkeyword hcase => ?_⟩
    rw [show word.map Char.toUpper = keyword.toList from hcase, String.ofList_toList] at hnot
    exact hnot hkeyword

/-- Reserved words are made of capital letters. -/
theorem isUpper_of_mem_keywords {keyword : String} (h : keyword ∈ keywords) :
    keyword.toList ≠ [] ∧ ∀ c ∈ keyword.toList, c.isUpper = true := by
  have hcapitals : keywords.all (fun keyword => keyword.toList.all Char.isUpper) = true := by
    decide
  have hempty : "" ∉ keywords := by decide
  refine ⟨fun hnil => ?_, List.all_eq_true.mp (List.all_eq_true.mp hcapitals keyword h)⟩
  rw [String.toList_eq_nil_iff.mp hnil] at h
  exact hempty h

theorem isAlpha_eq (c : Char) : c.isAlpha = (c.isUpper || c.isLower) :=
  rfl

/-- Only a letter has a capital letter for its upper case. -/
theorem isWordStart_of_toUpper (h : c.toUpper.isUpper = true) : isWordStart c = true := by
  unfold Char.toUpper at h
  split at h
  · -- a small letter is a letter as it stands
    rename_i hlower
    have hlower : c.isLower = true :=
      Bool.and_eq_true_iff.mpr ⟨decide_eq_true hlower.1, decide_eq_true hlower.2⟩
    rw [isWordStart, isAlpha_eq, hlower, Bool.or_true, Bool.true_or]
  · rw [isWordStart, isAlpha_eq, h, Bool.true_or, Bool.true_or]

/-- A reserved word in any mix of letter case is a word. -/
theorem isWord_of_recases {lexeme : List Char} {keyword : String} (hmem : keyword ∈ keywords)
    (hcase : Recases lexeme keyword) : IsWord lexeme := by
  obtain ⟨hne, hupper⟩ := isUpper_of_mem_keywords hmem
  have hstart : ∀ c ∈ lexeme, isWordStart c = true := by
    intro c hc
    refine isWordStart_of_toUpper (hupper _ ?_)
    rw [← show lexeme.map Char.toUpper = keyword.toList from hcase]
    exact List.mem_map_of_mem hc
  cases lexeme with
  | nil => exact absurd (show [] = keyword.toList from hcase).symm hne
  | cons c rest =>
    refine .word (hstart c List.mem_cons_self) fun d hd => ?_
    exact isWordPart_iff.mpr (.inl (hstart d (List.mem_cons_of_mem c hd)))

/-- What spells a reserved word or a name is a word, and the lexer makes the token of it. -/
theorem ofWord_of_lexeme {lexeme : List Char} (h : Lexeme token lexeme)
    (hkind : token.kind = .keyword ∨ token.kind = .identifier) :
    IsWord lexeme ∧ Token.ofWord lexeme = token := by
  cases h with
  | @keyword word lexeme hword hcase =>
    have hupper : String.ofList (lexeme.map Char.toUpper) = word := by
      rw [show lexeme.map Char.toUpper = word.toList from hcase, String.ofList_toList]
    refine ⟨isWord_of_recases hword hcase, ?_⟩
    unfold Token.ofWord
    dsimp only
    rw [hupper, if_pos hword]
  | name hname =>
    have hnot : String.ofList (lexeme.map Char.toUpper) ∉ keywords := by
      intro hmem
      exact hname.not_keyword _ hmem String.toList_ofList.symm
    refine ⟨hname.isWord, ?_⟩
    unfold Token.ofWord
    dsimp only
    rw [if_neg hnot]
  | number | text | operator => simp at hkind
  | mark hmark =>
    unfold marks at hmark
    fin_cases hmark <;> simp at hkind

theorem punctuation?_eq_some_iff {kind : Token.Kind} :
    punctuation? c = some kind ↔ (c, kind) ∈ marks := by
  constructor
  · intro h
    unfold punctuation? at h
    split at h <;> cases h <;> decide
  · intro h
    unfold marks at h
    fin_cases h <;> rfl

theorem stops_mark {kind : Token.Kind} {text : String} (h : (c, kind) ∈ marks) :
    Stops ⟨kind, text⟩ after := by
  unfold marks at h
  fin_cases h <;> exact trivial

theorem exists_lexeme_of_next (h : next c rest = .ok token after) :
    ∃ lexeme, c :: rest = lexeme ++ after ∧ Lexeme token lexeme ∧ Stops token after := by
  -- the branches are those of the lexer, in its order
  unfold next at h
  split at h
  · rename_i hquote
    obtain ⟨body, rfl, hbody, rfl⟩ := quotedText_ok_iff.mp h
    exact ⟨c :: (body ++ [c]), by simp, .text (by simpa using hquote) hbody, trivial⟩
  split at h
  · obtain ⟨digits, value, hcs, hdigits, hle, hafter, rfl⟩ := number_ok_iff.mp h
    exact ⟨digits, hcs, .number hdigits hle, hafter⟩
  split at h
  · rename_i hop
    obtain ⟨op, hcs, rfl, hstops⟩ := exists_operator_of_ok (by simpa [or_assoc] using hop) h
    exact ⟨_, hcs, .operator op, hstops⟩
  split at h
  · rename_i hstart
    cases h
    have hcut : rest = rest.takeWhile isWordPart ++ rest.dropWhile isWordPart ∧ _ :=
      takeWhile_dropWhile_iff.mp ⟨rfl, rfl⟩
    obtain ⟨hrest, hpart, hafter⟩ := hcut
    have hword : IsWord (c :: rest.takeWhile isWordPart) := .word hstart hpart
    exact ⟨_, congrArg (c :: ·) hrest, lexeme_ofWord hword, stops_ofWord.mpr hafter⟩
  cases hkind : punctuation? c with
  | none => simp [hkind] at h
  | some kind =>
    simp only [hkind, EStateM.Result.ok.injEq] at h
    obtain ⟨rfl, rfl⟩ := h
    have hmark := punctuation?_eq_some_iff.mp hkind
    exact ⟨[c], rfl, .mark hmark, stops_mark hmark⟩

theorem next_digit (h : c.isDigit = true) : next c rest = number (c :: rest) := by
  have hquote : ¬(decide (c = '\'') || decide (c = '"')) = true := by
    simp only [Bool.or_eq_true, decide_eq_true_eq]
    rintro (rfl | rfl) <;> exact absurd h (by decide)
  rw [next, if_neg hquote, if_pos h]

theorem next_word (h : isWordStart c = true) :
    next c rest = .ok (Token.ofWord (c :: rest.takeWhile isWordPart))
      (rest.dropWhile isWordPart) := by
  have hquote : ¬(decide (c = '\'') || decide (c = '"')) = true := by
    simp only [Bool.or_eq_true, decide_eq_true_eq]
    rintro (rfl | rfl) <;> exact absurd h (by decide)
  have hdigit : ¬c.isDigit = true := Bool.eq_false_iff.mp (isDigit_of_isWordStart h)
  have hop : ¬(decide (c = '!') || decide (c = '<') || decide (c = '>') || decide (c = '=')) =
      true := by
    simp only [Bool.or_eq_true, decide_eq_true_eq]
    rintro (((rfl | rfl) | rfl) | rfl) <;> exact absurd h (by decide)
  rw [next, if_neg hquote, if_neg hdigit, if_neg hop, if_pos h]

/-- A word is read to its end. -/
theorem next_of_isWord {lexeme : List Char} (h : IsWord lexeme) (hcs : c :: rest = lexeme ++ after)
    (hstops : Stops (Token.ofWord lexeme) after) :
    next c rest = .ok (Token.ofWord lexeme) after := by
  cases h with
  | @word d word hstart hpart =>
    obtain ⟨rfl, hrest⟩ := List.cons.inj hcs
    obtain ⟨hrun, hafter⟩ := takeWhile_dropWhile_iff.mpr ⟨hrest, hpart, stops_ofWord.mp hstops⟩
    rw [next_word hstart, hrun, hafter]

/-- A single token is read where its lexeme stands and the token stops behind it. -/
theorem next_ok_iff :
    next c rest = .ok token after ↔
      ∃ lexeme, c :: rest = lexeme ++ after ∧ Lexeme token lexeme ∧ Stops token after := by
  refine ⟨exists_lexeme_of_next, ?_⟩
  rintro ⟨lexeme, hcs, hlexeme, hstops⟩
  -- reserved words and names are read alike
  by_cases hkind : token.kind = .keyword ∨ token.kind = .identifier
  · obtain ⟨hword, rfl⟩ := ofWord_of_lexeme hlexeme hkind
    exact next_of_isWord hword hcs hstops
  cases hlexeme with
  | keyword | name => simp at hkind
  | number hdigits hle =>
    cases lexeme with
    | nil => exact absurd rfl hdigits.ne_nil
    | cons d digits =>
      obtain ⟨rfl, -⟩ := List.cons.inj hcs
      rw [next_digit (hdigits.isDigit c List.mem_cons_self), number_ok_iff]
      exact ⟨_, _, hcs, hdigits, hle, hstops, rfl⟩
  | @text quote body hquote hbody =>
    obtain ⟨rfl, hrest⟩ := List.cons.inj hcs
    rw [next, if_pos (by simpa using hquote), quotedText_ok_iff]
    exact ⟨body, by simpa using hrest, hbody, rfl⟩
  | operator op =>
    have hop : c = '!' ∨ c = '<' ∨ c = '>' ∨ c = '=' := by
      cases op <;> obtain ⟨rfl, -⟩ := List.cons.inj hcs <;> decide
    have hread := operator_symbol hcs hstops
    unfold next
    rcases hop with rfl | rfl | rfl | rfl <;> exact hread
  | @mark d kind hmark =>
    obtain ⟨rfl, rfl⟩ : c = d ∧ rest = after := List.cons.inj hcs
    unfold marks at hmark
    fin_cases hmark <;> rfl

/-! ## Whole texts -/

/-- A word starts with a character that is no blank. -/
theorem exists_cons_of_isWord {lexeme : List Char} (h : IsWord lexeme) :
    ∃ c rest, lexeme = c :: rest ∧ Text.isBlank c = false := by
  cases h with
  | @word c rest hstart =>
    exact ⟨c, rest, rfl, isBlank_of_isWordPart (isWordPart_iff.mpr (.inl hstart))⟩

/-- A lexeme starts with a character that is no blank. -/
theorem exists_cons_of_lexeme {lexeme : List Char} (h : Lexeme token lexeme) :
    ∃ c rest, lexeme = c :: rest ∧ Text.isBlank c = false := by
  cases h with
  | keyword hword hcase => exact exists_cons_of_isWord (isWord_of_recases hword hcase)
  | name hname => exact exists_cons_of_isWord hname.isWord
  | number hdigits =>
    cases lexeme with
    | nil => exact absurd rfl hdigits.ne_nil
    | cons d digits =>
      have hdigit := hdigits.isDigit d List.mem_cons_self
      exact ⟨d, digits, rfl, isBlank_of_isWordPart (isWordPart_iff.mpr (.inr hdigit))⟩
  | text hquote => rcases hquote with rfl | rfl <;> exact ⟨_, _, rfl, by decide⟩
  | operator op => cases op <;> exact ⟨_, _, rfl, by decide⟩
  | mark hmark =>
    unfold marks at hmark
    fin_cases hmark <;> exact ⟨_, _, rfl, by decide⟩

/-- Reading a text, without the reason why the reading ends. -/
theorem tokens_eq (cs : List Char) :
    tokens cs =
      match cs.dropWhile Text.isBlank with
      | [] => .ok [] []
      | c :: rest =>
        match next c rest with
        | .error cause after => .error cause after
        | .ok token after =>
          match tokens after with
          | .ok more last => .ok (token :: more) last
          | .error cause last => .error cause last := by
  rw [tokens]
  split
  · rename_i hcs
    rw [hcs]
  · rename_i hcs
    rw [hcs]
    dsimp only
    split
    · rename_i hnext
      simp only [hnext]
    · rename_i token after hnext
      cases htokens : tokens after <;> simp only [hnext, htokens]

/-- The lexer reads a text to its end and finds the tokens that it spells, or it refuses the text. -/
theorem tokens_ok_iff {cs last : List Char} {found : List Token} :
    tokens cs = .ok found last ↔ last = [] ∧ Spelled cs found := by
  constructor
  · intro h
    induction hlength : cs.length using Nat.strong_induction_on generalizing cs found with
    | _ length ih =>
      have hcut : cs = cs.takeWhile Text.isBlank ++ cs.dropWhile Text.isBlank ∧ _ :=
        takeWhile_dropWhile_iff.mp ⟨rfl, rfl⟩
      obtain ⟨hcs, hblanks, -⟩ := hcut
      have hle := length_dropWhile_le Text.isBlank cs
      rw [tokens_eq] at h
      cases hdrop : cs.dropWhile Text.isBlank with
      | nil =>
        rw [hdrop] at h hcs
        cases h
        rw [hcs, List.append_nil]
        exact ⟨rfl, .done hblanks⟩
      | cons c rest =>
        rw [hdrop] at h hcs hle
        dsimp only at h
        cases hnext : next c rest with
        | error cause after => simp [hnext] at h
        | ok token after =>
          -- what follows the token is shorter than the text
          have hshort := next_rest_length_le hnext
          obtain ⟨lexeme, hrest, hlexeme, hstops⟩ := next_ok_iff.mp hnext
          rw [List.length_cons] at hle
          cases hafter : tokens after with
          | error cause last' => simp [hnext, hafter] at h
          | ok more last' =>
            simp only [hnext, hafter, EStateM.Result.ok.injEq] at h
            obtain ⟨rfl, rfl⟩ := h
            obtain ⟨hend, hmore⟩ := ih after.length (by omega) hafter rfl
            refine ⟨hend, ?_⟩
            rw [hcs, hrest]
            exact .token hblanks hlexeme hstops hmore
  · rintro ⟨rfl, h⟩
    induction h with
    | done hblanks =>
      rw [tokens_eq, List.dropWhile_eq_nil_iff.mpr hblanks]
    | token hblanks hlexeme hstops hafter ih =>
      obtain ⟨c, rest, rfl, hblank⟩ := exists_cons_of_lexeme hlexeme
      have hnext : next c (rest ++ _) = _ := next_ok_iff.mpr ⟨c :: rest, rfl, hlexeme, hstops⟩
      rw [tokens_eq, List.dropWhile_append_of_pos hblanks, List.cons_append,
        List.dropWhile_cons_of_neg (by simp [hblank])]
      simp only [hnext, ih]

end Lexer

end TableStore.Sql
