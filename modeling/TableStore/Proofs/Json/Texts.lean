import TableStore.Json.Layout
import TableStore.Proofs.Json.Lexemes

/-!
# What texts in JSON spell

A character stands in a text as it is, or it is given by its code units in UTF-16: one, or a
surrogate pair. That is what decoding finds. A text that is written between quotes spells itself.

* `Json.utf16` — the code units of a character.
* `Json.Spell` — letters spell characters.
* `Json.chars?_eq_some_iff`, `Json.decode?_eq_some_iff` — decoding finds what letters spell.
* `Json.Literal` — what spells a text between quotes; `Json.literal_quote` — what is written does.
-/

namespace TableStore.Json

open Utf8 (Symbol)

/-- The code units of a character in UTF-16. -/
def utf16 (c : Char) : List Nat :=
  if c.toNat < 0x10000 then [c.toNat]
  else [0xd800 + (c.toNat - 0x10000) / 0x400, 0xdc00 + (c.toNat - 0x10000) % 0x400]

/-- Letters spell characters, each as it is or by its code units. -/
inductive Spell : List Letter → List Char → Prop where
  | nil : Spell [] []
  | plain (c : Char) {letters : List Letter} {cs : List Char} (hrest : Spell letters cs) :
      Spell (.plain (.char c) :: letters) (c :: cs)
  | units (c : Char) {letters : List Letter} {cs : List Char} (hrest : Spell letters cs) :
      Spell ((utf16 c).map .codeUnit ++ letters) (c :: cs)

/-! ## Characters and code units -/

theorem isLeading_iff {value : Nat} :
    isLeading value = true ↔ 0xd800 ≤ value ∧ value < 0xdc00 := by
  simp [isLeading]

theorem isTrailing_iff {value : Nat} :
    isTrailing value = true ↔ 0xdc00 ≤ value ∧ value < 0xe000 := by
  simp [isTrailing]

/-- No character is half of a surrogate pair. -/
theorem toNat_range (c : Char) : c.toNat < 0xd800 ∨ 0xe000 ≤ c.toNat ∧ c.toNat < 0x110000 := by
  rcases c.valid with h | h
  · exact .inl h
  · obtain ⟨hfirst, hlast⟩ := h
    exact .inr ⟨hfirst, hlast⟩

theorem toNat_ofNat {n : Nat} (h : n < 0xd800 ∨ 0xe000 ≤ n ∧ n < 0x110000) :
    (Char.ofNat n).toNat = n := by
  have hvalid : n.isValidChar := by
    rcases h with h | ⟨hfirst, hlast⟩
    · exact .inl h
    · exact .inr ⟨hfirst, hlast⟩
  rw [Char.ofNat, dif_pos hvalid]
  rfl

theorem chars?_unit {c : Char} {letters : List Letter} (h : c.toNat < 0x10000) :
    chars? (.codeUnit c.toNat :: letters) = (chars? letters).map (c :: ·) := by
  have hrange := toNat_range c
  have hleading : isLeading c.toNat = false := by
    rw [Bool.eq_false_iff, ne_eq, isLeading_iff]
    omega
  have htrailing : isTrailing c.toNat = false := by
    rw [Bool.eq_false_iff, ne_eq, isTrailing_iff]
    omega
  rw [chars?.eq_def]
  simp only [hleading, htrailing, Bool.false_eq_true, ↓reduceIte, Char.ofNat_toNat]

theorem chars?_pair {high low : Nat} {letters : List Letter} (hleading : isLeading high = true)
    (htrailing : isTrailing low = true) :
    chars? (.codeUnit high :: .codeUnit low :: letters) =
      (chars? letters).map
        (Char.ofNat (0x10000 + (high - 0xd800) * 0x400 + (low - 0xdc00)) :: ·) := by
  rw [chars?.eq_def]
  simp only [hleading, htrailing, ↓reduceIte]

/-- The code units of a character are decoded to it. -/
theorem chars?_units (c : Char) (letters : List Letter) :
    chars? ((utf16 c).map .codeUnit ++ letters) = (chars? letters).map (c :: ·) := by
  rw [utf16]
  split
  · rename_i hsmall
    exact chars?_unit hsmall
  · rename_i hlarge
    have hrange := toNat_range c
    have hleading : isLeading (0xd800 + (c.toNat - 0x10000) / 0x400) = true := by
      rw [isLeading_iff]
      omega
    have htrailing : isTrailing (0xdc00 + (c.toNat - 0x10000) % 0x400) = true := by
      rw [isTrailing_iff]
      omega
    have hvalue : 0x10000 + (0xd800 + (c.toNat - 0x10000) / 0x400 - 0xd800) * 0x400 +
        (0xdc00 + (c.toNat - 0x10000) % 0x400 - 0xdc00) = c.toNat := by
      omega
    have hpair := @chars?_pair _ _ letters hleading htrailing
    rw [hvalue, Char.ofNat_toNat] at hpair
    exact hpair

/-- A code unit of 16 bits that is no half of a pair is a character by itself. -/
theorem utf16_unit {value : Nat} (hvalue : value < 0x10000) (hleading : ¬isLeading value = true)
    (htrailing : ¬isTrailing value = true) : utf16 (Char.ofNat value) = [value] := by
  rw [isLeading_iff] at hleading
  rw [isTrailing_iff] at htrailing
  have hchar : (Char.ofNat value).toNat = value := toNat_ofNat (by omega)
  rw [utf16, hchar, if_pos hvalue]

theorem utf16_pair {high low : Nat} (hleading : isLeading high = true)
    (htrailing : isTrailing low = true) :
    utf16 (Char.ofNat (0x10000 + (high - 0xd800) * 0x400 + (low - 0xdc00))) = [high, low] := by
  rw [isLeading_iff] at hleading
  rw [isTrailing_iff] at htrailing
  have hchar := toNat_ofNat (n := 0x10000 + (high - 0xd800) * 0x400 + (low - 0xdc00)) (by omega)
  rw [utf16, hchar, if_neg (by omega)]
  have hhigh : 0xd800 + (0x10000 + (high - 0xd800) * 0x400 + (low - 0xdc00) - 0x10000) / 0x400 =
      high := by
    omega
  have hlow : 0xdc00 + (0x10000 + (high - 0xd800) * 0x400 + (low - 0xdc00) - 0x10000) % 0x400 =
      low := by
    omega
  rw [hhigh, hlow]

/-! ## Decoding -/

theorem chars?_eq_some {letters : List Letter} {cs : List Char} (h : Spell letters cs) :
    chars? letters = some cs := by
  induction h with
  | nil => rfl
  | plain c _ ih => rw [chars?, ih, Option.map_some]
  | units c _ ih => rw [chars?_units, ih, Option.map_some]

/-- The code units are ones of 16 bits, as four hexadecimal digits give them. -/
def SixteenBits (letters : List Letter) : Prop :=
  ∀ value, .codeUnit value ∈ letters → value < 0x10000

theorem Letters.sixteenBits {body : List Symbol} {letters : List Letter}
    (h : Letters body letters) : SixteenBits letters := by
  intro value hvalue
  induction h with
  | nil => cases hvalue
  | stray _ ih | plain _ _ _ _ ih | short _ _ ih =>
    cases hvalue with
    | tail _ hmem => exact ih hmem
  | codeUnit ha hb hc hd _ ih =>
    rcases List.mem_cons.mp hvalue with heq | hmem
    · cases heq
      have hp := ha.1
      have hq := hb.1
      have hr := hc.1
      have hs := hd.1
      omega
    · exact ih hmem

/-- What is decoded is what the letters spell. -/
theorem spell_of_chars? {letters : List Letter} {cs : List Char} (hbits : SixteenBits letters)
    (h : chars? letters = some cs) : Spell letters cs := by
  fun_induction chars? letters generalizing cs with
  | case1 =>
    cases h
    exact .nil
  | case2 c rest ih =>
    obtain ⟨cs, hcs, rfl⟩ := Option.map_eq_some_iff.mp h
    exact .plain c (ih (fun value hmem => hbits value (List.mem_cons_of_mem _ hmem)) hcs)
  | case4 high hleading low rest htrailing ih =>
    obtain ⟨cs, hcs, rfl⟩ := Option.map_eq_some_iff.mp h
    have hrest := ih (fun value hmem =>
      hbits value (List.mem_cons_of_mem _ (List.mem_cons_of_mem _ hmem))) hcs
    have hunits :=
      Spell.units (Char.ofNat (0x10000 + (high - 0xd800) * 0x400 + (low - 0xdc00))) hrest
    rw [utf16_pair hleading htrailing] at hunits
    exact hunits
  | case8 value rest hleading htrailing ih =>
    obtain ⟨cs, hcs, rfl⟩ := Option.map_eq_some_iff.mp h
    have hrest := ih (fun value hmem => hbits value (List.mem_cons_of_mem _ hmem)) hcs
    have hunits := Spell.units (Char.ofNat value) hrest
    rw [utf16_unit (hbits value List.mem_cons_self) hleading htrailing] at hunits
    exact hunits
  | case3 | case5 | case6 | case7 => cases h

theorem decode?_eq_some {letters : List Letter} {s : String} (h : Spell letters s.toList) :
    decode? letters = some s := by
  rw [decode?, chars?_eq_some h, Option.map_some, String.ofList_toList]

/-- Decoding finds what letters spell. -/
theorem decode?_eq_some_iff {letters : List Letter} {s : String} (hbits : SixteenBits letters) :
    decode? letters = some s ↔ Spell letters s.toList := by
  constructor
  · intro h
    obtain ⟨cs, hcs, rfl⟩ := Option.map_eq_some_iff.mp h
    rw [String.toList_ofList]
    exact spell_of_chars? hbits hcs
  · exact decode?_eq_some

/-! ## Texts between quotes -/

/-- What spells a text between quotes: any of the JSON texts that there are for it. -/
inductive Literal (s : String) : List Symbol → Prop where
  | intro {body : List Symbol} {letters : List Letter} (hbody : Letters body letters)
      (hspell : Spell letters s.toList) : Literal s (.char '"' :: (body ++ [.char '"']))

theorem isHex_digitChar {value : Nat} (h : value < 16) : IsHex value.digitChar value :=
  ⟨h, .inl rfl⟩

/-- A control character is written by its code unit. -/
theorem letters_control {c : Char} {rest : List Symbol} {letters : List Letter}
    (hcontrol : c.toNat < 0x20) (hrest : Letters rest letters) :
    Letters (.char '\\' :: .char 'u' :: .char '0' :: .char '0' ::
      .char (Nat.digitChar (c.toNat / 16)) :: .char (Nat.digitChar (c.toNat % 16)) :: rest)
      (.codeUnit c.toNat :: letters) := by
  have hzero : IsHex '0' 0 := isHex_digitChar (by decide)
  have hvalue : ((16 * 0 + 0) * 16 + c.toNat / 16) * 16 + c.toNat % 16 = c.toNat := by omega
  have hhigh : IsHex (Nat.digitChar (c.toNat / 16)) (c.toNat / 16) := isHex_digitChar (by omega)
  have hlow : IsHex (Nat.digitChar (c.toNat % 16)) (c.toNat % 16) := isHex_digitChar (by omega)
  have hletters := Letters.codeUnit hzero hzero hhigh hlow hrest
  rw [hvalue] at hletters
  exact hletters

/-- A character as it is written is a letter that spells it. -/
theorem exists_letter_escape (c : Char) :
    ∃ letter, (∀ {rest : List Symbol} {letters : List Letter}, Letters rest letters →
        Letters ((escape c).map .char ++ rest) (letter :: letters)) ∧
      ∀ {letters : List Letter} {cs : List Char}, Spell letters cs →
        Spell (letter :: letters) (c :: cs) := by
  rw [escape]
  split
  · rename_i hc
    rcases (Bool.or_eq_true_iff.mp hc) with hc | hc <;> obtain rfl := of_decide_eq_true hc <;>
      exact ⟨.plain (.char _), .short (by decide), .plain _⟩
  split
  · subst c
    exact ⟨.plain (.char _), .short (by decide), .plain _⟩
  split
  · subst c
    exact ⟨.plain (.char _), .short (by decide), .plain _⟩
  split
  · subst c
    exact ⟨.plain (.char _), .short (by decide), .plain _⟩
  split
  · subst c
    exact ⟨.plain (.char _), .short (by decide), .plain _⟩
  split
  · subst c
    exact ⟨.plain (.char _), .short (by decide), .plain _⟩
  split
  · rename_i hcontrol
    refine ⟨.codeUnit c.toNat, letters_control hcontrol, fun hrest => ?_⟩
    have hunits := Spell.units c hrest
    rw [utf16, if_pos (by omega)] at hunits
    exact hunits
  · rename_i hspecial _ _ _ _ _ hcontrol
    rw [Bool.or_eq_true_iff, not_or, decide_eq_true_eq, decide_eq_true_eq] at hspecial
    exact ⟨.plain (.char c), .plain hspecial.1 hspecial.2 (Nat.not_lt.mp hcontrol), .plain c⟩

/-- What is written between quotes spells the text. -/
theorem exists_letters_escape (cs : List Char) :
    ∃ letters, Letters ((cs.flatMap escape).map .char) letters ∧ Spell letters cs := by
  induction cs with
  | nil => exact ⟨[], .nil, .nil⟩
  | cons c cs ih =>
    obtain ⟨letters, hletters, hspell⟩ := ih
    obtain ⟨letter, hletter, hchar⟩ := exists_letter_escape c
    refine ⟨letter :: letters, ?_, hchar hspell⟩
    rw [List.flatMap_cons, List.map_append]
    exact hletter hletters

theorem literal_quote (s : String) : Literal s ((quote s).map .char) := by
  obtain ⟨letters, hletters, hspell⟩ := exists_letters_escape s.toList
  have hliteral := Literal.intro hletters hspell
  rw [quote, List.map_cons, List.map_append]
  exact hliteral

end TableStore.Json
