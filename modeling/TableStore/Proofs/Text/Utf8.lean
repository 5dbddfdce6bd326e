import Mathlib.Tactic.SplitIfs
import TableStore.Text.Utf8

/-!
# The bytes of a text

The bytes of a text spell its characters and nothing else, wherever the text stands. And bytes that
spell characters only are the bytes of a text, so that no two sequences of bytes are read as one text.

* `Utf8.bytes` — the bytes of a text.
* `Utf8.symbols_bytes` — what they spell.
* `Utf8.text?_eq_some_iff` — a text is read from its own bytes and from no others.
* `Utf8.feed_mem_bytes_iff` — the byte of a line feed stands for nothing else.
-/

namespace TableStore.Utf8

/-- The bytes of a text. -/
def bytes (text : String) : List UInt8 :=
  text.toUTF8.data.toList

theorem bytes_eq_flatMap (text : String) :
    bytes text = text.toList.flatMap String.utf8EncodeChar := by
  unfold bytes
  conv => lhs; rw [← String.ofList_toList (s := text)]
  rw [String.toUTF8_eq_toByteArray, String.toByteArray_ofList, List.utf8Encode,
    List.data_toByteArray]

/-- The bytes of a character spell it, whatever follows them. -/
theorem symbols_encode_append (c : Char) (rest : List UInt8) :
    symbols (String.utf8EncodeChar c ++ rest) = .char c :: symbols rest := by
  obtain ⟨byte, more, hbytes⟩ := List.exists_cons_of_ne_nil (String.utf8EncodeChar_ne_nil (c := c))
  have hlength : more.length + 1 = c.utf8Size := by
    rw [← String.length_utf8EncodeChar, hbytes, List.length_cons]
  have hfour := c.utf8Size_le_four
  -- four bytes are enough for the character, and those behind it do not matter
  have htake : (byte :: (more ++ rest)).take 4 =
      String.utf8EncodeChar c ++ rest.take (4 - c.utf8Size) := by
    rw [← List.cons_append, ← hbytes, List.take_append, String.length_utf8EncodeChar,
      List.take_of_length_le (by rw [String.length_utf8EncodeChar]; exact hfour)]
  have hdecode : ((byte :: (more ++ rest)).take 4).toByteArray.utf8DecodeChar? 0 = some c := by
    rw [htake, List.toByteArray_append]
    exact ByteArray.utf8DecodeChar?_utf8EncodeChar_append
  have hdrop : (more ++ rest).drop (c.utf8Size - 1) = rest := by
    rw [← hlength, Nat.add_sub_cancel, List.drop_left]
  rw [hbytes, List.cons_append, symbols]
  simp only [hdecode, hdrop]

/-- The bytes of a text spell its characters. -/
theorem symbols_bytes (text : String) : symbols (bytes text) = text.toList.map .char := by
  rw [bytes_eq_flatMap]
  induction text.toList with
  | nil => rw [List.flatMap_nil, symbols, List.map_nil]
  | cons c cs ih => rw [List.flatMap_cons, symbols_encode_append, ih, List.map_cons]

/-! ## Reading a text back -/

/-- Bytes from which a character is decoded start with the bytes of this character. -/
theorem exists_of_utf8DecodeChar? {bs : List UInt8} {c : Char}
    (h : (bs.take 4).toByteArray.utf8DecodeChar? 0 = some c) :
    bs = String.utf8EncodeChar c ++ bs.drop c.utf8Size := by
  obtain ⟨more, hmore⟩ := ByteArray.exists_of_utf8DecodeChar?_eq_some h
  have htake : bs.take 4 = String.utf8EncodeChar c ++ more.data.toList := by
    have hdata := congrArg (fun array : ByteArray => array.data.toList) hmore
    simpa using hdata
  -- the character is as long as the bytes that are dropped
  have hprefix : String.utf8EncodeChar c <+: bs :=
    (htake ▸ List.prefix_append _ _).trans (List.take_prefix 4 bs)
  obtain ⟨rest, hrest⟩ := hprefix
  rw [← hrest, ← String.length_utf8EncodeChar, List.drop_left]

/-- Bytes that spell characters only are the bytes of these characters. -/
theorem eq_of_chars?_symbols {bs : List UInt8} {cs : List Char}
    (h : chars? (symbols bs) = some cs) : bs = cs.flatMap String.utf8EncodeChar := by
  fun_induction symbols bs generalizing cs with
  | case1 =>
    cases h
    rfl
  | case2 byte rest c hdecode ih =>
    rw [chars?] at h
    obtain ⟨cs', hcs', rfl⟩ := Option.map_eq_some_iff.mp h
    rw [List.flatMap_cons, ← ih hcs']
    have hbytes := exists_of_utf8DecodeChar? hdecode
    -- the first byte is the character's first one
    have hsize : c.utf8Size = c.utf8Size - 1 + 1 := by
      have hpos := c.utf8Size_pos
      omega
    rw [hsize, List.drop_succ_cons] at hbytes
    exact hbytes
  | case3 byte rest hnone ih => cases h

theorem chars?_map_char (cs : List Char) : chars? (cs.map .char) = some cs := by
  induction cs with
  | nil => rfl
  | cons c cs ih => rw [List.map_cons, chars?, ih, Option.map_some]

/-- A text is read from its own bytes and from no others. -/
theorem text?_eq_some_iff {bs : List UInt8} {text : String} :
    text? bs = some text ↔ bs = bytes text := by
  unfold text?
  constructor
  · intro h
    obtain ⟨cs, hcs, rfl⟩ := Option.map_eq_some_iff.mp h
    rw [bytes_eq_flatMap, String.toList_ofList]
    exact eq_of_chars?_symbols hcs
  · rintro rfl
    rw [symbols_bytes, chars?_map_char, Option.map_some, String.ofList_toList]

/-! ## Line feeds -/

/-- Only a line feed has the byte of a line feed. -/
theorem feed_mem_encode_iff {c : Char} : 0x0a ∈ String.utf8EncodeChar c ↔ c = '\n' := by
  constructor
  · intro h
    have hfeed : (0x0a : UInt8).toNat = 10 := rfl
    rw [← Char.toNat_inj]
    show c.val.toNat = 10
    -- a character of several bytes has none of them below 128
    simp only [String.utf8EncodeChar] at h
    split_ifs at h <;>
      simp only [List.mem_cons, List.not_mem_nil, or_false, ← UInt8.toNat_inj, UInt8.toNat_ofNat'] at h <;>
      omega
  · rintro rfl
    decide

/-- The bytes of a text have the byte of a line feed only where the text has a line feed. -/
theorem feed_mem_bytes_iff {text : String} : 0x0a ∈ bytes text ↔ '\n' ∈ text.toList := by
  simp [bytes_eq_flatMap, feed_mem_encode_iff]

theorem bytes_append (text other : String) : bytes (text ++ other) = bytes text ++ bytes other := by
  simp only [bytes_eq_flatMap, String.toList_append, List.flatMap_append]

end TableStore.Utf8
