import Mathlib.Data.String.Basic
import Mathlib.Order.Monotone.Basic
import Mathlib.Tactic.SplitIfs
import TableStore.Proofs.Text.Utf8

/-!
# Texts in order

Texts are compared by their code points, from the first on. UTF-8 was made so that the bytes of texts
compare in the same way: a character with more bytes starts with a greater byte, and of two characters
with equally many bytes the bits are laid out from the most significant on.

* `Utf8.codePoints` — the code points of a text.
* `Utf8.lead`, `Utf8.trail` — the first byte of a character, and the others with six bits each.
* `Utf8.compare_encode_append` — the bytes of two characters decide like the characters, whatever
  follows them.
* `Utf8.compare_codePoints`, `Utf8.compare_eq_compare_codePoints` — three orders on texts which are
  one.
-/

namespace TableStore.Utf8

/-- The code points of a text. -/
def codePoints (text : String) : List Nat :=
  text.toList.map Char.toNat

/-! ## Comparing lists -/

/-- What two lists have in common at their heads does not tell them apart. -/
theorem compare_append_left {α : Type} [Ord α] [Std.ReflOrd α] (common xs ys : List α) :
    compare (common ++ xs) (common ++ ys) = compare xs ys := by
  induction common with
  | nil => rfl
  | cons x common ih =>
    rw [List.cons_append, List.cons_append, List.compare_cons_cons, Std.compare_self, ih]
    rfl

theorem compare_cons_of_lt {a b : Nat} (hlt : a < b) (hb : b < 256) (xs ys : List UInt8) :
    compare (UInt8.ofNat a :: xs) (UInt8.ofNat b :: ys) = .lt := by
  have hbyte : UInt8.ofNat a < UInt8.ofNat b := by
    rw [UInt8.lt_iff_toNat_lt, UInt8.toNat_ofNat', UInt8.toNat_ofNat']
    omega
  rw [List.compare_cons_cons, Std.compare_eq_lt.mpr hbyte]
  rfl

/-! ## The bytes of a character -/

/-- The last bytes of a character, each with six bits of its code point. -/
def trail : Nat → Nat → List UInt8
  | 0, _ => []
  | n + 1, v => trail n (v / 64) ++ [UInt8.ofNat (v % 64 + 128)]

/-- The bits of a first byte that tell how many bytes are behind it. -/
def marker : Nat → Nat
  | 0 => 0
  | 1 => 192
  | 2 => 224
  | 3 => 240
  | _ => 248

/-- The number of bytes behind the first one. -/
def trailing (v : Nat) : Nat :=
  if v ≤ 127 then 0 else if v ≤ 2047 then 1 else if v ≤ 65535 then 2 else 3

/-- The first byte of a character: a marker and the bits that are left. -/
def lead (v : Nat) : Nat :=
  v / 64 ^ trailing v + marker (trailing v)

theorem trailing_mono {v w : Nat} (h : v ≤ w) : trailing v ≤ trailing w := by
  unfold trailing
  split_ifs <;> omega

theorem marker_mono : Monotone marker := by
  refine monotone_nat_of_le_succ fun n => ?_
  rcases n with _ | _ | _ | _ | n <;> simp [marker]

/-- A first byte is below the markers of longer characters. -/
theorem lead_lt {v : Nat} (hv : v < 0x110000) : lead v < marker (trailing v + 1) := by
  unfold lead trailing
  split_ifs <;> simp only [marker] <;> omega

theorem toNat_lt_max (c : Char) : c.toNat < 0x110000 := by
  have h := c.valid
  simp only [UInt32.isValidChar, Nat.isValidChar] at h
  show c.val.toNat < 0x110000
  omega

/-- The bytes of a character are the first one and those behind it. -/
theorem encode_eq (c : Char) :
    String.utf8EncodeChar c = UInt8.ofNat (lead c.toNat) :: trail (trailing c.toNat) c.toNat := by
  have hmax : c.val.toNat < 0x110000 := toNat_lt_max c
  simp only [String.utf8EncodeChar, Char.toNat, lead, trailing]
  split_ifs <;> simp only [trail, marker, Nat.div_div_eq_div_mul, List.nil_append, List.cons_append]
  · simp
  -- the first byte has room for all the bits that are left
  · rw [Nat.mod_eq_of_lt (by omega)]
    rfl
  · rw [Nat.mod_eq_of_lt (by omega)]
    rfl
  · rw [Nat.mod_eq_of_lt (by omega)]
    rfl

/-- Of two characters with equally many bytes, the smaller one has the smaller bytes. -/
theorem compare_lead_trail (n tag : Nat) {v w : Nat} (hvw : v < w) (hw : w / 64 ^ n + tag < 256)
    (xs ys : List UInt8) :
    compare (UInt8.ofNat (v / 64 ^ n + tag) :: (trail n v ++ xs))
      (UInt8.ofNat (w / 64 ^ n + tag) :: (trail n w ++ ys)) = .lt := by
  -- by induction on the number of bytes behind the first one, which are split off from the last
  induction n generalizing v w xs ys with
  | zero =>
    rw [Nat.pow_zero, Nat.div_one] at hw ⊢
    rw [Nat.div_one]
    exact compare_cons_of_lt (by omega) hw _ _
  | succ n ih =>
    have hpow (u : Nat) : u / 64 ^ (n + 1) = u / 64 / 64 ^ n := by
      rw [Nat.div_div_eq_div_mul, Nat.pow_succ']
    rw [hpow] at hw ⊢
    rw [hpow]
    simp only [trail, List.append_assoc, List.singleton_append]
    -- the bits before the last six decide, unless they are the same
    have hle : v / 64 ≤ w / 64 := Nat.div_le_div_right (Nat.le_of_lt hvw)
    rcases Nat.lt_or_eq_of_le hle with hlt | heq
    · exact ih hlt hw _ _
    · rw [heq, ← List.cons_append, ← List.cons_append, compare_append_left]
      exact compare_cons_of_lt (by omega) (by omega) _ _

/-- The bytes of a smaller character are smaller, whatever follows the two characters. -/
theorem compare_encode_of_lt {c d : Char} (hlt : c.toNat < d.toNat) (xs ys : List UInt8) :
    compare (String.utf8EncodeChar c ++ xs) (String.utf8EncodeChar d ++ ys) = .lt := by
  have hroom : lead d.toNat < 256 := by
    have hlead := lead_lt (toNat_lt_max d)
    have hmarker : marker (trailing d.toNat + 1) ≤ 248 := by
      unfold marker
      split <;> omega
    omega
  rw [encode_eq, encode_eq, List.cons_append, List.cons_append]
  rcases Nat.lt_or_eq_of_le (trailing_mono (Nat.le_of_lt hlt)) with hfewer | hsame
  · -- the marker of a longer character is beyond the first byte of a shorter one
    have hfirst : lead c.toNat < lead d.toNat :=
      calc lead c.toNat < marker (trailing c.toNat + 1) := lead_lt (toNat_lt_max c)
        _ ≤ marker (trailing d.toNat) := marker_mono hfewer
        _ ≤ lead d.toNat := Nat.le_add_left _ _
    exact compare_cons_of_lt hfirst hroom _ _
  · rw [lead, hsame]
    exact compare_lead_trail _ _ hlt hroom _ _

/-- The bytes of two characters decide like the characters, whatever follows them. -/
theorem compare_encode_append (c d : Char) (xs ys : List UInt8) :
    compare (String.utf8EncodeChar c ++ xs) (String.utf8EncodeChar d ++ ys) =
      (compare c.toNat d.toNat).then (compare xs ys) := by
  rcases Nat.lt_trichotomy c.toNat d.toNat with hlt | heq | hgt
  · rw [compare_encode_of_lt hlt, Std.compare_eq_lt.mpr hlt]
    rfl
  · -- the same character has the same bytes, so what follows decides
    rw [Char.toNat_inj.mp heq, compare_append_left, Std.compare_self]
    rfl
  · rw [Std.OrientedOrd.eq_swap, compare_encode_of_lt hgt, Std.compare_eq_gt.mpr hgt]
    rfl

/-! ## The three orders -/

/-- Texts compare by their code points as they compare by their bytes. -/
theorem compare_codePoints (s t : String) :
    compare (codePoints s) (codePoints t) = compare (bytes s) (bytes t) := by
  rw [bytes_eq_flatMap, bytes_eq_flatMap, codePoints, codePoints]
  -- character by character; a text that ends before another one is less in both orders
  generalize s.toList = cs
  generalize t.toList = ds
  induction cs generalizing ds with
  | nil =>
    cases ds with
    | nil => rfl
    | cons d ds =>
      rw [List.flatMap_cons, encode_eq]
      rfl
  | cons c cs ih =>
    cases ds with
    | nil =>
      rw [List.flatMap_cons, encode_eq]
      rfl
    | cons d ds =>
      rw [List.map_cons, List.map_cons, List.compare_cons_cons, List.flatMap_cons,
        List.flatMap_cons, compare_encode_append, ih]

/-- The order of texts is the order of their code points. -/
theorem compare_eq_compare_codePoints (s t : String) :
    compare s t = compare (codePoints s) (codePoints t) := by
  have hlists : compare s t = compareOfLessAndEq s.toList t.toList := by
    show compareOfLessAndEq s t = _
    simp only [compareOfLessAndEq, String.lt_iff_toList_lt, String.toList_inj]
  rw [hlists, codePoints, codePoints]
  generalize s.toList = cs
  generalize t.toList = ds
  induction cs generalizing ds with
  | nil => cases ds <;> rfl
  | cons c cs ih =>
    cases ds with
    | nil => rfl
    | cons d ds =>
      rw [List.map_cons, List.map_cons, List.compare_cons_cons, ← ih ds]
      simp only [compareOfLessAndEq, List.cons_lt_cons_iff, List.cons.injEq]
      rcases Nat.lt_trichotomy c.toNat d.toNat with hlt | heq | hgt
      · rw [if_pos (.inl hlt), Std.compare_eq_lt.mpr hlt]
        rfl
      · obtain rfl := Char.toNat_inj.mp heq
        simp
      · have hnot : ¬ c < d := Nat.lt_asymm hgt
        have hne : c ≠ d := by
          rintro rfl
          exact Nat.lt_irrefl _ hgt
        rw [if_neg (by simp [hnot, hne]), if_neg (by simp [hne]), Std.compare_eq_gt.mpr hgt]
        rfl

end TableStore.Utf8
