import Mathlib.Algebra.BigOperators.Group.List.Basic
import Mathlib.Algebra.GroupWithZero.Nat

/-!
# Fields joined by a separator

Fields are joined with a separator between each two of them. The lengths of the fields alone tell where
each field and each separator stands, whatever is in them.

* `length_intercalate` — the length of what is joined.
* `drop_intercalate` — what stands from a field on.
* `take_field`, `take_separator` — a field, and the separator behind it.
-/

namespace TableStore.Text

variable {α : Type} (sep : List α)

/-- Where a field starts: behind the fields before it, with a separator behind each. -/
def offset (fields : List (List α)) (position : Nat) : Nat :=
  ((fields.take position).map List.length).sum + sep.length * position

/-- All fields count, and a separator between each two of them. -/
theorem length_intercalate (fields : List (List α)) :
    (sep.intercalate fields).length =
      (fields.map List.length).sum + sep.length * (fields.length - 1) := by
  induction fields with
  | nil => simp
  | cons field rest ih =>
    cases rest with
    | nil => simp
    | cons next rest =>
      rw [List.intercalate_cons_cons, List.length_append, List.length_append, ih]
      simp only [List.map_cons, List.sum_cons, List.length_cons, Nat.add_sub_cancel]
      rw [Nat.mul_succ]
      omega

/-- From where a field starts, it and the ones behind it are joined. -/
theorem drop_intercalate {fields : List (List α)} {position : Nat} (h : position < fields.length) :
    (sep.intercalate fields).drop (offset sep fields position) =
      sep.intercalate (fields.drop position) := by
  induction position generalizing fields with
  | zero => simp [offset]
  | succ position ih =>
    obtain ⟨field, next, rest, rfl⟩ : ∃ field next rest, fields = field :: next :: rest := by
      match fields, h with
      | field :: next :: rest, _ => exact ⟨field, next, rest, rfl⟩
    have hoffset : offset sep (field :: next :: rest) (position + 1) =
        (field ++ sep).length + offset sep (next :: rest) position := by
      simp only [offset, List.take_succ_cons, List.map_cons, List.sum_cons, List.length_append,
        Nat.mul_succ]
      omega
    rw [List.intercalate_cons_cons, hoffset, ← List.drop_drop, List.drop_left, List.drop_succ_cons]
    exact ih (by simpa using h)

/-- A field stands where it starts. -/
theorem take_field {fields : List (List α)} {position : Nat} {field : List α}
    (h : fields[position]? = some field) :
    ((sep.intercalate fields).drop (offset sep fields position)).take field.length = field := by
  obtain ⟨hlt, rfl⟩ := List.getElem?_eq_some_iff.mp h
  rw [drop_intercalate sep hlt, List.drop_eq_getElem_cons hlt]
  cases fields.drop (position + 1) with
  | nil => simp
  | cons next rest => rw [List.intercalate_cons_cons, List.append_assoc, List.take_left]

/-- The separator stands behind each field but the last. -/
theorem take_separator {fields : List (List α)} {position : Nat} {field : List α}
    (h : fields[position]? = some field) (hnext : position + 1 < fields.length) :
    ((sep.intercalate fields).drop (offset sep fields position + field.length)).take sep.length =
      sep := by
  obtain ⟨hlt, rfl⟩ := List.getElem?_eq_some_iff.mp h
  rw [← List.drop_drop, drop_intercalate sep hlt, List.drop_eq_getElem_cons hlt,
    List.drop_eq_getElem_cons hnext, List.intercalate_cons_cons, List.append_assoc, List.drop_left,
    List.take_left]

end TableStore.Text
