/-!
# Masks

A mask says of each row of a table whether it is meant.

* `Mask.rows` — the rows that are meant, in order.
* `Mask.others` — the mask of the other rows.
* `Mask.leave` — the elements of a list that stand at the other rows.
-/

namespace TableStore

/-- For each row, whether it is meant. -/
abbrev Mask := List Bool

namespace Mask

/-- The rows that are meant, in order. -/
def rows (mask : Mask) : List Nat :=
  mask.zipIdx.filterMap fun (meant, row) => if meant then some row else none

/-- The mask of the other rows. -/
def others (mask : Mask) : Mask :=
  mask.map not

/-- The elements of a list that stand at the other rows, in order. -/
def leave {α : Type} (mask : Mask) (xs : List α) : List α :=
  (xs.zip mask).filterMap fun (x, meant) => if meant then none else some x

theorem leave_map {α β : Type} (f : α → β) (mask : Mask) (xs : List α) :
    mask.leave (xs.map f) = (mask.leave xs).map f := by
  induction xs generalizing mask with
  | nil => rfl
  | cons x xs ih =>
    cases mask with
    | nil => rfl
    | cons meant mask =>
      have h := ih mask
      unfold leave at h ⊢
      cases meant <;> simp [h]

end Mask

end TableStore
