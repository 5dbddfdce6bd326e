import Mathlib.Order.Monotone.Basic

/-!
# Readers that are called again

A reader takes symbols from the head of a list and leaves the others, also when it refuses them. So it
can be called again on what it has left, any number of times. A reader that goes only forwards comes to
a place where it stays: a call that takes nothing is repeated by all later ones, and there are no more
calls that take something than there are symbols.

* `Reader` — a reader of symbols; `Reader.verdict` and `Reader.remainder` are what comes of a call.
* `Reader.left`, `Reader.outcome`, `Reader.position` — the calls in turn.
* `Reader.Forward` — a reader that goes only forwards.
* `Reader.Forward.left_eq_drop` — the position tells what is left.
* `Reader.Forward.repeated_of_position` — a call that does not move the reader is repeated.
* `Reader.Forward.outcome_settles` — all calls have one outcome once there were as many as symbols.
-/

namespace TableStore

/-- A reader of symbols: it makes something of them or tells why it does not, and in both cases it
leaves some of them. -/
abbrev Reader (ε σ α : Type) := List σ → EStateM.Result ε (List σ) α

namespace Reader

variable {ε σ α : Type}

/-- What comes of a call, whatever it leaves. -/
def verdict : EStateM.Result ε (List σ) α → Except ε α
  | .ok x _ => .ok x
  | .error cause _ => .error cause

/-- What a call leaves, whatever comes of it. -/
def remainder : EStateM.Result ε (List σ) α → List σ
  | .ok _ rest => rest
  | .error _ rest => rest

variable (read : Reader ε σ α) (symbols : List σ)

/-- What is left for a call; the first one has the number 0. -/
def left : Nat → List σ
  | 0 => symbols
  | n + 1 => remainder (read (left n))

/-- What comes of a call; the first one has the number 0. -/
def outcome (n : Nat) : Except ε α :=
  verdict (read (left read symbols n))

/-- How many symbols have been taken before a call. -/
def position (n : Nat) : Nat :=
  symbols.length - (left read symbols n).length

/-- A reader leaves symbols from the end of those that it is given. -/
def Forward : Prop :=
  ∀ symbols, remainder (read symbols) <:+ symbols

variable {read symbols} {m n k : Nat}

/-! ## Calls in turn -/

/-- Later calls are the first ones on what is left. -/
theorem left_add (m n : Nat) : left read symbols (m + n) = left read (left read symbols m) n := by
  induction n with
  | zero => rfl
  | succ n ih => rw [← Nat.add_assoc, left, ih, left]

theorem outcome_add (m n : Nat) :
    outcome read symbols (m + n) = outcome read (left read symbols m) n := by
  rw [outcome, left_add, outcome]

/-- What comes of a call goes together with what it leaves for the next one. -/
theorem outcome_ok_iff {x : α} : outcome read symbols n = .ok x ↔
    read (left read symbols n) = .ok x (left read symbols (n + 1)) := by
  rw [outcome, left]
  cases read (left read symbols n) <;> simp [verdict, remainder]

theorem outcome_error_iff {cause : ε} : outcome read symbols n = .error cause ↔
    read (left read symbols n) = .error cause (left read symbols (n + 1)) := by
  rw [outcome, left]
  cases read (left read symbols n) <;> simp [verdict, remainder]

/-- Where a call leaves what it was given, all later calls do. -/
theorem left_of_stays (h : left read symbols (n + 1) = left read symbols n) (hk : n ≤ k) :
    left read symbols k = left read symbols n := by
  induction hk with
  | refl => rfl
  | step _ ih => rw [left, ih, ← left, h]

theorem outcome_of_stays (h : left read symbols (n + 1) = left read symbols n) (hk : n ≤ k) :
    outcome read symbols k = outcome read symbols n := by
  rw [outcome, left_of_stays h hk, outcome]

theorem position_of_stays (h : left read symbols (n + 1) = left read symbols n) (hk : n ≤ k) :
    position read symbols k = position read symbols n := by
  rw [position, left_of_stays h hk, position]

/-! ## Readers that go forwards -/

namespace Forward

theorem left_suffix (h : Forward read) (hmn : m ≤ n) :
    left read symbols n <:+ left read symbols m := by
  induction hmn with
  | refl => exact List.suffix_refl _
  | step _ ih => exact (h _).trans ih

theorem length_left_le (h : Forward read) (n : Nat) :
    (left read symbols n).length ≤ symbols.length :=
  (h.left_suffix (Nat.zero_le n)).length_le

theorem position_mono (h : Forward read) : Monotone (position read symbols) := by
  intro m n hmn
  have hsuffix : left read symbols n <:+ left read symbols m := h.left_suffix hmn
  have hle := hsuffix.length_le
  unfold position
  omega

/-- The position tells what is left. -/
theorem left_eq_drop (h : Forward read) (n : Nat) :
    left read symbols n = symbols.drop (position read symbols n) :=
  List.suffix_iff_eq_drop.mp (h.left_suffix (Nat.zero_le n))

/-- A call reads on from the position. -/
theorem outcome_eq (h : Forward read) (n : Nat) :
    outcome read symbols n = verdict (read (symbols.drop (position read symbols n))) := by
  rw [outcome, h.left_eq_drop]

/-- A call that leaves less than it was given moves the reader. -/
theorem position_lt (h : Forward read)
    (hlt : (left read symbols (n + 1)).length < (left read symbols n).length) :
    position read symbols n < position read symbols (n + 1) := by
  have hle : (left read symbols n).length ≤ symbols.length := h.length_left_le n
  unfold position
  omega

/-- A call that does not move the reader is repeated by all later ones. -/
theorem repeated_of_position (h : Forward read)
    (hposition : position read symbols (n + 1) = position read symbols n) (hk : n ≤ k) :
    outcome read symbols k = outcome read symbols n ∧
      position read symbols k = position read symbols n := by
  have hstays : left read symbols (n + 1) = left read symbols n := by
    rw [h.left_eq_drop, hposition, ← h.left_eq_drop]
  exact ⟨outcome_of_stays hstays hk, position_of_stays hstays hk⟩

/-- What comes of the calls that find nothing left. -/
theorem of_left_eq_nil (h : Forward read) (hnil : left read symbols n = []) (hk : n ≤ k) :
    outcome read symbols k = verdict (read []) ∧ position read symbols k = symbols.length := by
  have hleft : left read symbols k = [] := List.suffix_nil.mp (hnil ▸ h.left_suffix hk)
  exact ⟨by rw [outcome, hleft], by rw [position, hleft, List.length_nil, Nat.sub_zero]⟩

/-- Of the first calls one leaves what it was given, or each of them takes a symbol. -/
theorem stays_or_takes (h : Forward read) (symbols : List σ) (n : Nat) :
    (∃ m < n, left read symbols (m + 1) = left read symbols m) ∨
      (left read symbols n).length + n ≤ symbols.length := by
  -- a call that does not stay shortens what is left, so the sum in the second case does not grow
  induction n with
  | zero => exact .inr (Nat.le_refl _)
  | succ n ih =>
    rcases ih with ⟨m, hm, hstays⟩ | hle
    · exact .inl ⟨m, by omega, hstays⟩
    by_cases hstays : left read symbols (n + 1) = left read symbols n
    · exact .inl ⟨n, Nat.lt_succ_self n, hstays⟩
    · have hsuffix : left read symbols (n + 1) <:+ left read symbols n := h _
      have hlt : (left read symbols (n + 1)).length < (left read symbols n).length :=
        Nat.lt_of_le_of_ne hsuffix.length_le fun heq => hstays (hsuffix.eq_of_length heq)
      exact .inr (by omega)

/-- Once there were as many calls as symbols, all calls have one outcome. -/
theorem outcome_settles (h : Forward read) (hn : symbols.length ≤ n) :
    outcome read symbols n = outcome read symbols symbols.length := by
  -- one call more than there are symbols cannot take a symbol each time
  rcases h.stays_or_takes symbols (symbols.length + 1) with ⟨m, hm, hstays⟩ | hle
  · rw [outcome_of_stays hstays (by omega : m ≤ n),
      outcome_of_stays hstays (by omega : m ≤ symbols.length)]
  · omega

end Forward

end Reader

end TableStore
