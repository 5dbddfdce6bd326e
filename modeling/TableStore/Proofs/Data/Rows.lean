import Mathlib.Data.List.Induction
import Mathlib.Data.List.Nodup
import TableStore.Data.Row
import TableStore.Proofs.Data.Lookup

/-!
# Rows made up column by column

A row comes about by giving values to columns, one after the other. Giving a value that is known
already changes nothing, and however a row came about, no column stands twice in it: a column stands
where it is named first, and has the value that it is given last.

* `Row.get?_ofList_eq_some_iff` — the value of a column is the one that it is given last.
* `Row.push_of_get?`, `Row.ofList_append_cons` — what is known already changes nothing.
* `Row.Built`, `Row.Built.nodup_columns` — rows that come about in this way, and their columns.
* `Row.named`, `Row.columns_ofList` — which columns a row gets does not depend on the values.
* `Row.named_eq` — these are the names without later repetitions.
* `Row.map_entries` — a row is read column by column.
* `Row.ofList_eq` — different columns make up the row with just their entries.
* `Row.restrict`, `Row.ofList_restrict` — some of the columns of a row, as they are or collected one by
  one.
-/

namespace TableStore

/-! ## Lists without repetitions -/

/-- An element at the end of a list is kept unless it stands before. -/
theorem eraseDups_concat {α : Type} [DecidableEq α] (xs : List α) (x : α) :
    (xs ++ [x]).eraseDups = if x ∈ xs then xs.eraseDups else xs.eraseDups ++ [x] := by
  rw [List.eraseDups_append, List.cons_removeAll]
  by_cases hx : x ∈ xs <;> simp [hx, List.eraseDups_cons]

/-! ## Collecting columns one by one -/

namespace Row

theorem ofList_append_singleton (entries : List (String × Value)) (entry : String × Value) :
    ofList (entries ++ [entry]) = (ofList entries).push entry.1 entry.2 := by
  simp [ofList, List.foldl_append]

/-- Giving a column the value that it has changes nothing. -/
theorem push_of_get? {row : Row} {column : String} {value : Value}
    (h : row.get? column = some value) : row.push column value = row := by
  obtain ⟨entries⟩ := row
  unfold get? at h
  unfold push
  congr 1
  induction entries with
  | nil => cases h
  | cons entry rest ih =>
    obtain ⟨key, old⟩ := entry
    unfold put
    by_cases hkey : key = column
    · subst hkey
      obtain rfl : old = value := by simpa using h
      simp
    · have hne : (column == key) = false := by simpa using Ne.symm hkey
      rw [List.lookup_cons, hne] at h
      simp [hkey, ih h]

/-- The values of a row are looked up from the end of what was given. -/
theorem get?_ofList_eq_lookup (entries : List (String × Value)) (column : String) :
    (ofList entries).get? column = entries.reverse.lookup column := by
  induction entries using List.reverseRecOn with
  | nil => rfl
  | append_singleton entries entry ih =>
    rw [ofList_append_singleton, get?_push, ih, List.reverse_append, List.reverse_singleton,
      List.singleton_append, List.lookup_cons]
    by_cases hcolumn : column = entry.1
    · simp [hcolumn]
    · simp [hcolumn, beq_false_of_ne hcolumn]

/-- A column has the value that it is given last. -/
theorem get?_ofList_eq_some_iff {entries : List (String × Value)} {column : String} {value : Value} :
    (ofList entries).get? column = some value ↔
      ∃ before after, entries = before ++ (column, value) :: after ∧
        column ∉ after.map (·.1) := by
  rw [get?_ofList_eq_lookup]
  exact lookup_reverse_eq_some_iff

/-- A row has values for its columns only. -/
theorem get?_eq_none_iff {row : Row} {column : String} :
    row.get? column = none ↔ column ∉ row.columns :=
  lookup_eq_none_iff_not_mem

/-- If the entries agree with a function from columns to values, then so does the row that is
collected from them. -/
theorem get?_ofList (values : String → Option Value) {entries : List (String × Value)}
    (h : ∀ entry ∈ entries, values entry.1 = some entry.2) {column : String}
    (hcolumn : column ∈ entries.map (·.1)) : (ofList entries).get? column = values column := by
  cases hget : (ofList entries).get? column with
  | none =>
    rw [get?_ofList_eq_lookup, lookup_eq_none_iff_not_mem, List.map_reverse, List.mem_reverse]
      at hget
    exact absurd hcolumn hget
  | some value =>
    obtain ⟨before, after, rfl, -⟩ := get?_ofList_eq_some_iff.mp hget
    exact (h (column, value) (by simp)).symm

/-- Collecting an entry that is known already changes nothing. -/
theorem ofList_append_cons {before after : List (String × Value)} {column : String} {value : Value}
    (h : (ofList before).get? column = some value) :
    ofList (before ++ (column, value) :: after) = ofList (before ++ after) := by
  have hstep := push_of_get? h
  unfold ofList at hstep ⊢
  rw [List.foldl_append, List.foldl_append, List.foldl_cons]
  exact congrArg (after.foldl _) hstep

/-! ## Columns -/

/-- A row that comes about by giving values to columns, starting from the one without columns. -/
inductive Built : Row → Prop where
  | empty : Built .empty
  | push {row : Row} {column : String} {value : Value} (hrow : Built row) :
      Built (row.push column value)

/-- No column stands twice in a row. -/
theorem Built.nodup_columns {row : Row} (h : Built row) : row.columns.Nodup := by
  induction h with
  | empty => exact List.nodup_nil
  | @push row column value _ ih =>
    rw [columns_push]
    split
    · exact ih
    · rename_i hnew
      exact ih.append (List.nodup_singleton column) (by simpa using hnew)

/-- The columns that come about by naming them one after the other: each stands where it is named
first. -/
def named (names : List String) : List String :=
  names.foldl (fun columns name => if name ∈ columns then columns else columns ++ [name]) []

/-- The columns come from the names alone, whatever the values are. -/
theorem columns_ofList (entries : List (String × Value)) :
    (ofList entries).columns = named (entries.map (·.1)) := by
  induction entries using List.reverseRecOn with
  | nil => rfl
  | append_singleton entries entry ih =>
    rw [ofList_append_singleton, columns_push, ih, named, named, List.map_append, List.foldl_append]
    rfl

/-- Named one after the other, columns come without later repetitions. -/
theorem named_eq (names : List String) : named names = names.eraseDups := by
  induction names using List.reverseRecOn with
  | nil => rfl
  | append_singleton names name ih =>
    have hstep : named (names ++ [name]) =
        if name ∈ named names then named names else named names ++ [name] := by
      rw [named, List.foldl_append]
      rfl
    rw [hstep, ih, eraseDups_concat]
    simp only [List.mem_eraseDups]

theorem built_ofList (entries : List (String × Value)) : Built (ofList entries) := by
  induction entries using List.reverseRecOn with
  | nil => exact .empty
  | append_singleton entries entry ih =>
    rw [ofList_append_singleton]
    exact .push ih

/-- Going through a row gives each of its columns with its value, in order. -/
theorem map_entries {row : Row} (h : row.columns.Nodup) :
    row.columns.map (fun column => (row.get? column).map (column, ·)) = row.entries.map some :=
  map_lookup h

/-- A new column goes to the end. -/
theorem put_of_not_mem {column : String} {value : Value} {entries : List (String × Value)}
    (h : column ∉ entries.map (·.1)) :
    put column value entries = entries ++ [(column, value)] := by
  induction entries with
  | nil => rfl
  | cons entry rest ih =>
    rw [List.map_cons, List.mem_cons, not_or] at h
    rw [put, if_neg (Ne.symm h.1), ih h.2, List.cons_append]

/-- Giving values to different columns makes up the row with just these entries. -/
theorem ofList_eq {entries : List (String × Value)} (h : (entries.map (·.1)).Nodup) :
    ofList entries = ⟨entries⟩ := by
  induction entries using List.reverseRecOn with
  | nil => rfl
  | append_singleton entries entry ih =>
    rw [List.map_append, List.nodup_append'] at h
    obtain ⟨hentries, -, hnew⟩ := h
    have hnew : entry.1 ∉ entries.map (·.1) := by simpa using hnew
    rw [ofList_append_singleton, ih hentries, push, put_of_not_mem hnew]

/-! ## Some of the columns -/

/-- The row with some of its columns only, in the order in which they are named. -/
def restrict (row : Row) (names : List String) : Row :=
  ⟨names.filterMap fun name => (row.get? name).map (name, ·)⟩

variable {row : Row} {names : List String} {name : String}

theorem restrict_concat (row : Row) (names : List String) (name : String) :
    row.restrict (names ++ [name]) =
      ⟨(row.restrict names).entries ++ ((row.get? name).map (name, ·)).toList⟩ := by
  rw [restrict, List.filterMap_append]
  cases hget : row.get? name <;> simp [restrict, hget]

/-- A row keeps only columns that are named. -/
theorem columns_restrict_subset (row : Row) (names : List String) :
    (row.restrict names).columns ⊆ names := by
  intro name hname
  obtain ⟨entry, hentry, rfl⟩ := List.mem_map.mp hname
  obtain ⟨other, hother, hvalue⟩ := List.mem_filterMap.mp hentry
  obtain ⟨value, -, rfl⟩ := Option.map_eq_some_iff.mp hvalue
  exact hother

/-- It keeps all that are named if it has them. -/
theorem columns_restrict (h : ∀ name ∈ names, name ∈ row.columns) :
    (row.restrict names).columns = names := by
  induction names using List.reverseRecOn with
  | nil => rfl
  | append_singleton names name ih =>
    obtain ⟨value, hvalue⟩ := Option.ne_none_iff_exists'.mp fun hnone =>
      get?_eq_none_iff.mp hnone (h name (by simp))
    have hnames := ih fun other hother => h other (List.mem_append_left _ hother)
    rw [columns, restrict_concat, hvalue, List.map_append]
    exact congrArg (· ++ [name]) hnames

/-- The columns that are kept have the values that they had. -/
theorem get?_restrict (row : Row) (names : List String) (name : String) :
    (row.restrict names).get? name = if name ∈ names then row.get? name else none := by
  induction names using List.reverseRecOn with
  | nil => rfl
  | append_singleton names other ih =>
    -- the other name adds an entry at most, which is found only if nothing is found before
    rw [get?, restrict_concat, List.lookup_append, ← get?, ih]
    by_cases hname : name = other
    · subst hname
      cases row.get? name <;> by_cases hmem : name ∈ names <;> simp [hmem]
    · have hnone : ((row.get? other).map (other, ·)).toList.lookup name = none := by
        cases row.get? other <;> simp [List.lookup_cons, beq_false_of_ne hname]
      simp [hnone, hname]

/-- Collecting named columns of a row one by one leaves each where it is named first. -/
theorem ofList_restrict (row : Row) (names : List String) :
    ofList (row.restrict names).entries = row.restrict names.eraseDups := by
  induction names using List.reverseRecOn with
  | nil => rfl
  | append_singleton names name ih =>
    rw [restrict_concat, eraseDups_concat]
    cases hget : row.get? name with
    | none =>
      -- the row does not have the column, and naming it adds nothing on either side
      rw [Option.map_none, Option.toList_none, List.append_nil, ih]
      split
      · rfl
      · rw [restrict_concat, hget, Option.map_none, Option.toList_none, List.append_nil]
    | some value =>
      rw [Option.map_some, Option.toList_some, ofList_append_singleton, ih]
      split
      · -- the column was named before, so it has its value already
        rename_i hname
        refine push_of_get? ?_
        rw [get?_restrict, if_pos (List.mem_eraseDups.mpr hname), hget]
      · -- the column is new, so it goes to the end
        rename_i hname
        have hnew : name ∉ (row.restrict names.eraseDups).columns := fun hmem =>
          hname (List.mem_eraseDups.mp (columns_restrict_subset row _ hmem))
        rw [restrict_concat, hget, push, put_of_not_mem hnew, Option.map_some, Option.toList_some]

end Row

end TableStore
