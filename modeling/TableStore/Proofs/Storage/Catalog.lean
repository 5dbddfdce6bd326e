import Mathlib.Data.List.Nodup
import TableStore.Proofs.Storage.Refinement
import TableStore.Storage.Catalog

/-!
# Runs of a catalog

A catalog is used by creating and dropping tables and by operations on the tables in it. Whatever is
asked for, its tables keep different names in increasing order, and each of them stands for rows with
different primary keys. A request that fails changes nothing, and one that succeeds changes nothing
but the table it names.

* `Catalog.Command`, `Catalog.perform`, `Catalog.run` — a request, what it does, and any number of
  them one after the other.
* `Catalog.Sound` — the invariant.
* `Catalog.Effect` — all that a request can do to a sound catalog; `Catalog.Sound.perform` says that
  it does no more.
* `Catalog.sound_run` — every catalog that comes of requests is sound.
-/

namespace TableStore

namespace Catalog

/-! ## Requests -/

/-- A request to a catalog. -/
inductive Command where
  | create (name : String) (schema : Schema)
  | drop (name : String)
  | call (name : String) (operation : Table.Call)
  deriving DecidableEq, Repr

/-- The table that a request names. -/
def Command.table : Command → String
  | .create name _ | .drop name | .call name _ => name

/-- What comes of a request: an answer or a cause, and the catalog afterwards in both cases. -/
abbrev Change := EStateM.Result Error Catalog Answer

def Change.after : Change → Catalog
  | .ok _ catalog | .error _ catalog => catalog

/-- Carries out a request. -/
def perform (catalog : Catalog) : Command → Change
  | .create name schema =>
    match catalog.create name schema with
    | .ok after => .ok .done after
    | .error cause => .error cause catalog
  | .drop name =>
    match catalog.drop name with
    | .ok after => .ok .done after
    | .error cause => .error cause catalog
  | .call name operation => catalog.alter name fun table => table.perform operation

/-- The catalog after requests, carried out one after the other whether they succeed or fail. -/
def run (catalog : Catalog) (commands : List Command) : Catalog :=
  commands.foldl (fun catalog command => (catalog.perform command).after) catalog

/-! ## Tables in the order of their names -/

theorem find?_eq_some {catalog : Catalog} {name : String} {table : Table}
    (h : catalog.find? name = some table) : table ∈ catalog.tables ∧ table.name = name := by
  have hname := List.find?_some h
  exact ⟨List.mem_of_find?_eq_some h, by simpa using hname⟩

theorem find?_eq_none {catalog : Catalog} {name : String} :
    catalog.find? name = none ↔ ∀ table ∈ catalog.tables, table.name ≠ name := by
  unfold find?
  rw [List.find?_eq_none]
  simp

theorem mem_place {table other : Table} {tables : List Table} :
    other ∈ place table tables ↔ other = table ∨ other ∈ tables := by
  induction tables with
  | nil => simp [place]
  | cons first rest ih =>
    unfold place
    split
    · exact List.mem_cons
    · rw [List.mem_cons, ih, List.mem_cons]
      exact or_left_comm

theorem pairwise_place {table : Table} {tables : List Table}
    (h : tables.Pairwise (·.name < ·.name)) (hnew : ∀ other ∈ tables, other.name ≠ table.name) :
    (place table tables).Pairwise (·.name < ·.name) := by
  induction tables with
  | nil => exact List.pairwise_singleton _ table
  | cons first rest ih =>
    obtain ⟨hfirst, hrest⟩ := List.pairwise_cons.mp h
    unfold place
    split
    · rename_i hlt
      refine List.pairwise_cons.mpr ⟨fun other hother => ?_, h⟩
      rcases List.mem_cons.mp hother with rfl | hother
      · exact hlt
      · exact String.lt_trans hlt (hfirst other hother)
    · rename_i hnot
      -- the new table stands behind the first one, for their names differ
      have hgt : first.name < table.name := by
        rw [← String.not_le]
        intro hle
        exact hnew first List.mem_cons_self (String.le_antisymm (String.not_lt.mp hnot) hle)
      refine List.pairwise_cons.mpr ⟨fun other hother => ?_, ?_⟩
      · rcases mem_place.mp hother with rfl | hother
        · exact hgt
        · exact hfirst other hother
      · exact ih hrest fun other hother => hnew other (List.mem_cons_of_mem first hother)

/-- Placing a table leaves those of other names in their order. -/
theorem filter_place (table : Table) (tables : List Table) :
    (place table tables).filter (·.name != table.name) =
      tables.filter (·.name != table.name) := by
  induction tables with
  | nil => simp [place]
  | cons first rest ih =>
    unfold place
    split
    · simp
    · rw [List.filter_cons, List.filter_cons, ih]

/-- In a list of tables in the order of their names, the name tells the table. -/
theorem eq_of_name_eq {tables : List Table} (h : tables.Pairwise (·.name < ·.name))
    {table other : Table} (htable : table ∈ tables) (hother : other ∈ tables)
    (hname : table.name = other.name) : table = other := by
  have hnodup : (tables.map (·.name)).Nodup := by
    refine List.pairwise_map.mpr (h.imp fun {a b} hlt heq => ?_)
    rw [heq] at hlt
    exact String.lt_irrefl _ hlt
  exact List.inj_on_of_nodup_map hnodup htable hother hname

/-- Putting a table in the place of its name changes what is found, and not where. -/
theorem find?_replace_eq (catalog : Catalog) (after : Table) (name : String) :
    (catalog.replace after).find? name =
      (catalog.find? name).map fun other => if other.name = after.name then after else other := by
  have hkeep : (fun other : Table =>
      (if other.name = after.name then after else other).name == name) = (·.name == name) := by
    funext other
    by_cases heq : other.name = after.name <;> simp [heq]
  unfold find? replace
  rw [List.find?_map, Function.comp_def, hkeep]

/-- The table that is put in the place of its name is found there. -/
theorem find?_replace {catalog : Catalog} {name : String} {table after : Table}
    (hfound : catalog.find? name = some table) (hname : after.name = table.name) :
    (catalog.replace after).find? name = some after := by
  rw [find?_replace_eq, hfound, Option.map_some, if_pos hname.symm]

/-! ## The invariant -/

/-- The tables have different names, in increasing order, and stand for rows with different primary
keys. -/
structure Sound (catalog : Catalog) : Prop where
  ordered : catalog.tables.Pairwise (·.name < ·.name)
  tables : ∀ table ∈ catalog.tables, ∃ rows, table.Represents ⟨table.schema, rows⟩

theorem sound_empty (name : String) : (empty name).Sound where
  ordered := List.Pairwise.nil
  tables := by simp [empty]

/-- What a request can do: fail and change nothing, add a table without rows under a new name, take
out the table of a name, or put a table that has been changed in its own place. It never fails
because stored columns do not fit together. -/
inductive Effect (catalog : Catalog) : Command → Change → Prop where
  | refuses (command : Command) {cause : Error} (hkind : cause.kind ≠ .runtime) :
      Effect catalog command (.error cause catalog)
  | creates {name : String} (schema : Schema) (hnew : catalog.find? name = none) :
      Effect catalog (.create name schema)
        (.ok .done { catalog with tables := place (Table.empty name schema) catalog.tables })
  | drops {name : String} {table : Table} (hfound : catalog.find? name = some table) :
      Effect catalog (.drop name)
        (.ok .done { catalog with tables := catalog.tables.filter (·.name != name) })
  | calls {name : String} {table after : Table} {rows : List (List Value)} (operation : Table.Call)
      (answer : Answer) (hfound : catalog.find? name = some table)
      (hperform : table.perform operation = .ok answer after)
      (hname : after.name = table.name) (hschema : after.schema = table.schema)
      (hafter : after.Represents ⟨after.schema, rows⟩) :
      Effect catalog (.call name operation) (.ok answer (catalog.replace after))

namespace Sound

variable {catalog : Catalog}

/-- Putting a table of the catalog in its own place changes nothing. -/
theorem replace_self (h : catalog.Sound) {table : Table} (htable : table ∈ catalog.tables) :
    catalog.replace table = catalog := by
  have hsame : (catalog.tables.map fun other =>
      if other.name = table.name then table else other) = catalog.tables := by
    -- the only table of the name is the table itself
    conv_rhs => rw [← List.map_id catalog.tables]
    refine List.map_congr_left fun other hother => ?_
    split
    · rename_i hname
      exact (eq_of_name_eq h.ordered hother htable hname).symm
    · rfl
  unfold replace
  rw [hsame]

/-- No request does anything else. -/
theorem perform (h : catalog.Sound) (command : Command) :
    Effect catalog command (catalog.perform command) := by
  cases command with
  | create name schema =>
    simp only [Catalog.perform, create]
    cases hfind : catalog.find? name with
    | none => exact .creates schema hfind
    | some table => exact .refuses _ nofun
  | drop name =>
    simp only [Catalog.perform, drop]
    cases hfind : catalog.find? name with
    | none => exact .refuses _ nofun
    | some table => exact .drops hfind
  | call name operation =>
    simp only [Catalog.perform, alter]
    cases hfind : catalog.find? name with
    | none => exact .refuses _ nofun
    | some table =>
      obtain ⟨htable, -⟩ := find?_eq_some hfind
      obtain ⟨rows, hrows⟩ := h.tables table htable
      have hagrees := hrows.perform operation
      generalize hperform : table.perform operation = change at hagrees
      generalize houtcome : RowTable.perform ⟨table.schema, rows⟩ operation = outcome at hagrees
      cases hagrees with
      | succeeds answer hname hschema hafter =>
        simp only [hperform]
        exact .calls operation answer hfind hperform hname hschema (hschema ▸ hafter)
      | refuses hkind =>
        -- the table takes its place again as it was
        simp only [hperform]
        rw [h.replace_self htable]
        refine .refuses _ ?_
        -- a list of rows knows of no columns that could fail to fit together
        rcases RowTable.kind_of_perform (congrArg Prod.fst houtcome) with hschema | hconstraint
        · rw [hkind, hschema]
          exact nofun
        · rw [hkind, hconstraint]
          exact nofun

end Sound

namespace Effect

variable {catalog : Catalog} {command : Command} {change : Change}

/-- What is preserved by one request. -/
theorem sound (heffect : Effect catalog command change) (h : catalog.Sound) :
    change.after.Sound := by
  cases heffect with
  | refuses => exact h
  | @creates name schema hnew =>
    refine ⟨pairwise_place h.ordered (find?_eq_none.mp hnew), fun table htable => ?_⟩
    rcases mem_place.mp htable with rfl | htable
    · exact ⟨[], Table.represents_empty name schema⟩
    · exact h.tables table htable
  | drops hfound =>
    exact ⟨h.ordered.filter _, fun table htable => h.tables table (List.mem_of_mem_filter htable)⟩
  | @calls name table after rows operation answer hfound hperform hname hschema hafter =>
    constructor
    · -- the changed table has kept its name, so the order stays
      refine List.pairwise_map.mpr (h.ordered.imp fun {a b} hlt => ?_)
      split <;> split <;> simp_all
    · intro other hother
      obtain ⟨before, hbefore, rfl⟩ := List.mem_map.mp hother
      split
      · exact ⟨rows, hafter⟩
      · exact h.tables before hbefore

/-- The tables that a request does not name stay as they are. -/
theorem others (heffect : Effect catalog command change) :
    change.after.tables.filter (·.name != command.table) =
      catalog.tables.filter (·.name != command.table) := by
  cases heffect with
  | refuses => rfl
  | @creates name schema => exact filter_place (Table.empty name schema) catalog.tables
  | drops => simp [Change.after, Command.table, List.filter_filter]
  | @calls name table after rows operation answer hfound hperform hname =>
    obtain ⟨-, hown⟩ := find?_eq_some hfound
    have hafter : after.name = name := hname.trans hown
    show ((catalog.replace after).tables.filter (·.name != name)) = _
    unfold replace
    rw [List.filter_map]
    -- the table that is put in has the name of the one that it replaces
    have hkeep : ((·.name != name) ∘ fun other : Table =>
        if other.name = after.name then after else other) = (·.name != name) := by
      funext other
      by_cases heq : other.name = after.name
      · simp [heq, hafter]
      · simp [heq]
    rw [hkeep]
    refine (List.map_congr_left fun other hother => ?_).trans (List.map_id _)
    have hother' : other.name ≠ name := by simpa using List.of_mem_filter hother
    rw [hafter, if_neg hother', id]

end Effect

/-- What one request preserves, any number of them does. -/
theorem Sound.run {catalog : Catalog} (h : catalog.Sound) (commands : List Command) :
    (catalog.run commands).Sound := by
  induction commands generalizing catalog with
  | nil => exact h
  | cons command commands ih => exact ih ((h.perform command).sound h)

/-- Every catalog that comes of requests is sound. -/
theorem sound_run (name : String) (commands : List Command) :
    ((empty name).run commands).Sound :=
  (sound_empty name).run commands

end Catalog

end TableStore
