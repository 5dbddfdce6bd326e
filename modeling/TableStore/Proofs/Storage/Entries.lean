import Mathlib.Data.List.Sort
import TableStore.Proofs.Storage.Catalog

/-!
# A catalog as a map from names to tables

A request sees one entry of the catalog only, the one under the name of its table: the answer depends
on nothing else, and no other entry is changed. An entry may be absent, before the request or after
it. And a sound catalog is no more than its entries, for the order of the tables is the order of
their names.

* `Catalog.Command.act` — what a request makes of its entry, without a catalog.
* `Catalog.Sound.perform_entry` — carrying out a request is acting on the entry.
* `Catalog.Sound.ext` — sound catalogs with the same entries are the same.
* `Catalog.Effect.own_table` — where the table comes from that a request leaves in its entry.
-/

namespace TableStore

/-- No operation gives a table another name. -/
theorem Table.Represents.name_perform {table : Table} {reference : RowTable}
    (h : table.Represents reference) (call : Call) :
    (table.perform call).after.name = table.name := by
  have hagrees := h.perform call
  generalize table.perform call = change at hagrees
  generalize reference.perform call = outcome at hagrees
  cases hagrees with
  | succeeds _ hname => exact hname
  | refuses => rfl

namespace Catalog

/-- The answer to a request, or the cause of its failure. -/
def Change.answer : Change → Except Error Answer
  | .ok answer _ => .ok answer
  | .error cause _ => .error cause

/-- What a request makes of the entry under its name, and what it answers with. -/
def Command.act : Command → Option Table → Except Error Answer × Option Table
  | .create name schema, none => (.ok .done, some (Table.empty name schema))
  | .create name _, some table => (.error (.tableExists name), some table)
  | .drop name, none => (.error (.tableNotFound name), none)
  | .drop _, some _ => (.ok .done, none)
  | .call name _, none => (.error (.tableNotFound name), none)
  | .call _ operation, some table =>
    ((table.perform operation).answer, some (table.perform operation).after)

/-! ## Entries after a change of the list -/

theorem find?_place {table : Table} {tables : List Table}
    (hnew : ∀ other ∈ tables, other.name ≠ table.name) (name : String) :
    (place table tables).find? (·.name == name) =
      if name = table.name then some table else tables.find? (·.name == name) := by
  induction tables with
  | nil => grind [place]
  | cons first rest ih =>
    have hfirst : first.name ≠ table.name := hnew first List.mem_cons_self
    have hrest := ih fun other hother => hnew other (List.mem_cons_of_mem first hother)
    unfold place
    split
    · grind
    · -- the first table stays in front, and its name is another one
      rw [List.find?_cons, hrest, List.find?_cons]
      grind

theorem find?_filter_name (tables : List Table) (dropped name : String) :
    (tables.filter (·.name != dropped)).find? (·.name == name) =
      if name = dropped then none else tables.find? (·.name == name) := by
  rw [List.find?_filter]
  split
  · rename_i heq
    simp [heq]
  · rename_i hne
    congr 1
    funext table
    grind

/-- The tables of other names are found as before. -/
theorem find?_replace_ne (catalog : Catalog) (table : Table) {name : String}
    (hne : name ≠ table.name) : (catalog.replace table).find? name = catalog.find? name := by
  rw [find?_replace_eq]
  cases hfound : catalog.find? name with
  | none => rfl
  | some other =>
    obtain ⟨-, hname⟩ := find?_eq_some hfound
    rw [Option.map_some, if_neg (by rwa [hname])]

/-! ## Requests and entries -/

/-- The table of a name is the one that is found under it. -/
theorem Sound.mem_iff {catalog : Catalog} (h : catalog.Sound) {table : Table} :
    table ∈ catalog.tables ↔ catalog.find? table.name = some table := by
  constructor
  · intro htable
    cases hfound : catalog.find? table.name with
    | none => exact absurd rfl (find?_eq_none.mp hfound table htable)
    | some other =>
      obtain ⟨hother, hname⟩ := find?_eq_some hfound
      rw [eq_of_name_eq h.ordered hother htable hname]
  · intro hfound
    exact (find?_eq_some hfound).1

/-- Sound catalogs with the same entries are the same. -/
theorem Sound.ext {a b : Catalog} (ha : a.Sound) (hb : b.Sound) (hname : a.name = b.name)
    (hentries : ∀ name, a.find? name = b.find? name) : a = b := by
  have hmem : ∀ table, table ∈ a.tables ↔ table ∈ b.tables := by
    intro table
    rw [ha.mem_iff, hb.mem_iff, hentries]
  -- two lists in the order of the names that have the same members
  have htables : a.tables = b.tables := by
    have hirrefl : Std.Irrefl fun x y : Table => x.name < y.name := ⟨fun x => String.lt_irrefl _⟩
    have hantisymm : Std.Antisymm fun x y : Table => x.name < y.name :=
      ⟨fun x y hxy hyx => absurd (String.lt_trans hxy hyx) (String.lt_irrefl _)⟩
    exact ha.ordered.eq_of_mem_iff hb.ordered hmem
  obtain ⟨name, tables⟩ := a
  obtain ⟨name', tables'⟩ := b
  obtain rfl : name = name' := hname
  obtain rfl : tables = tables' := htables
  rfl

/-- Carrying out a request is acting on the entry of its table, and on no other. -/
theorem Sound.perform_entry {catalog : Catalog} (h : catalog.Sound) (command : Command) :
    (catalog.perform command).answer = (command.act (catalog.find? command.table)).1 ∧
    ∀ name, (catalog.perform command).after.find? name =
      if name = command.table then (command.act (catalog.find? command.table)).2
      else catalog.find? name := by
  -- a request that changes nothing leaves its entry as well
  have hsame : ∀ {entry : Option Table} (name : String), catalog.find? command.table = entry →
      catalog.find? name = if name = command.table then entry else catalog.find? name := by
    rintro entry name rfl
    split
    · rename_i heq
      rw [heq]
    · rfl
  cases command with
  | create name schema =>
    simp only [Catalog.perform, create, Command.table] at hsame ⊢
    cases hfound : catalog.find? name with
    | none => exact ⟨rfl, find?_place (find?_eq_none.mp hfound)⟩
    | some table => exact ⟨rfl, fun other => hsame other hfound⟩
  | drop name =>
    simp only [Catalog.perform, drop, Command.table] at hsame ⊢
    cases hfound : catalog.find? name with
    | none => exact ⟨rfl, fun other => hsame other hfound⟩
    | some table => exact ⟨rfl, find?_filter_name catalog.tables name⟩
  | call name operation =>
    simp only [Catalog.perform, alter, Command.table] at hsame ⊢
    cases hfound : catalog.find? name with
    | none => exact ⟨rfl, fun other => hsame other hfound⟩
    | some table =>
      obtain ⟨htable, hown⟩ := find?_eq_some hfound
      obtain ⟨rows, hrows⟩ := h.tables table htable
      -- the table that is put back has kept its name
      have hname := hrows.name_perform operation
      have hentries : ∀ other, (catalog.replace (table.perform operation).after).find? other =
          if other = name then some (table.perform operation).after else catalog.find? other := by
        intro other
        split
        · rename_i heq
          rw [heq]
          exact find?_replace hfound hname
        · rename_i hne
          exact find?_replace_ne catalog _ (by rwa [hname, hown])
      simp only [Command.act]
      generalize table.perform operation = change at hentries
      cases change <;> exact ⟨rfl, hentries⟩

/-- Where the table of a request that has succeeded comes from: it is new, or an operation has made it
of the one before. -/
theorem Effect.own_table {catalog after : Catalog} {command : Command} {answer : Answer}
    {table : Table} (heffect : Effect catalog command (.ok answer after))
    (hfound : after.find? command.table = some table) :
    (∃ schema, command = .create table.name schema ∧ table = Table.empty table.name schema) ∨
      ∃ before operation, command = .call table.name operation ∧
        catalog.find? table.name = some before ∧ before.perform operation = .ok answer table := by
  obtain ⟨-, hname⟩ := find?_eq_some hfound
  cases heffect with
  | @creates name schema hnew =>
    have hplaced := @find?_place (Table.empty name schema) _ (find?_eq_none.mp hnew) name
    obtain rfl : Table.empty name schema = table :=
      Option.some.inj ((hplaced.trans (if_pos rfl)).symm.trans hfound)
    exact .inl ⟨schema, rfl, rfl⟩
  | @drops name =>
    -- a table that has been taken out is not found
    have hgone := find?_filter_name catalog.tables name name
    cases (hgone.trans (if_pos rfl)).symm.trans hfound
  | @calls name before after rows operation answer hbefore hperform hkept =>
    obtain rfl : after = table :=
      Option.some.inj ((find?_replace hbefore hkept).symm.trans hfound)
    obtain rfl : after.name = name := hname
    exact .inr ⟨before, operation, rfl, hbefore, hperform⟩

/-- No request gives the catalog another name. -/
theorem Effect.name_eq {catalog : Catalog} {command : Command} {change : Change}
    (heffect : Effect catalog command change) : change.after.name = catalog.name := by
  cases heffect <;> rfl

end Catalog

end TableStore
