import TableStore.Proofs.Storage.Catalog

/-!
# One insertion or two

An insertion compares its keys with the stored ones and with each other in one passage. Of two
insertions, the second one finds the keys of the first among the stored ones instead. Both ways of
looking come to the same: tuples are inserted together exactly if they can be inserted one part after
the other, wherever they are cut.

* `Table.Represents.insert_append_iff` — an insertion in one part and in two.
* `Table.Represents.after_of_insert_error` — what an insertion leaves that fails.
* `Catalog.insertion_divides` — both for every table of every catalog that comes of requests.
-/

namespace TableStore

namespace Table.Represents

variable {table : Table} {rows : List (List Value)} {columns : Option (List String)}

/-- Tuples are inserted together exactly if the first of them are inserted and then the others. The
table that comes out is the same, and the counts add up. -/
theorem insert_append_iff (h : table.Represents ⟨table.schema, rows⟩) {a b : List (List Value)}
    {count : Nat} {after : Table} :
    table.insert columns (a ++ b) = .ok count after ↔
      ∃ m middle n, table.insert columns a = .ok m middle ∧ middle.insert columns b = .ok n after ∧
        count = m + n := by
  have hkeys : (table.schema.keys rows).Nodup := h.keys
  constructor
  · intro hok
    obtain ⟨order, horder, haccepts, hnodup, rfl, hname, hschema, hholds⟩ :=
      h.holds.of_insert_ok hkeys hok
    rw [List.all_append, Bool.and_eq_true] at haccepts
    rw [List.map_append, ← List.append_assoc] at hnodup hholds
    -- the first tuples can be inserted alone, for their rows stand in front
    have hfront := Schema.nodup_keys_of_sublist hnodup (List.sublist_append_left _ _)
    obtain ⟨middle, hfirst, hname₁, hschema₁, hholds₁⟩ :=
      h.holds.insert_ok hkeys horder haccepts.1 hfront
    rw [← hschema₁] at horder haccepts hnodup hfront
    -- and the others fit behind them
    obtain ⟨after', hsecond, hname₂, hschema₂, hholds₂⟩ :=
      hholds₁.insert_ok hfront horder haccepts.2 hnodup
    have hsame : after' = after := hholds₂.unique hholds
      ((hname₂.trans hname₁).trans hname.symm) ((hschema₂.trans hschema₁).trans hschema.symm)
    rw [hsame] at hsecond
    exact ⟨a.length, middle, b.length, hfirst, hsecond, List.length_append⟩
  · rintro ⟨m, middle, n, hfirst, hsecond, rfl⟩
    obtain ⟨order, horder, haccepts₁, hfront, rfl, hname₁, hschema₁, hholds₁⟩ :=
      h.holds.of_insert_ok hkeys hfirst
    rw [← hschema₁] at hfront
    obtain ⟨order', horder', haccepts₂, hnodup, rfl, hname₂, hschema₂, hholds₂⟩ :=
      hholds₁.of_insert_ok hfront hsecond
    rw [hschema₁] at horder' haccepts₂ hnodup
    -- the values of all tuples go to the same columns
    obtain rfl : order = order' := Option.some.inj (horder.symm.trans horder')
    have haccepts : (a ++ b).all (table.schema.accepts order) = true := by
      rw [List.all_append, haccepts₁, haccepts₂, Bool.and_self]
    rw [List.append_assoc, ← List.map_append] at hnodup hholds₂
    obtain ⟨after', hok, hname, hschema, hholds⟩ :=
      h.holds.insert_ok hkeys horder haccepts hnodup
    have hsame : after' = after := hholds.unique hholds₂
      (hname.trans (hname₂.trans hname₁).symm) (hschema.trans (hschema₂.trans hschema₁).symm)
    rw [hok, hsame, List.length_append]

/-- An insertion that fails leaves the table as it was. -/
theorem after_of_insert_error (h : table.Represents ⟨table.schema, rows⟩)
    {tuples : List (List Value)} {cause : Error} {after : Table}
    (herr : table.insert columns tuples = .error cause after) : after = table := by
  have hkeys : (table.schema.keys rows).Nodup := h.keys
  rcases h.holds.insert_eq hkeys columns tuples with
    ⟨_, -, -, -, after', hok, -⟩ | ⟨_, -, -, -, key, -, herr'⟩ | ⟨-, cause', herr', -⟩
  · cases hok.symm.trans herr
  · cases herr'.symm.trans herr
    rfl
  · cases herr'.symm.trans herr
    rfl

end Table.Represents

/-- Whatever a catalog has been asked for: into each of its tables, tuples are inserted by one request
exactly if the first of them are inserted and then the others into the table that comes of it, wherever
the tuples are cut and whatever columns they are given for. Both ways lead to the same table, and the
numbers of inserted rows add up. If the one request fails, the table is as it was. -/
theorem Catalog.insertion_divides (name : String) (commands : List Command) {table : Table}
    (htable : table ∈ ((empty name).run commands).tables) (columns : Option (List String))
    (a b : List (List Value)) :
    (∀ count after, table.insert columns (a ++ b) = .ok count after ↔
      ∃ m middle n, table.insert columns a = .ok m middle ∧ middle.insert columns b = .ok n after ∧
        count = m + n) ∧
    ∀ cause after, table.insert columns (a ++ b) = .error cause after → after = table := by
  obtain ⟨rows, hrows⟩ := (sound_run name commands).tables table htable
  exact ⟨fun count after => hrows.insert_append_iff, fun cause after => hrows.after_of_insert_error⟩

/-- Three rows with a list of columns, cut behind the second one, and the first two of them twice. -/
theorem Catalog.insertion_divides_three_rows :
    let schema : Schema := ⟨[⟨"id", .integer⟩, ⟨"name", .text⟩], some "id"⟩
    let catalog := (empty "main").run
      [.create "t" schema, .call "t" (.insert none [[.integer 2, .text "b"]])]
    let columns := some ["name", "id"]
    let a : List (List Value) := [[.text "c", .integer 3], [.text "a", .integer 1]]
    let b : List (List Value) := [[.text "d", .integer 4]]
    ∃ table ∈ catalog.tables, (∃ m middle n after,
      table.insert columns a = .ok m middle ∧ middle.insert columns b = .ok n after ∧ 3 = m + n) ∧
      table.insert columns (a ++ a) = .error (.duplicateKey "id" "t" (.integer 3)) table := by
  intro schema catalog columns a b
  obtain ⟨table, after, after', htables, hok, herr⟩ : ∃ table after after',
      catalog.tables = [table] ∧ table.insert columns (a ++ b) = .ok 3 after ∧
      table.insert columns (a ++ a) = .error (.duplicateKey "id" "t" (.integer 3)) after' :=
    ⟨_, _, _, rfl, rfl, rfl⟩
  have htable : table ∈ catalog.tables := by
    rw [htables]
    exact List.mem_singleton_self table
  obtain ⟨m, middle, n, hfirst, hsecond, hcount⟩ :=
    (insertion_divides "main" _ htable columns a b).1 3 after |>.mp hok
  have hsame := (insertion_divides "main" _ htable columns a a).2 _ after' herr
  rw [hsame] at herr
  exact ⟨table, htable, ⟨m, middle, n, after, hfirst, hsecond, hcount⟩, herr⟩

end TableStore
