import TableEngine.Proofs.Reachable

/-!
What a statement that succeeds changes, and that it changes nothing else. Changes of the ordered maps
that hold databases and tables are told by the pairs in front of and behind the changed place
(`OrderedMap.Appended`, `OrderedMap.Removed`, `OrderedMap.Replaced`), so that the other pairs and their
order are seen to stay. `Session.changesOnlyTarget_of_perform` says which of these changes each
statement makes.
-/

namespace TableEngine

namespace OrderedMap

variable {α : Type}

/-- There is one more pair, behind all others. -/
def Appended (key : String) (value : α) (before after : OrderedMap α) : Prop :=
  after.entries = before.entries ++ [(key, value)]

/-- There is one pair less. -/
def Removed (key : String) (value : α) (before after : OrderedMap α) : Prop :=
  ∃ front back, before.entries = front ++ (key, value) :: back ∧ after.entries = front ++ back

/-- A name has another value, at the same place. -/
def Replaced (key : String) (old new : α) (before after : OrderedMap α) : Prop :=
  ∃ front back, before.entries = front ++ (key, old) :: back ∧
    after.entries = front ++ (key, new) :: back

/-- No other pair has the name of a pair that is cut out of a map. -/
theorem not_mem_of_entries_eq {m : OrderedMap α} {front back : List (String × α)} {key : String}
    {value : α} (hentries : m.entries = front ++ (key, value) :: back) :
    key ∉ front.map Prod.fst ∧ key ∉ back.map Prod.fst := by
  have hnodup := m.nodup_keys
  rw [hentries, List.map_append, List.map_cons, List.nodup_append, List.nodup_cons] at hnodup
  obtain ⟨-, ⟨hback, -⟩, hfront⟩ := hnodup
  exact ⟨fun hmem => hfront key hmem key List.mem_cons_self rfl, hback⟩

theorem put_append_cons {front : List (String × α)} {key : String}
    (hfront : key ∉ front.map Prod.fst) (old new : α) (back : List (String × α)) :
    put key new (front ++ (key, old) :: back) = front ++ (key, new) :: back := by
  induction front with
  | nil => exact if_pos rfl
  | cons pair front ih =>
    obtain ⟨k, v⟩ := pair
    rw [List.map_cons, List.mem_cons, not_or] at hfront
    rw [List.cons_append, put, if_neg (Ne.symm hfront.1), ih hfront.2]
    rfl

theorem filter_ne_append_cons {front back : List (String × α)} {key : String}
    (hfront : key ∉ front.map Prod.fst) (hback : key ∉ back.map Prod.fst) (value : α) :
    (front ++ (key, value) :: back).filter (·.1 ≠ key) = front ++ back := by
  have hkeep {pairs : List (String × α)} (hpairs : key ∉ pairs.map Prod.fst) :
      pairs.filter (·.1 ≠ key) = pairs := by
    refine List.filter_eq_self.2 fun pair hpair => decide_eq_true fun heq => hpairs ?_
    exact heq ▸ List.mem_map_of_mem hpair
  rw [List.filter_append, hkeep hfront, List.filter_cons_of_neg (by simp), hkeep hback]

theorem appended_iff {before after : OrderedMap α} {key : String} {value : α} :
    Appended key value before after ↔ key ∉ before.keys ∧ before.insert key value = after := by
  constructor
  · intro hentries
    have hnew : key ∉ before.keys := (not_mem_of_entries_eq hentries).1
    exact ⟨hnew, OrderedMap.ext ((entries_insert_of_not_mem value hnew).trans hentries.symm)⟩
  · rintro ⟨hnew, rfl⟩
    exact entries_insert_of_not_mem value hnew

theorem removed_iff {before after : OrderedMap α} {key : String} {value : α} :
    Removed key value before after ↔ before.get? key = some value ∧ before.erase key = after := by
  have herase {front back : List (String × α)}
      (hentries : before.entries = front ++ (key, value) :: back) :
      (before.erase key).entries = front ++ back := by
    obtain ⟨hfront, hback⟩ := not_mem_of_entries_eq hentries
    change before.entries.filter (·.1 ≠ key) = _
    rw [hentries, filter_ne_append_cons hfront hback]
  constructor
  · rintro ⟨front, back, hbefore, hafter⟩
    have hmem : (key, value) ∈ before.entries := by simp [hbefore]
    exact ⟨get?_eq_some_iff.2 hmem, OrderedMap.ext ((herase hbefore).trans hafter.symm)⟩
  · rintro ⟨hget, rfl⟩
    obtain ⟨front, back, hentries⟩ := List.append_of_mem (get?_eq_some_iff.1 hget)
    exact ⟨front, back, hentries, herase hentries⟩

theorem replaced_iff {before after : OrderedMap α} {key : String} {old new : α} :
    Replaced key old new before after ↔
      before.get? key = some old ∧ before.insert key new = after := by
  have hinsert {front back : List (String × α)}
      (hentries : before.entries = front ++ (key, old) :: back) :
      (before.insert key new).entries = front ++ (key, new) :: back := by
    change put key new before.entries = _
    rw [hentries, put_append_cons (not_mem_of_entries_eq hentries).1]
  constructor
  · rintro ⟨front, back, hbefore, hafter⟩
    have hmem : (key, old) ∈ before.entries := by simp [hbefore]
    exact ⟨get?_eq_some_iff.2 hmem, OrderedMap.ext ((hinsert hbefore).trans hafter.symm)⟩
  · rintro ⟨hget, rfl⟩
    obtain ⟨front, back, hentries⟩ := List.append_of_mem (get?_eq_some_iff.1 hget)
    exact ⟨front, back, hentries, hinsert hentries⟩

theorem get?_erase_of_ne (m : OrderedMap α) {key name : String} (hne : name ≠ key) :
    (m.erase key).get? name = m.get? name := by
  apply Option.ext
  intro value
  rw [get?_eq_some_iff, get?_eq_some_iff, mem_entries_erase]
  exact and_iff_right hne

end OrderedMap

open Mutation OrderedMap

namespace Table

/-- Inserting, updating and deleting rows leaves the name and the schema of a table as they are. -/
theorem exists_rows_of_insert {before after : Table} {columns : Option (List String)}
    {tuples : List (List Value)} {count : Nat}
    (hrun : (insert columns tuples).run before = (after, .ok count)) :
    ∃ rows, after = { before with rows } := by
  obtain ⟨_, -, rows, -, rfl, -⟩ := run_insert_eq_ok_iff.1 hrun
  exact ⟨_, rfl⟩

theorem exists_rows_of_updateWhere {before after : Table} {assignments : List Assignment}
    {clause : Clause} {count : Nat}
    (hrun : (updateWhere assignments clause).run before = (after, .ok count)) :
    ∃ rows, after = { before with rows } := by
  obtain ⟨-, _, -, hupdate⟩ := run_updateWhere_eq_ok_iff.1 hrun
  obtain ⟨_, -, rfl, -⟩ := run_update_eq_ok_iff.1 hupdate
  exact ⟨_, rfl⟩

theorem exists_rows_of_deleteWhere {before after : Table} {clause : Clause} {count : Nat}
    (hrun : (deleteWhere clause).run before = (after, .ok count)) :
    ∃ rows, after = { before with rows } := by
  obtain ⟨_, -, hdelete⟩ := run_deleteWhere_eq_ok_iff.1 hrun
  obtain rfl : _ = after := (Prod.mk.inj hdelete).1
  exact ⟨_, rfl⟩

end Table

/-! The changes that statements make. -/

namespace Catalog

/-- Of all databases only the one of a name is changed, in the given way. -/
def ChangesOnly (name : String) (Changes : Database → Database → Prop) (before after : Catalog) :
    Prop :=
  ∃ old new, Replaced name old new before.databases after.databases ∧ Changes old new

end Catalog

namespace Database

/-- There is one more table, which is empty and comes last. -/
def AppendsTable (name : String) (before after : Database) : Prop :=
  ∃ table : Table, table.name = name ∧ table.rows = [] ∧
    Appended name table before.tables after.tables

/-- There is one table less. -/
def RemovesTable (name : String) (before after : Database) : Prop :=
  ∃ table, Removed name table before.tables after.tables

/-- One table has other rows. -/
def ChangesRows (name : String) (before after : Database) : Prop :=
  ∃ (table : Table) (rows : List Row),
    Replaced name table { table with rows } before.tables after.tables

end Database

namespace Session

/-- A change in the database in use: it stays in use, and nothing changes but this database. -/
def ChangesActive (Changes : Database → Database → Prop) (before after : Session) : Prop :=
  after.active = before.active ∧
    ∃ name catalog changed, before.active = some name ∧ before.catalog = some catalog ∧
      after.catalog = some changed ∧ catalog.ChangesOnly name Changes changed

/-- What a statement is about is changed as the statement says, and nothing else is changed. -/
def ChangesOnlyTarget (before after : Session) : Statement → Prop
  | .createDatabase name =>
    after.active = before.active ∧
      ∃ catalog changed, before.catalog = some catalog ∧ after.catalog = some changed ∧
        Appended name .empty catalog.databases changed.databases
  | .dropDatabase name =>
    after.active = (if before.active = some name then none else before.active) ∧
      ∃ catalog changed database, before.catalog = some catalog ∧ after.catalog = some changed ∧
        Removed name database catalog.databases changed.databases
  | .useDatabase name =>
    after.active = some name ∧ after.catalog = before.catalog ∧
      ∃ catalog, before.catalog = some catalog ∧ name ∈ catalog.databaseNames
  | .createTable name _ => ChangesActive (Database.AppendsTable name) before after
  | .dropTable name => ChangesActive (Database.RemovesTable name) before after
  | .insert name _ _ | .update name _ _ | .delete name _ =>
    ChangesActive (Database.ChangesRows name) before after
  | .showDatabases | .showTables | .describe _ | .select .. =>
    after.active = before.active ∧ after.catalog = before.catalog

theorem run_createDatabase_eq_ok_iff {before after : Session} {name : String} {outcome : Outcome} :
    (createDatabase name).run before = (after, .ok outcome) ↔
      ∃ catalog, before.catalog = some catalog ∧ isValidName name = true ∧
        name ∉ catalog.databaseNames ∧
        { before with catalog := some ⟨catalog.databases.insert name .empty⟩ } = after ∧
        .affected 1 = outcome := by
  simp only [createDatabase, run_bind_eq_ok_iff, run_inCatalog_eq_ok_iff,
    Catalog.run_createDatabase_eq_ok_iff, run_pure, Prod.mk.injEq, Except.ok.injEq]
  constructor
  · rintro ⟨_, _, ⟨catalog, _, hcatalog, ⟨hname, hnew, rfl⟩, rfl⟩, rfl, rfl⟩
    exact ⟨catalog, hcatalog, hname, hnew, rfl, rfl⟩
  · rintro ⟨catalog, hcatalog, hname, hnew, rfl, rfl⟩
    exact ⟨_, (), ⟨catalog, _, hcatalog, ⟨hname, hnew, rfl⟩, rfl⟩, rfl, rfl⟩

theorem run_dropDatabase_eq_ok {before after : Session} {name : String} {outcome : Outcome}
    (hrun : (dropDatabase name).run before = (after, .ok outcome)) :
    ∃ catalog, before.catalog = some catalog ∧ name ∈ catalog.databaseNames ∧
      after.catalog = some ⟨catalog.databases.erase name⟩ ∧
      after.active = if before.active = some name then none else before.active := by
  obtain ⟨middle, tables, hdrop, hrest⟩ := run_bind_eq_ok_iff.1 hrun
  obtain ⟨catalog, dropped, hcatalog, hinner, rfl⟩ := run_inCatalog_eq_ok_iff.1 hdrop
  rw [run_get_bind] at hinner
  obtain ⟨erased, u, herase, heq⟩ := run_bind_eq_ok_iff.1 hinner
  obtain rfl : erased = dropped := (Prod.mk.inj heq).1
  obtain ⟨hname, rfl⟩ := Catalog.run_dropDatabase_eq_ok_iff.1 herase
  obtain rfl : _ = after := (Prod.mk.inj hrest).1
  refine ⟨catalog, hcatalog, hname, ?_, ?_⟩
  · dsimp only
    split <;> rfl
  · dsimp only
    split <;> rfl

theorem run_useDatabase_eq_ok_iff {before after : Session} {name : String} {outcome : Outcome} :
    (useDatabase name).run before = (after, .ok outcome) ↔
      (∃ catalog, before.catalog = some catalog ∧ name ∈ catalog.databaseNames) ∧
        { before with active := some name } = after ∧ .affected 0 = outcome := by
  simp only [useDatabase, run_get_bind, run_require_bind_eq_ok_iff, run_modify_bind, run_pure,
    Prod.mk.injEq, Except.ok.injEq, Option.any_eq_true, Catalog.hasDatabase, contains_iff,
    Catalog.databaseNames]

theorem changesActive_of_inActive {β : Type} {change : Mutation Database β}
    {Changes : Database → Database → Prop} {before after : Session} {b : β}
    (hchange : ∀ {old new}, change.run old = (new, .ok b) → Changes old new)
    (hrun : (inActive change).run before = (after, .ok b)) : ChangesActive Changes before after := by
  obtain ⟨name, catalog, old, new, hactive, hcatalog, hold, hnew, rfl⟩ := run_inActive_eq_ok_iff.1 hrun
  exact ⟨rfl, name, catalog, _, hactive, hcatalog, rfl, old, new, replaced_iff.2 ⟨hold, rfl⟩,
    hchange hnew⟩

theorem changesActive_of_changeTable {name : String} {change : Mutation Table Nat}
    {before after : Session} {outcome : Outcome}
    (hchange : ∀ {old new count}, change.run old = (new, .ok count) → ∃ rows, new = { old with rows })
    (hrun : (changeTable name change).run before = (after, .ok outcome)) :
    ChangesActive (Database.ChangesRows name) before after := by
  obtain ⟨count, hactive, -⟩ := run_map_eq_ok_iff.1 hrun
  refine changesActive_of_inActive ?_ hactive
  intro database changed hinTable
  obtain ⟨table, new, htable, hnew, rfl⟩ := Database.run_inTable_eq_ok_iff.1 hinTable
  obtain ⟨rows, rfl⟩ := hchange hnew
  exact ⟨table, rows, replaced_iff.2 ⟨htable, rfl⟩⟩

theorem changesOnlyTarget_of_perform {before after : Session} {statement : Statement}
    {outcome : Outcome} (hrun : (perform statement).run before = (after, .ok outcome)) :
    ChangesOnlyTarget before after statement := by
  cases statement with
  | createDatabase name =>
    obtain ⟨catalog, hcatalog, -, hnew, rfl, -⟩ := run_createDatabase_eq_ok_iff.1 hrun
    exact ⟨rfl, catalog, _, hcatalog, rfl, appended_iff.2 ⟨hnew, rfl⟩⟩
  | dropDatabase name =>
    obtain ⟨catalog, hcatalog, hname, hdropped, hactive⟩ := run_dropDatabase_eq_ok hrun
    obtain ⟨database, hdatabase⟩ := exists_get?_of_mem_keys hname
    exact ⟨hactive, catalog, _, database, hcatalog, hdropped, removed_iff.2 ⟨hdatabase, rfl⟩⟩
  | useDatabase name =>
    obtain ⟨hname, rfl, -⟩ := run_useDatabase_eq_ok_iff.1 hrun
    exact ⟨rfl, rfl, hname⟩
  | createTable name columns =>
    obtain ⟨middle, u, hcreate, heq⟩ := run_bind_eq_ok_iff.1 hrun
    obtain rfl : middle = after := (Prod.mk.inj heq).1
    refine changesActive_of_inActive ?_ hcreate
    intro old new hnew
    obtain ⟨-, hname, schema, -, -, rfl⟩ := Database.run_createTable_eq_ok_iff.1 hnew
    exact ⟨.new name schema, rfl, rfl, appended_iff.2 ⟨hname, rfl⟩⟩
  | dropTable name =>
    obtain ⟨middle, u, hdrop, heq⟩ := run_bind_eq_ok_iff.1 hrun
    obtain rfl : middle = after := (Prod.mk.inj heq).1
    refine changesActive_of_inActive ?_ hdrop
    intro old new hnew
    obtain ⟨hname, rfl⟩ := Database.run_dropTable_eq_ok_iff.1 hnew
    obtain ⟨table, htable⟩ := exists_get?_of_mem_keys hname
    exact ⟨table, removed_iff.2 ⟨htable, rfl⟩⟩
  | insert name columns tuples =>
    exact changesActive_of_changeTable Table.exists_rows_of_insert hrun
  | update name assignments clause =>
    exact changesActive_of_changeTable Table.exists_rows_of_updateWhere hrun
  | delete name clause => exact changesActive_of_changeTable Table.exists_rows_of_deleteWhere hrun
  | showDatabases | showTables | describe | select =>
    obtain rfl : before = after := (Prod.mk.inj hrun).1
    exact ⟨rfl, rfl⟩

/-- A statement that succeeds, given as such or as text, changes only what it is about. -/
theorem success_changes_only_target (before : Session) :
    (∀ statement after outcome, before.executeStatement statement = (after, .ok outcome) →
        ChangesOnlyTarget before after statement) ∧
      ∀ text after outcome, before.execute text = (after, .ok outcome) →
        ∃ statement, Statement.parse text = .ok statement ∧
          ChangesOnlyTarget before after statement := by
  constructor
  · intro statement after outcome hexecute
    exact changesOnlyTarget_of_perform hexecute
  · intro text after outcome hexecute
    unfold execute at hexecute
    dsimp only at hexecute
    split at hexecute
    · next statement hparse =>
      -- The text is logged first, which changes neither the catalog nor the database in use.
      have htarget : ChangesOnlyTarget (before.record text) after statement :=
        changesOnlyTarget_of_perform hexecute
      exact ⟨statement, hparse, by cases statement <;> exact htarget⟩
    · cases hexecute

/-- Two databases with a table of the same name, which has others in front and behind in one of them. -/
def libraries : Session :=
  (fresh .standard).run [
    .executeStatement (.createDatabase "north"),
    .executeStatement (.createDatabase "south"),
    .executeStatement (.useDatabase "south"),
    .executeStatement (.createTable "books" [⟨"id", "INT"⟩]),
    .executeStatement (.useDatabase "north"),
    .executeStatement (.createTable "shelves" [⟨"id", "INT"⟩]),
    .executeStatement (.createTable "books" [⟨"id", "INT"⟩]),
    .executeStatement (.createTable "loans" [⟨"id", "INT"⟩])]

/-- The tables behind a dropped one keep their order, and a table of that name elsewhere stays. -/
theorem success_changes_only_target_libraries :
    ∃ after, libraries.executeStatement (.dropTable "books") = (after, .ok (.affected 0)) ∧
      ChangesOnlyTarget libraries after (.dropTable "books") ∧
      after.catalog.map (fun catalog => catalog.databases.entries.map fun entry =>
        (entry.1, entry.2.tableNames)) =
          some [("north", ["shelves", "loans"]), ("south", ["books"])] :=
  ⟨_, rfl, (success_changes_only_target libraries).1 _ _ _ rfl, rfl⟩

end Session

end TableEngine
