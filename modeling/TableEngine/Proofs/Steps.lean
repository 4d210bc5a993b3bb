import TableEngine.Session

/-!
What a change has found and what it has done when it succeeds, one statement for each operation. The
proofs about whole statements open them by these and unfold no operation.
-/

namespace TableEngine

variable {α β : Type}

theorem bind_eq_ok_iff {ε : Type} {first : Except ε α} {next : α → Except ε β} {b : β} :
    (first >>= next) = .ok b ↔ ∃ a, first = .ok a ∧ next a = .ok b := by
  cases first <;> simp [bind, Except.bind]

theorem bind_eq_error_iff {ε : Type} {first : Except ε α} {next : α → Except ε β} {error : ε} :
    (first >>= next) = .error error ↔
      first = .error error ∨ ∃ a, first = .ok a ∧ next a = .error error := by
  cases first <;> simp [bind, Except.bind]

/-- Steps over a list all succeed, each with its own result. -/
theorem mapM_eq_ok_iff {ε : Type} {step : α → Except ε β} {items : List α} {results : List β} :
    items.mapM step = .ok results ↔ items.map step = results.map .ok := by
  induction items generalizing results with
  | nil => cases results <;> simp [pure, Except.pure]
  | cons item items ih =>
    simp only [List.mapM_cons, bind_eq_ok_iff, List.map_cons]
    constructor
    · rintro ⟨result, hitem, others, hitems, heq⟩
      obtain rfl := Except.ok.inj heq
      rw [hitem, ih.1 hitems, List.map_cons]
    · intro heq
      cases results with
      | nil => cases heq
      | cons result others =>
        obtain ⟨hitem, hitems⟩ := List.cons.inj heq
        exact ⟨result, hitem, others, ih.2 hitems, rfl⟩

theorem exists_mapM_eq_ok_iff {ε : Type} {step : α → Except ε β} {items : List α} :
    (∃ results, items.mapM step = .ok results) ↔ ∀ item ∈ items, ∃ result, step item = .ok result := by
  simp only [mapM_eq_ok_iff]
  constructor
  · rintro ⟨results, hresults⟩ item hitem
    have hmem := List.mem_map_of_mem (f := step) hitem
    rw [hresults] at hmem
    obtain ⟨result, -, heq⟩ := List.mem_map.1 hmem
    exact ⟨result, heq.symm⟩
  · intro hstep
    induction items with
    | nil => exact ⟨[], rfl⟩
    | cons item items ih =>
      obtain ⟨hitem, hitems⟩ := List.forall_mem_cons.1 hstep
      obtain ⟨result, hresult⟩ := hitem
      obtain ⟨results, hresults⟩ := ih hitems
      exact ⟨result :: results, by rw [List.map_cons, hresult, hresults, List.map_cons]⟩

theorem exists_of_mapM_eq_ok {ε : Type} {step : α → Except ε β} {items : List α} {results : List β}
    (hmap : items.mapM step = .ok results) {result : β} (hresult : result ∈ results) :
    ∃ item ∈ items, step item = .ok result := by
  have hmem : .ok result ∈ items.map step := by
    rw [mapM_eq_ok_iff.1 hmap]
    exact List.mem_map_of_mem hresult
  exact List.mem_map.1 hmem

/-- Steps over a list fail with the error of the first step that fails. -/
theorem mapM_eq_error_iff {ε : Type} {step : α → Except ε β} {items : List α} {error : ε} :
    items.mapM step = .error error ↔ ∃ front item back, items = front ++ item :: back ∧
      (∀ earlier ∈ front, ∃ result, step earlier = .ok result) ∧ step item = .error error := by
  induction items with
  | nil => simp [pure, Except.pure]
  | cons first items ih =>
    rw [List.mapM_cons, bind_eq_error_iff]
    constructor
    · rintro (hfirst | ⟨result, hfirst, hrest⟩)
      · exact ⟨[], first, items, rfl, List.forall_mem_nil _, hfirst⟩
      · rcases bind_eq_error_iff.1 hrest with hitems | ⟨others, -, hpure⟩
        · obtain ⟨front, item, back, rfl, hfront, hitem⟩ := ih.1 hitems
          exact ⟨first :: front, item, back, rfl,
            List.forall_mem_cons.2 ⟨⟨result, hfirst⟩, hfront⟩, hitem⟩
        · cases hpure
    · rintro ⟨front, item, back, heq, hfront, hitem⟩
      cases front with
      | nil =>
        obtain ⟨rfl, rfl⟩ := List.cons.inj heq
        exact .inl hitem
      | cons earlier front =>
        obtain ⟨rfl, rfl⟩ := List.cons.inj heq
        obtain ⟨⟨result, hfirst⟩, hfront⟩ := List.forall_mem_cons.1 hfront
        have hitems := ih.2 ⟨front, item, back, rfl, hfront, hitem⟩
        exact .inr ⟨result, hfirst, bind_eq_error_iff.2 (.inl hitems)⟩

namespace Mutation

variable {σ τ : Type}

theorem run_bind_eq_ok_iff {change : Mutation σ α} {next : α → Mutation σ β} {before after : σ}
    {b : β} :
    (change >>= next).run before = (after, .ok b) ↔
      ∃ middle a, change.run before = (middle, .ok a) ∧ (next a).run middle = (after, .ok b) := by
  rw [run_bind]
  cases change.run before with
  | mk middle result =>
    cases result with
    | error error => simp
    | ok a =>
      constructor
      · intro hnext
        exact ⟨middle, a, rfl, hnext⟩
      · rintro ⟨_, _, heq, hnext⟩
        cases heq
        exact hnext

@[simp]
theorem run_liftM_bind_eq_ok_iff {result : Except Error α} {next : α → Mutation σ β}
    {before after : σ} {b : β} :
    (liftM result >>= next).run before = (after, .ok b) ↔
      ∃ a, result = .ok a ∧ (next a).run before = (after, .ok b) := by
  rw [run_bind, run_liftM]
  cases result <;> simp

@[simp]
theorem run_require_eq_ok_iff {condition : Bool} {error : Error} {before after : σ} {u : Unit} :
    (require condition error).run before = (after, .ok u) ↔ condition = true ∧ before = after := by
  rw [run_require]
  cases condition <;> simp

@[simp]
theorem run_require_bind_eq_ok_iff {condition : Bool} {error : Error} {next : Unit → Mutation σ β}
    {before after : σ} {b : β} :
    (require condition error >>= next).run before = (after, .ok b) ↔
      condition = true ∧ (next ()).run before = (after, .ok b) := by
  rw [run_bind, run_require]
  cases condition <;> simp

theorem run_map_eq_ok_iff {change : Mutation σ α} {f : α → β} {before after : σ} {b : β} :
    (f <$> change).run before = (after, .ok b) ↔
      ∃ a, change.run before = (after, .ok a) ∧ f a = b := by
  rw [run_map]
  cases change.run before with
  | mk middle result => cases result <;> simp [Except.map, and_assoc]

theorem run_onPart_eq_ok_iff {change : Mutation τ α} {part : σ → Except Error τ}
    {putBack : σ → τ → σ} {before after : σ} {a : α} :
    (onPart part putBack change).run before = (after, .ok a) ↔
      ∃ old new, part before = .ok old ∧ change.run old = (new, .ok a) ∧
        putBack before new = after := by
  rw [run_onPart]
  cases part before with
  | error error => simp
  | ok old =>
    simp only [Prod.mk.injEq]
    constructor
    · rintro ⟨hafter, hresult⟩
      exact ⟨old, _, rfl, Prod.ext rfl hresult, hafter⟩
    · rintro ⟨_, new, heq, hchange, hafter⟩
      cases heq
      rw [hchange]
      exact ⟨hafter, rfl⟩

theorem runOk_eq_ok_iff {change : Mutation σ α} {before after : σ} :
    change.runOk before = .ok after ↔ ∃ a, change.run before = (after, .ok a) := by
  unfold runOk
  cases change.run before with
  | mk middle result => cases result <;> simp

end Mutation

open Mutation

namespace Table

theorem column_eq_ok_iff {table : Table} {name : String} {column : Column} :
    table.column name = .ok column ↔ table.schema.find? name = some column := by
  unfold Table.column
  cases table.schema.find? name <;> simp

theorem exists_column_eq_ok_iff {table : Table} {name : String} :
    (∃ column, table.column name = .ok column) ↔ name ∈ table.schema.names := by
  constructor
  · rintro ⟨column, hcolumn⟩
    obtain ⟨hmem, hname⟩ := Schema.find?_eq_some_iff.1 (column_eq_ok_iff.1 hcolumn)
    exact List.mem_map.2 ⟨column, hmem, hname⟩
  · intro hname
    obtain ⟨column, hcolumn, hcolumnName⟩ := List.mem_map.1 hname
    exact ⟨column, column_eq_ok_iff.2 (Schema.find?_eq_some_iff.2 ⟨hcolumn, hcolumnName⟩)⟩

theorem column_eq_error_iff {table : Table} {name : String} {error : Error} :
    table.column name = .error error ↔
      name ∉ table.schema.names ∧ error = .unknownColumn name table.name := by
  rw [← exists_column_eq_ok_iff]
  unfold column
  cases table.schema.find? name <;> simp [eq_comm]

theorem run_insert_eq_ok_iff {before after : Table} {columns : Option (List String)}
    {tuples : List (List Value)} {count : Nat} :
    (insert columns tuples).run before = (after, .ok count) ↔
      ∃ targets, before.targets columns = .ok targets ∧
        ∃ rows, before.rowsOf targets tuples = .ok rows ∧
          { before with rows := before.rows ++ rows } = after ∧ rows.length = count := by
  simp [insert]

theorem run_update_eq_ok_iff {before after : Table} {handles : List Nat}
    {assignments : List Assignment} {count : Nat} :
    (update handles assignments).run before = (after, .ok count) ↔
      ∃ cells, before.cellsOf assignments = .ok cells ∧
        { before with rows := before.rows.mapIdx fun place row =>
          if place ∈ handles then store row cells else row } = after ∧
        handles.countP (· < before.rows.length) = count := by
  simp [update]

theorem run_updateWhere_eq_ok_iff {before after : Table} {assignments : List Assignment}
    {clause : Clause} {count : Nat} :
    (updateWhere assignments clause).run before = (after, .ok count) ↔
      before.checkColumns (assignments.map Assignment.column) = .ok () ∧
        ∃ selection, before.select .all clause = .ok selection ∧
          (update selection.handles assignments).run before = (after, .ok count) := by
  simp only [updateWhere, run_get_bind, run_liftM_bind_eq_ok_iff]
  exact ⟨fun ⟨_, hcheck, hrest⟩ => ⟨hcheck, hrest⟩, fun ⟨hcheck, hrest⟩ => ⟨(), hcheck, hrest⟩⟩

theorem run_deleteWhere_eq_ok_iff {before after : Table} {clause : Clause} {count : Nat} :
    (deleteWhere clause).run before = (after, .ok count) ↔
      ∃ selection, before.select .all clause = .ok selection ∧
        (delete selection.handles).run before = (after, .ok count) := by
  simp [deleteWhere]

end Table

namespace Database

theorem table_eq_ok_iff {database : Database} {name : String} {table : Table} :
    database.table name = .ok table ↔ database.tables.get? name = some table := by
  unfold Database.table
  cases database.tables.get? name <;> simp

theorem run_createTable_eq_ok_iff {before after : Database} {name : String}
    {specs : List ColumnSpec} {u : Unit} :
    (createTable name specs).run before = (after, .ok u) ↔
      isValidName name = true ∧ name ∉ before.tableNames ∧
        ∃ schema, Schema.ofColumns (usableColumns specs) = .ok schema ∧ schema.columns ≠ [] ∧
          ⟨before.tables.insert name (.new name schema)⟩ = after := by
  simp [createTable, tableNames, ← OrderedMap.contains_iff]

theorem run_dropTable_eq_ok_iff {before after : Database} {name : String} {u : Unit} :
    (dropTable name).run before = (after, .ok u) ↔
      name ∈ before.tableNames ∧ ⟨before.tables.erase name⟩ = after := by
  simp only [dropTable, run_get_bind, run_modify_bind, run_require_eq_ok_iff, tableNames,
    ← OrderedMap.contains_iff, OrderedMap.contains]

theorem run_inTable_eq_ok_iff {before after : Database} {name : String} {change : Mutation Table α}
    {a : α} :
    (inTable name change).run before = (after, .ok a) ↔
      ∃ old new, before.tables.get? name = some old ∧ change.run old = (new, .ok a) ∧
        before.replaceTable name new = after := by
  simp only [inTable, run_onPart_eq_ok_iff, table_eq_ok_iff]

end Database

namespace Catalog

theorem database_eq_ok_iff {catalog : Catalog} {name : String} {database : Database} :
    catalog.database name = .ok database ↔ catalog.databases.get? name = some database := by
  unfold Catalog.database
  cases catalog.databases.get? name <;> simp

theorem run_createDatabase_eq_ok_iff {before after : Catalog} {name : String} {u : Unit} :
    (createDatabase name).run before = (after, .ok u) ↔
      isValidName name = true ∧ name ∉ before.databaseNames ∧
        ⟨before.databases.insert name .empty⟩ = after := by
  simp [createDatabase, databaseNames, hasDatabase, ← OrderedMap.contains_iff]

theorem run_dropDatabase_eq_ok_iff {before after : Catalog} {name : String} {u : Unit} :
    (dropDatabase name).run before = (after, .ok u) ↔
      name ∈ before.databaseNames ∧ ⟨before.databases.erase name⟩ = after := by
  simp only [dropDatabase, run_get_bind, run_modify_bind, run_require_eq_ok_iff, databaseNames,
    ← OrderedMap.contains_iff, OrderedMap.contains]

theorem run_inDatabase_eq_ok_iff {before after : Catalog} {name : String}
    {change : Mutation Database α} {a : α} :
    (inDatabase name change).run before = (after, .ok a) ↔
      ∃ old new, before.databases.get? name = some old ∧ change.run old = (new, .ok a) ∧
        before.replaceDatabase name new = after := by
  simp only [inDatabase, run_onPart_eq_ok_iff, database_eq_ok_iff]

end Catalog

namespace Session

theorem run_inCatalog_eq_ok_iff {before after : Session} {missing : Error}
    {change : Mutation Catalog α} {a : α} :
    (inCatalog missing change).run before = (after, .ok a) ↔
      ∃ old new, before.catalog = some old ∧ change.run old = (new, .ok a) ∧
        { before with catalog := some new } = after := by
  simp only [inCatalog, run_onPart_eq_ok_iff]
  cases before.catalog <;> simp

theorem run_inActive_eq_ok_iff {before after : Session} {change : Mutation Database α} {a : α} :
    (inActive change).run before = (after, .ok a) ↔
      ∃ name catalog old new, before.active = some name ∧ before.catalog = some catalog ∧
        catalog.databases.get? name = some old ∧ change.run old = (new, .ok a) ∧
        { before with catalog := some (catalog.replaceDatabase name new) } = after := by
  unfold inActive
  rw [run_get_bind]
  split
  · next name hactive =>
    simp only [run_inCatalog_eq_ok_iff, Catalog.run_inDatabase_eq_ok_iff, hactive, Option.some.injEq]
    constructor
    · rintro ⟨catalog, _, hcatalog, ⟨old, new, hold, hchange, rfl⟩, hafter⟩
      exact ⟨name, catalog, old, new, rfl, hcatalog, hold, hchange, hactive ▸ hafter⟩
    · rintro ⟨_, catalog, old, new, rfl, hcatalog, hold, hchange, hafter⟩
      exact ⟨catalog, _, hcatalog, ⟨old, new, hold, hchange, rfl⟩, hactive ▸ hafter⟩
  · next hactive => simp [hactive]

theorem run_importCatalog_eq_ok_iff {before after : Session} {dump : String} {u : Unit} :
    (importCatalog dump).run before = (after, .ok u) ↔
      ∃ catalog, Catalog.ofJson dump = .ok catalog ∧
        { before with catalog := some catalog, active := none } = after := by
  simp [importCatalog]

theorem start_eq_ok_iff {config : SessionConfig} {session : Session} :
    start config = .ok session ↔
      (config.createStorage = false ∨ config.defaultDatabase = none) ∧ fresh config = session ∨
        ∃ name, config.createStorage = true ∧ config.defaultDatabase = some name ∧
          isValidName name = true ∧
          { fresh config with
            catalog := some ⟨OrderedMap.empty.insert name .empty⟩
            active := some name } = session := by
  unfold start fresh
  cases config.createStorage <;> cases config.defaultDatabase
  case true.some name =>
    simp only [if_true, runOk_eq_ok_iff, run_bind_eq_ok_iff, run_inCatalog_eq_ok_iff,
      Catalog.run_createDatabase_eq_ok_iff, run_modify, Prod.mk.injEq, and_true, true_and]
    constructor
    · rintro ⟨_, _, _, ⟨_, _, hcatalog, ⟨hname, -, rfl⟩, rfl⟩, rfl⟩
      obtain rfl := Option.some.inj hcatalog
      exact .inr ⟨name, rfl, hname, rfl⟩
    · rintro (⟨hnone, -⟩ | ⟨_, heq, hname, rfl⟩)
      · simp at hnone
      · obtain rfl := Option.some.inj heq
        exact ⟨(), _, (), ⟨_, _, rfl, ⟨hname, List.not_mem_nil, rfl⟩, rfl⟩, rfl⟩
  all_goals simp

end Session

end TableEngine
