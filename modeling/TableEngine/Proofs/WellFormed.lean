import TableEngine.Proofs.Atomicity
import TableEngine.Proofs.StoredForm

/-!
What holds of stored data at all times: a table has columns of proper sizes and rows that have exactly
these columns, with a value in the stored form in each; tables bear the names they are kept under; and
databases bear valid names. Every change keeps this, whether or not it fails: when it fails it leaves
the state alone, and when it succeeds it is known what it has done.
-/

namespace TableEngine

namespace Mutation

variable {σ τ α β : Type}

/-- A property of states that a change keeps, whether or not it fails. -/
def Keeps (P : σ → Prop) (change : Mutation σ α) : Prop :=
  ∀ ⦃state : σ⦄, P state → P (change.run state).1

theorem ReadOnly.keeps {P : σ → Prop} {change : Mutation σ α} (hreads : change.ReadOnly) :
    change.Keeps P := by
  intro state hstate
  rwa [hreads state]

/-- A change that keeps the state when it fails has to be looked at only where it succeeds. -/
theorem Atomic.keeps {P : σ → Prop} {change : Mutation σ α} (hatomic : change.Atomic)
    (hok : ∀ {before after a}, P before → change.run before = (after, .ok a) → P after) :
    change.Keeps P := by
  intro state hstate
  cases hrun : change.run state with
  | mk after result =>
    cases result with
    | error error => exact hatomic hrun ▸ hstate
    | ok a => exact hok hstate hrun

theorem keeps_pure (P : σ → Prop) (a : α) : (pure a : Mutation σ α).Keeps P :=
  fun _ hstate => hstate

theorem Keeps.bind {P : σ → Prop} {change : Mutation σ α} {next : α → Mutation σ β}
    (hchange : change.Keeps P) (hnext : ∀ a, (next a).Keeps P) : (change >>= next).Keeps P := by
  intro state hstate
  have hmiddle := hchange hstate
  rw [run_bind]
  cases hrun : change.run state with
  | mk middle result =>
    rw [hrun] at hmiddle
    cases result with
    | error error => exact hmiddle
    | ok a => exact hnext a hmiddle

theorem Keeps.map {P : σ → Prop} {change : Mutation σ α} (hchange : change.Keeps P) (f : α → β) :
    (f <$> change).Keeps P := by
  intro state hstate
  rw [run_map]
  exact hchange hstate

theorem Keeps.modify {P : σ → Prop} {f : σ → σ} (hf : ∀ state, P state → P (f state)) :
    (modify f : Mutation σ PUnit).Keeps P :=
  fun state hstate => hf state hstate

theorem Keeps.onPart {P : σ → Prop} {Q : τ → Prop} {change : Mutation τ α}
    {part : σ → Except Error τ} {putBack : σ → τ → σ} (hchange : change.Keeps Q)
    (hpart : ∀ {state old}, P state → part state = .ok old → Q old)
    (hback : ∀ {state old new}, P state → part state = .ok old → Q new → P (putBack state new)) :
    (Mutation.onPart part putBack change).Keeps P := by
  intro state hstate
  rw [run_onPart]
  split
  · exact hstate
  · next old hold => exact hback hstate hold (hchange (hpart hstate hold))

end Mutation

open Mutation

namespace Schema

theorem eq_of_name_eq {schema : Schema} {a b : Column} (ha : a ∈ schema.columns)
    (hb : b ∈ schema.columns) (hname : a.name = b.name) : a = b := by
  have hfind := find?_eq_some_iff.2 ⟨ha, hname⟩
  rw [find?_eq_some_iff.2 ⟨hb, rfl⟩] at hfind
  exact (Option.some.inj hfind).symm

theorem mem_names_of_mem {schema : Schema} {column : Column} (hcolumn : column ∈ schema.columns) :
    column.name ∈ schema.names :=
  List.mem_map_of_mem hcolumn

theorem mem_pairs_of_mem {schema : Schema} {column : Column} (hcolumn : column ∈ schema.columns) :
    (column.name, column.type) ∈ schema.pairs :=
  List.mem_map.2 ⟨column, hcolumn, rfl⟩

theorem pairs_of_foldlM_add {start schema : Schema} {pairs : List (String × ColumnType)}
    (hfold : pairs.foldlM (fun schema (name, type) => schema.add name type) start = .ok schema) :
    schema.pairs = start.pairs ++ pairs := by
  induction pairs generalizing start with
  | nil =>
    cases hfold
    simp
  | cons pair pairs ih =>
    obtain ⟨name, type⟩ := pair
    rw [List.foldlM_cons, bind_eq_ok_iff] at hfold
    obtain ⟨extended, hadd, hrest⟩ := hfold
    dsimp only [add] at hadd
    split at hadd
    · next hextended =>
      cases hadd
      rw [ih hrest, pairs_of_add? hextended, List.append_assoc]
      rfl
    · cases hadd

/-- A schema that is made of columns has these columns in this order. -/
theorem pairs_of_ofColumns {schema : Schema} {pairs : List (String × ColumnType)}
    (hschema : ofColumns pairs = .ok schema) : schema.pairs = pairs :=
  pairs_of_foldlM_add hschema

theorem exists_foldlM_add {pairs : List (String × ColumnType)} {start : Schema}
    (hnodup : (pairs.map Prod.fst).Nodup) (hnew : ∀ pair ∈ pairs, pair.1 ∉ start.names) :
    ∃ schema, pairs.foldlM (fun schema (name, type) => schema.add name type) start = .ok schema := by
  induction pairs generalizing start with
  | nil => exact ⟨start, rfl⟩
  | cons pair pairs ih =>
    obtain ⟨name, type⟩ := pair
    obtain ⟨hname, hnodup⟩ := List.nodup_cons.1 hnodup
    obtain ⟨hfresh, hnew⟩ := List.forall_mem_cons.1 hnew
    obtain ⟨extended, hextended⟩ := exists_add? type hfresh
    have hothers : ∀ pair ∈ pairs, pair.1 ∉ extended.names := by
      intro pair hpair hmem
      rw [← map_fst_pairs, pairs_of_add? hextended, List.map_append, map_fst_pairs,
        List.mem_append, List.map_singleton, List.mem_singleton] at hmem
      rcases hmem with hold | heq
      · exact hnew pair hpair hold
      · exact hname (heq ▸ List.mem_map_of_mem hpair)
    obtain ⟨schema, hschema⟩ := ih hnodup hothers
    refine ⟨schema, ?_⟩
    rw [List.foldlM_cons, bind_eq_ok_iff]
    exact ⟨extended, by simp only [add, hextended], hschema⟩

/-- Columns with different names make up a schema. -/
theorem exists_ofColumns {pairs : List (String × ColumnType)} (hnodup : (pairs.map Prod.fst).Nodup) :
    ∃ schema, ofColumns pairs = .ok schema :=
  exists_foldlM_add hnodup fun _ _ hmem => absurd hmem List.not_mem_nil

end Schema

namespace Row

/-- The row has exactly the columns of the schema, and in each a value that the column can hold. -/
structure Fits (row : Row) (schema : Schema) : Prop where
  columns_eq : row.columns = schema.names
  admits : ∀ column ∈ schema.columns, column.type.Admits (row.get column.name)

theorem columns_set_of_mem {row : Row} {column : String} (value : Value)
    (hcolumn : column ∈ row.columns) : (row.set column value).columns = row.columns := by
  have hkeys := OrderedMap.keys_insert row.cells column value
  rwa [if_pos (show column ∈ row.cells.keys from hcolumn)] at hkeys

theorem Fits.set {row : Row} {schema : Schema} (hfits : row.Fits schema) {column : Column}
    (hcolumn : column ∈ schema.columns) (value : Value) :
    (row.set column.name (column.type.coerce value)).Fits schema := by
  constructor
  · rw [columns_set_of_mem _ (hfits.columns_eq ▸ Schema.mem_names_of_mem hcolumn), hfits.columns_eq]
  · intro other hother
    rw [get_set]
    split
    · next hname =>
      rw [Schema.eq_of_name_eq hother hcolumn hname]
      exact column.type.admits_coerce value
    · exact hfits.admits other hother

theorem Fits.store {row : Row} {schema : Schema} (hfits : row.Fits schema)
    {cells : List (Column × Value)} (hcells : ∀ cell ∈ cells, cell.1 ∈ schema.columns) :
    (Table.store row cells).Fits schema := by
  induction cells generalizing row with
  | nil => exact hfits
  | cons cell cells ih =>
    have hset := hfits.set (hcells cell (by simp)) cell.2
    exact ih hset fun other hother => hcells other (List.mem_cons_of_mem _ hother)

end Row

namespace Table

theorem entries_emptyRow (table : Table) :
    table.emptyRow.toList = table.schema.names.map (·, Value.null) := by
  apply OrderedMap.entries_ofList
  simpa [Function.comp_def] using table.schema.nodup_names

theorem get_emptyRow (table : Table) (name : String) : table.emptyRow.get name = .null := by
  unfold Row.get
  cases hget : table.emptyRow.cells.get? name with
  | none => rfl
  | some value =>
    have hmem := OrderedMap.get?_eq_some_iff.1 hget
    rw [show table.emptyRow.cells.entries = _ from table.entries_emptyRow, List.mem_map] at hmem
    obtain ⟨_, -, heq⟩ := hmem
    cases heq
    rfl

theorem fits_emptyRow (table : Table) : table.emptyRow.Fits table.schema := by
  constructor
  · change table.emptyRow.toList.map Prod.fst = table.schema.names
    rw [entries_emptyRow]
    simp [Function.comp_def]
  · intro column _
    rw [get_emptyRow]
    exact column.type.admits_null

/-- A table as it is stored: it has a column at least, the sizes of its columns are proper, and its
    rows fit its schema. -/
structure WellFormed (table : Table) : Prop where
  columns_ne_nil : table.schema.columns ≠ []
  proper : ∀ column ∈ table.schema.columns, column.type.IsProper
  fits : ∀ row ∈ table.rows, row.Fits table.schema

theorem mem_columns_of_column {table : Table} {name : String} {column : Column}
    (hcolumn : table.column name = .ok column) : column ∈ table.schema.columns :=
  (Schema.find?_eq_some_iff.1 (column_eq_ok_iff.1 hcolumn)).1

theorem mem_columns_of_targets {table : Table} {columns : Option (List String)}
    {targets : List Column} (htargets : table.targets columns = .ok targets) :
    ∀ column ∈ targets, column ∈ table.schema.columns := by
  intro column hcolumn
  obtain ⟨name, -, hname⟩ := exists_of_mapM_eq_ok htargets hcolumn
  exact mem_columns_of_column hname

theorem mem_columns_of_cellsOf {table : Table} {assignments : List Assignment}
    {cells : List (Column × Value)} (hcells : table.cellsOf assignments = .ok cells) :
    ∀ cell ∈ cells, cell.1 ∈ table.schema.columns := by
  intro cell hcell
  obtain ⟨assignment, -, hassignment⟩ := exists_of_mapM_eq_ok hcells hcell
  obtain ⟨column, hcolumn, heq⟩ := bind_eq_ok_iff.1 hassignment
  cases heq
  exact mem_columns_of_column hcolumn

theorem fits_of_rowsOf {table : Table} {targets : List Column} {tuples : List (List Value)}
    {rows : List Row} (hrows : table.rowsOf targets tuples = .ok rows)
    (htargets : ∀ column ∈ targets, column ∈ table.schema.columns) :
    ∀ row ∈ rows, row.Fits table.schema := by
  intro row hrow
  obtain ⟨tuple, -, htuple⟩ := exists_of_mapM_eq_ok hrows hrow
  unfold rowOf at htuple
  split at htuple
  · cases htuple
    exact table.fits_emptyRow.store fun cell hcell => htargets _ (List.of_mem_zip hcell).1
  · cases htuple

/-- What a change of rows has to show: the rows that it leaves fit the schema, which stays. -/
theorem WellFormed.with_rows {table : Table} (hwell : table.WellFormed) {rows : List Row}
    (hrows : ∀ row ∈ rows, row.Fits table.schema) : ({ table with rows } : Table).WellFormed :=
  ⟨hwell.columns_ne_nil, hwell.proper, hrows⟩

/-- A table under the name that it is kept under. -/
def StoredAs (name : String) (table : Table) : Prop :=
  table.name = name ∧ table.WellFormed

theorem keeps_insert (name : String) (columns : Option (List String)) (tuples : List (List Value)) :
    (insert columns tuples).Keeps (StoredAs name) := by
  refine (atomic_insert columns tuples).keeps ?_
  intro before after count ⟨hname, hwell⟩ hrun
  obtain ⟨targets, htargets, rows, hrows, rfl, -⟩ := run_insert_eq_ok_iff.1 hrun
  refine ⟨hname, hwell.with_rows ?_⟩
  intro row hrow
  rcases List.mem_append.1 hrow with hold | hnew
  · exact hwell.fits row hold
  · exact fits_of_rowsOf hrows (mem_columns_of_targets htargets) row hnew

theorem keeps_update (name : String) (handles : List Nat) (assignments : List Assignment) :
    (update handles assignments).Keeps (StoredAs name) := by
  refine (atomic_update handles assignments).keeps ?_
  intro before after count ⟨hname, hwell⟩ hrun
  obtain ⟨cells, hcells, rfl, -⟩ := run_update_eq_ok_iff.1 hrun
  refine ⟨hname, hwell.with_rows ?_⟩
  intro row hrow
  obtain ⟨place, hplace, rfl⟩ := List.mem_mapIdx.1 hrow
  have hold := hwell.fits _ (List.getElem_mem hplace)
  split
  · exact hold.store (mem_columns_of_cellsOf hcells)
  · exact hold

theorem keeps_delete (name : String) (handles : List Nat) :
    (delete handles).Keeps (StoredAs name) := by
  intro table ⟨hname, hwell⟩
  refine ⟨hname, hwell.with_rows ?_⟩
  intro row hrow
  obtain ⟨⟨_, place⟩, hfilter, rfl⟩ := List.mem_map.1 hrow
  exact hwell.fits _ (List.fst_mem_of_mem_zipIdx (List.mem_filter.1 hfilter).1)

theorem keeps_updateWhere (name : String) (assignments : List Assignment) (clause : Clause) :
    (updateWhere assignments clause).Keeps (StoredAs name) := by
  refine (atomic_updateWhere assignments clause).keeps ?_
  intro before after count hstored hrun
  obtain ⟨-, selection, -, hupdate⟩ := run_updateWhere_eq_ok_iff.1 hrun
  have hafter := keeps_update name selection.handles assignments hstored
  rwa [hupdate] at hafter

theorem keeps_deleteWhere (name : String) (clause : Clause) :
    (deleteWhere clause).Keeps (StoredAs name) := by
  refine (atomic_deleteWhere clause).keeps ?_
  intro before after count hstored hrun
  obtain ⟨selection, -, hdelete⟩ := run_deleteWhere_eq_ok_iff.1 hrun
  have hafter := keeps_delete name selection.handles hstored
  rwa [hdelete] at hafter

end Table

namespace Database

/-- Every table of the database is well formed and bears the name that it is kept under. -/
def WellFormed (database : Database) : Prop :=
  ∀ entry ∈ database.tables.entries, entry.2.StoredAs entry.1

theorem wellFormed_empty : empty.WellFormed := by
  intro entry hentry
  cases hentry

theorem WellFormed.table {database : Database} (hwell : database.WellFormed) {name : String}
    {table : Table} (htable : database.tables.get? name = some table) : table.StoredAs name :=
  hwell (name, table) (OrderedMap.get?_eq_some_iff.1 htable)

theorem WellFormed.insert {database : Database} (hwell : database.WellFormed) {name : String}
    {table : Table} (htable : table.StoredAs name) :
    (⟨database.tables.insert name table⟩ : Database).WellFormed := by
  intro entry hentry
  rcases OrderedMap.mem_entries_insert.1 hentry with rfl | ⟨-, hold⟩
  · exact htable
  · exact hwell entry hold

theorem WellFormed.erase {database : Database} (hwell : database.WellFormed) (name : String) :
    (⟨database.tables.erase name⟩ : Database).WellFormed :=
  fun entry hentry => hwell entry (OrderedMap.mem_entries_erase.1 hentry).2

/-- What is known of a column that a declared table gets: its name is valid and its type has been
    read. -/
theorem of_mem_usableColumns {specs : List ColumnSpec} {pair : String × ColumnType}
    (hpair : pair ∈ usableColumns specs) :
    isValidName pair.1 = true ∧
      ∃ spec ∈ specs, spec.name = pair.1 ∧ ColumnType.parse? spec.type = some pair.2 := by
  unfold usableColumns at hpair
  obtain ⟨spec, hmem, hspec⟩ := List.mem_filterMap.1 hpair
  split at hspec
  · next type htype =>
    split at hspec
    · next hname =>
      cases hspec
      exact ⟨hname, spec, hmem, rfl, htype⟩
    · cases hspec
  · cases hspec

theorem storedAs_new {name : String} {schema : Schema} {specs : List ColumnSpec}
    (hschema : Schema.ofColumns (usableColumns specs) = .ok schema) (hcolumns : schema.columns ≠ []) :
    (Table.new name schema).StoredAs name := by
  refine ⟨rfl, hcolumns, ?_, ?_⟩
  · intro column hcolumn
    have hpair : (column.name, column.type) ∈ schema.pairs := Schema.mem_pairs_of_mem hcolumn
    rw [Schema.pairs_of_ofColumns hschema] at hpair
    obtain ⟨-, spec, -, -, htype⟩ := of_mem_usableColumns hpair
    exact ColumnType.isProper_of_parse? htype
  · intro row hrow
    cases hrow

theorem keeps_createTable (name : String) (specs : List ColumnSpec) :
    (createTable name specs).Keeps WellFormed := by
  refine (atomic_createTable name specs).keeps ?_
  intro before after u hwell hrun
  obtain ⟨-, -, schema, hschema, hcolumns, rfl⟩ := run_createTable_eq_ok_iff.1 hrun
  exact hwell.insert (storedAs_new hschema hcolumns)

theorem keeps_dropTable (name : String) : (dropTable name).Keeps WellFormed := by
  refine (atomic_dropTable name).keeps ?_
  intro before after u hwell hrun
  obtain ⟨-, rfl⟩ := run_dropTable_eq_ok_iff.1 hrun
  exact hwell.erase name

theorem keeps_inTable {α : Type} {name : String} {change : Mutation Table α}
    (hchange : change.Keeps (Table.StoredAs name)) : (inTable name change).Keeps WellFormed :=
  hchange.onPart (fun hwell htable => hwell.table (table_eq_ok_iff.1 htable))
    (fun hwell _ hnew => hwell.insert hnew)

end Database

namespace Catalog

/-- Every database of the catalog has a valid name and is well formed. -/
def WellFormed (catalog : Catalog) : Prop :=
  ∀ entry ∈ catalog.databases.entries, isValidName entry.1 = true ∧ entry.2.WellFormed

theorem wellFormed_empty : empty.WellFormed := by
  intro entry hentry
  cases hentry

theorem keeps_createDatabase (name : String) : (createDatabase name).Keeps WellFormed := by
  refine (atomic_createDatabase name).keeps ?_
  intro before after u hwell hrun
  obtain ⟨hname, -, rfl⟩ := run_createDatabase_eq_ok_iff.1 hrun
  intro entry hentry
  rcases OrderedMap.mem_entries_insert.1 hentry with rfl | ⟨-, hold⟩
  · exact ⟨hname, Database.wellFormed_empty⟩
  · exact hwell entry hold

theorem keeps_dropDatabase (name : String) : (dropDatabase name).Keeps WellFormed := by
  refine (atomic_dropDatabase name).keeps ?_
  intro before after u hwell hrun
  obtain ⟨-, rfl⟩ := run_dropDatabase_eq_ok_iff.1 hrun
  exact fun entry hentry => hwell entry (OrderedMap.mem_entries_erase.1 hentry).2

theorem keeps_inDatabase {α : Type} {name : String} {change : Mutation Database α}
    (hchange : change.Keeps Database.WellFormed) : (inDatabase name change).Keeps WellFormed := by
  refine hchange.onPart ?_ ?_
  · intro catalog database hwell hdatabase
    rw [database_eq_ok_iff, OrderedMap.get?_eq_some_iff] at hdatabase
    exact (hwell _ hdatabase).2
  · intro catalog old new hwell hold hnew entry hentry
    rw [database_eq_ok_iff, OrderedMap.get?_eq_some_iff] at hold
    rcases OrderedMap.mem_entries_insert.1 hentry with rfl | ⟨-, hother⟩
    · exact ⟨(hwell _ hold).1, hnew⟩
    · exact hwell entry hother

end Catalog

namespace Session

/-- The catalog, if there is one, is well formed. -/
def WellFormed (session : Session) : Prop :=
  ∀ catalog, session.catalog = some catalog → catalog.WellFormed

theorem keeps_inCatalog {α : Type} {missing : Error} {change : Mutation Catalog α}
    (hchange : change.Keeps Catalog.WellFormed) : (inCatalog missing change).Keeps WellFormed := by
  refine hchange.onPart ?_ ?_
  · intro session catalog hwell hcatalog
    apply hwell catalog
    cases hstored : session.catalog with
    | none => simp [hstored] at hcatalog
    | some stored => simpa [hstored] using hcatalog
  · intro session old new _ _ hnew catalog hcatalog
    cases hcatalog
    exact hnew

theorem keeps_inActive {α : Type} {change : Mutation Database α}
    (hchange : change.Keeps Database.WellFormed) : (inActive change).Keeps WellFormed := by
  refine readOnly_get.keeps.bind ?_
  intro session
  cases session.active with
  | none => exact (readOnly_fail _).keeps
  | some name => exact keeps_inCatalog (Catalog.keeps_inDatabase hchange)

theorem keeps_changeTable {name : String} {change : Mutation Table Nat}
    (hchange : change.Keeps (Table.StoredAs name)) : (changeTable name change).Keeps WellFormed :=
  (keeps_inActive (Database.keeps_inTable hchange)).map _

theorem keeps_createDatabase (name : String) : (createDatabase name).Keeps WellFormed :=
  (keeps_inCatalog (Catalog.keeps_createDatabase name)).bind fun _ => keeps_pure _ _

theorem keeps_dropDatabase (name : String) : (dropDatabase name).Keeps WellFormed := by
  refine Keeps.bind ?_ ?_
  · refine keeps_inCatalog (readOnly_get.keeps.bind ?_)
    intro catalog
    exact (Catalog.keeps_dropDatabase name).bind fun _ => keeps_pure _ _
  · intro tables
    refine (Keeps.modify ?_).bind fun _ => keeps_pure _ _
    intro session hwell
    split
    · exact hwell
    · exact hwell

theorem keeps_useDatabase (name : String) : (useDatabase name).Keeps WellFormed := by
  refine readOnly_get.keeps.bind ?_
  intro session
  refine (readOnly_require _ _).keeps.bind ?_
  intro _
  refine (Keeps.modify ?_).bind ?_
  · exact fun _ hwell => hwell
  · exact fun _ => keeps_pure _ _

theorem keeps_perform (statement : Statement) : (perform statement).Keeps WellFormed := by
  cases statement with
  | createDatabase name => exact keeps_createDatabase name
  | dropDatabase name => exact keeps_dropDatabase name
  | useDatabase name => exact keeps_useDatabase name
  | showDatabases => exact (readOnly_reading _).keeps
  | showTables => exact (readOnly_reading _).keeps
  | createTable name columns =>
    exact (keeps_inActive (Database.keeps_createTable name columns)).bind fun _ => keeps_pure _ _
  | dropTable name =>
    exact (keeps_inActive (Database.keeps_dropTable name)).bind fun _ => keeps_pure _ _
  | describe name => exact (readOnly_reading _).keeps
  | insert name columns tuples =>
    exact keeps_changeTable (Table.keeps_insert name columns tuples)
  | select projection name clause => exact (readOnly_reading _).keeps
  | update name assignments clause =>
    exact keeps_changeTable (Table.keeps_updateWhere name assignments clause)
  | delete name clause => exact keeps_changeTable (Table.keeps_deleteWhere name clause)

end Session

end TableEngine
