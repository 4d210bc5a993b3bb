import TableEngine.Proofs.Agreement
import TableEngine.Proofs.History

/-!
The account of a table: no row is lost and none is there twice. What statements report as inserted and
deleted adds up to the number of rows (`Event.LeadsAll.length_rows`). As long as no row is updated, the
rows are those that have come in, in this order, without those that deletions have picked
(`Ledger.rows_eq_of_leadsAll`).
-/

namespace TableEngine

open Mutation

/-! The rows that an insertion stores. -/

/-- What assignments make of a column that has been NULL. -/
def Column.valueFrom (column : Column) (assignments : List Assignment) : Value :=
  match Assignment.lastFor? assignments column.name with
  | some value => column.type.coerce value
  | none => .null

namespace Schema

/-- The row that a tuple is stored as: each column has the stored form of the value that the tuple gives
    to it last, and is NULL if it gives none. -/
def rowFor (schema : Schema) (columns : Option (List String)) (tuple : List Value) : Row :=
  let given := List.zipWith Assignment.mk (columns.getD schema.names) tuple
  .ofList (schema.columns.map fun column => (column.name, column.valueFrom given))

theorem toList_rowFor (schema : Schema) (columns : Option (List String)) (tuple : List Value) :
    (schema.rowFor columns tuple).toList = schema.columns.map fun column => (column.name,
      column.valueFrom (List.zipWith Assignment.mk (columns.getD schema.names) tuple)) := by
  apply OrderedMap.entries_ofList
  rw [List.map_map]
  exact schema.nodup_names

theorem columns_rowFor (schema : Schema) (columns : Option (List String)) (tuple : List Value) :
    (schema.rowFor columns tuple).columns = schema.names := by
  change (schema.rowFor columns tuple).toList.map Prod.fst = _
  rw [toList_rowFor, List.map_map]
  rfl

theorem get_rowFor {schema : Schema} {column : Column} (hcolumn : column ∈ schema.columns)
    (columns : Option (List String)) (tuple : List Value) :
    (schema.rowFor columns tuple).get column.name =
      column.valueFrom (List.zipWith Assignment.mk (columns.getD schema.names) tuple) := by
  have hcells := schema.toList_rowFor columns tuple
  have hget := OrderedMap.get?_eq_some_iff.2 (hcells ▸ List.mem_map_of_mem hcolumn)
  rw [Row.get, hget, Option.getD_some]

end Schema

namespace Table

theorem cellsOf_zip {table : Table} {names : List String} {targets : List Column}
    (htargets : names.mapM table.column = .ok targets) (tuple : List Value) :
    table.cellsOf (List.zipWith Assignment.mk names tuple) = .ok (targets.zip tuple) := by
  rw [mapM_eq_ok_iff] at htargets
  rw [cellsOf_eq_ok_iff, List.map_zipWith, List.zip, List.map_zipWith]
  calc List.zipWith (fun name value => do pure (← table.column name, value)) names tuple
      = List.zipWith (fun found value => do pure (← found, value)) (names.map table.column) tuple := by
        rw [List.zipWith_map_left]
    _ = List.zipWith (fun target value => .ok (target, value)) targets tuple := by
        rw [htargets, List.zipWith_map_left]
        rfl

theorem eq_rowFor_of_rowOf {table : Table} {columns : Option (List String)} {targets : List Column}
    (htargets : table.targets columns = .ok targets) {tuple : List Value} {row : Row}
    (hrow : table.rowOf targets tuple = .ok row) : row = table.schema.rowFor columns tuple := by
  unfold rowOf at hrow
  split at hrow
  · obtain rfl := Except.ok.inj hrow
    have hcells := cellsOf_zip htargets tuple
    have hempty : table.emptyRow.columns = table.schema.names := table.fits_emptyRow.columns_eq
    have hstored := updatedBy_store hcells hempty
    have hcolumns := hstored.columns_eq.trans hempty
    refine Row.eq_of_get (hcolumns.trans (table.schema.columns_rowFor columns tuple).symm) ?_
    intro name hname
    obtain ⟨column, hcolumn, rfl⟩ := List.mem_map.1 (hcolumns ▸ hname)
    rw [hstored.get_eq column hcolumn, Schema.get_rowFor hcolumn, get_emptyRow]
    unfold Column.valueFrom
    cases Assignment.lastFor? _ column.name <;> rfl
  · cases hrow

/-- An insertion appends the rows that its tuples are stored as, and counts the tuples. -/
theorem run_insert_eq_ok {before after : Table} {columns : Option (List String)}
    {tuples : List (List Value)} {count : Nat}
    (hrun : (insert columns tuples).run before = (after, .ok count)) :
    after = { before with rows := before.rows ++ tuples.map (before.schema.rowFor columns) } ∧
      count = tuples.length := by
  obtain ⟨targets, htargets, rows, hrows, rfl, rfl⟩ := run_insert_eq_ok_iff.1 hrun
  rw [rowsOf, mapM_eq_ok_iff] at hrows
  have hlength := congrArg List.length hrows
  rw [List.length_map, List.length_map] at hlength
  suffices heq : rows = tuples.map (before.schema.rowFor columns) from ⟨by rw [heq], hlength.symm⟩
  apply List.ext_getElem?
  intro place
  have hplace := congrArg (·[place]?) hrows
  simp only [List.getElem?_map] at hplace ⊢
  cases htuple : tuples[place]? with
  | none =>
    rw [htuple] at hplace
    exact Option.map_eq_none_iff.1 hplace.symm
  | some tuple =>
    rw [htuple] at hplace
    obtain ⟨row, hrow, heq⟩ := Option.map_eq_some_iff.1 hplace.symm
    rw [hrow, eq_rowFor_of_rowOf htargets heq.symm]
    rfl

theorem exists_targets_iff {table : Table} {columns : Option (List String)} :
    (∃ targets, table.targets columns = .ok targets) ↔
      ∀ name ∈ columns.getD table.schema.names, name ∈ table.schema.names := by
  unfold targets
  simp only [exists_mapM_eq_ok_iff, exists_column_eq_ok_iff]

theorem length_of_targets {table : Table} {columns : Option (List String)} {targets : List Column}
    (htargets : table.targets columns = .ok targets) :
    targets.length = (columns.getD table.schema.names).length := by
  have hlength := congrArg List.length (mapM_eq_ok_iff.1 htargets)
  rw [List.length_map, List.length_map] at hlength
  exact hlength.symm

/-- An insertion into known columns succeeds if every tuple is as long as the list of columns. -/
theorem run_insert_of_lengths {table : Table} {columns : Option (List String)}
    {tuples : List (List Value)}
    (hknown : ∀ name ∈ columns.getD table.schema.names, name ∈ table.schema.names)
    (hlengths : ∀ tuple ∈ tuples, tuple.length = (columns.getD table.schema.names).length) :
    (insert columns tuples).run table =
      ({ table with rows := table.rows ++ tuples.map (table.schema.rowFor columns) },
        .ok tuples.length) := by
  obtain ⟨targets, htargets⟩ := exists_targets_iff.2 hknown
  have hcount := length_of_targets htargets
  obtain ⟨rows, hrows⟩ : ∃ rows, table.rowsOf targets tuples = .ok rows := by
    apply exists_mapM_eq_ok_iff.2
    intro tuple htuple
    exact ⟨_, if_pos ((hlengths tuple htuple).trans hcount.symm)⟩
  have hrun := run_insert_eq_ok_iff.2 ⟨targets, htargets, rows, hrows, rfl, rfl⟩
  obtain ⟨hafter, hcounted⟩ := run_insert_eq_ok hrun
  rw [hrun, hafter, hcounted]

/-! Rows that are taken out. -/

/-- What is left of a list without the items at some places. -/
def withoutPlaces {α : Type} (places : List Nat) (items : List α) : List α :=
  (items.zipIdx.filter fun (_, place) => place ∉ places).map Prod.fst

theorem withoutPlaces_nil {α : Type} (items : List α) : withoutPlaces [] items = items := by
  simp [withoutPlaces, List.zipIdx_map_fst]

theorem withoutPlaces_sublist {α : Type} (places : List Nat) (items : List α) :
    (withoutPlaces places items).Sublist items := by
  have hfilter := (List.filter_sublist (p := fun (_, place) => decide (place ∉ places))
    (l := items.zipIdx)).map Prod.fst
  rwa [List.zipIdx_map_fst] at hfilter

theorem map_withoutPlaces {α β : Type} (f : α → β) (places : List Nat) (items : List α) :
    (withoutPlaces places items).map f = withoutPlaces places (items.map f) := by
  unfold withoutPlaces
  rw [List.zipIdx_map, List.filter_map, List.map_map, List.map_map]
  rfl

/-- The places of the rows that a clause picks. -/
def picks (table : Table) (clause : Clause) : List Nat :=
  match table.select .all clause with
  | .ok selection => selection.handles
  | .error _ => []

theorem run_deleteWhere_eq_ok {before after : Table} {clause : Clause} {count : Nat}
    (hrun : (deleteWhere clause).run before = (after, .ok count)) :
    after = { before with rows := withoutPlaces (before.picks clause) before.rows } ∧
      after.rows.length + count = before.rows.length := by
  obtain ⟨selection, hselect, hdelete⟩ := run_deleteWhere_eq_ok_iff.1 hrun
  obtain ⟨hafter, hcount⟩ := Prod.mk.inj hdelete
  have hpicks : before.picks clause = selection.handles := by rw [picks, hselect]
  rw [hpicks]
  refine ⟨hafter.symm, ?_⟩
  obtain rfl := hafter
  have hle := (withoutPlaces_sublist selection.handles before.rows).length_le
  have hdiff : before.rows.length - (withoutPlaces selection.handles before.rows).length = count :=
    Except.ok.inj hcount
  change (withoutPlaces selection.handles before.rows).length + count = _
  omega

theorem length_rows_of_updateWhere {before after : Table} {assignments : List Assignment}
    {clause : Clause} {count : Nat}
    (hrun : (updateWhere assignments clause).run before = (after, .ok count)) :
    after.rows.length = before.rows.length := by
  obtain ⟨-, selection, -, hupdate⟩ := run_updateWhere_eq_ok_iff.1 hrun
  obtain ⟨cells, -, rfl, -⟩ := run_update_eq_ok_iff.1 hupdate
  exact List.length_mapIdx

/-- A change of rows keeps the form of stored data, and changes nothing but the rows. -/
theorem keeps_of_rowChange? {statement : Statement} {target : String} {change : Mutation Table Nat}
    (hchange : statement.rowChange? = some (target, change)) :
    (∀ name, change.Keeps (StoredAs name)) ∧
      ∀ {before after : Table} {count : Nat}, change.run before = (after, .ok count) →
        ∃ rows, after = { before with rows } := by
  cases statement with
  | insert table columns tuples =>
    cases hchange
    exact ⟨fun name => keeps_insert name columns tuples, exists_rows_of_insert⟩
  | update table assignments clause =>
    cases hchange
    exact ⟨fun name => keeps_updateWhere name assignments clause, exists_rows_of_updateWhere⟩
  | delete table clause =>
    cases hchange
    exact ⟨fun name => keeps_deleteWhere name clause, exists_rows_of_deleteWhere⟩
  | _ => cases hchange

end Table

namespace Event

section

variable (database name : String)

/-- The rows of the table have been updated. -/
def Updates : Event → Prop
  | carriedOut active (.update table _ _) (.ok _) => active = some database ∧ table = name
  | _ => False

/-- What a statement that changes the rows of the table amounts to, if it has been carried out while the
    database of the table was in use. All other events amount to the given value. -/
def amount {α : Type} (other : α) (amountOf : Statement → Outcome → α) : Event → α
  | carriedOut active statement (.ok outcome) =>
    if active = some database ∧ statement.rowChange?.map Prod.fst = some name
    then amountOf statement outcome else other
  | _ => other

/-- The number of rows that are reported as inserted into the table. -/
def inserted : Event → Nat :=
  amount database name 0 fun
    | .insert .., .affected count => count
    | _, _ => 0

/-- The number of rows that are reported as deleted from the table. -/
def deleted : Event → Nat :=
  amount database name 0 fun
    | .delete .., .affected count => count
    | _, _ => 0

/-- What events count for, all together. -/
def total (count : Event → Nat) : List Event → Nat
  | [] => 0
  | event :: events => count event + total count events

/-- The rows that have come into the table, which has the given schema. -/
def insertedRows (schema : Schema) : Event → List Row :=
  amount database name [] fun
    | .insert _ columns tuples, _ => tuples.map (schema.rowFor columns)
    | _, _ => []

/-- The places of the rows that have gone, which the clause of a deletion has picked. -/
def deletedPlaces (before : Table) : Event → List Nat :=
  amount database name [] fun
    | .delete _ clause, _ => before.picks clause
    | _, _ => []

/-- What some events make of the table, one after the other. -/
inductive LeadsAll : List Event → Table → Table → Prop
  | nil (table : Table) : LeadsAll [] table table
  | cons {event : Event} {events : List Event} {before middle after : Table}
      (hevent : event.Leads database name before middle) (hevents : LeadsAll events middle after) :
      LeadsAll (event :: events) before after

end

variable {database name : String} {event : Event} {events : List Event} {before after : Table}

section

variable {α : Type} {other : α} {amountOf : Statement → Outcome → α}

theorem amount_of_not_changesRows (hother : ¬event.ChangesRows database name) :
    event.amount database name other amountOf = other := by
  unfold amount
  split
  · refine if_neg ?_
    rintro ⟨hactive, htable⟩
    obtain ⟨⟨_, change⟩, hchange, rfl⟩ := Option.map_eq_some_iff.1 htable
    exact hother ⟨hactive, change, hchange⟩
  · rfl

theorem amount_of_rowChange? {statement : Statement} {change : Mutation Table Nat}
    (hchange : statement.rowChange? = some (name, change)) (outcome : Outcome) :
    (carriedOut (some database) statement (.ok outcome)).amount database name other amountOf =
      amountOf statement outcome :=
  if_pos ⟨rfl, congrArg (Option.map Prod.fst) hchange⟩

end

/-- An event changes the number of rows by what it reports. -/
theorem Leads.length_rows (hleads : event.Leads database name before after) :
    after.rows.length + event.deleted database name =
      before.rows.length + event.inserted database name := by
  unfold inserted deleted
  cases hleads with
  | kept hother => rw [amount_of_not_changesRows hother, amount_of_not_changesRows hother]
  | @changed statement change _ _ count hchange hrun =>
    rw [amount_of_rowChange? hchange, amount_of_rowChange? hchange]
    cases statement with
    | insert table columns tuples =>
      cases hchange
      obtain ⟨rfl, rfl⟩ := Table.run_insert_eq_ok hrun
      simp
    | update table assignments clause =>
      cases hchange
      exact Table.length_rows_of_updateWhere hrun
    | delete table clause =>
      cases hchange
      exact (Table.run_deleteWhere_eq_ok hrun).2
    | _ => cases hchange

/-- An event keeps the schema and the form of stored data. -/
theorem Leads.storedAs (hleads : event.Leads database name before after)
    (hstored : before.StoredAs name) : after.StoredAs name ∧ after.schema = before.schema := by
  cases hleads with
  | kept => exact ⟨hstored, rfl⟩
  | changed hchange hrun =>
    obtain ⟨hkeeps, hrows⟩ := Table.keeps_of_rowChange? hchange
    have hafter := hkeeps name hstored
    rw [hrun] at hafter
    obtain ⟨rows, rfl⟩ := hrows hrun
    exact ⟨hafter, rfl⟩

/-- An event that updates no row appends the rows that come in and takes out the rows that go. -/
theorem Leads.rows_eq (hleads : event.Leads database name before after)
    (hupdates : ¬event.Updates database name) :
    after.rows = Table.withoutPlaces (event.deletedPlaces database name before)
      (before.rows ++ event.insertedRows database name before.schema) := by
  unfold insertedRows deletedPlaces
  cases hleads with
  | kept hother =>
    rw [amount_of_not_changesRows hother, amount_of_not_changesRows hother, List.append_nil,
      Table.withoutPlaces_nil]
  | @changed statement change _ _ count hchange hrun =>
    rw [amount_of_rowChange? hchange, amount_of_rowChange? hchange]
    cases statement with
    | insert table columns tuples =>
      cases hchange
      obtain ⟨rfl, -⟩ := Table.run_insert_eq_ok hrun
      rw [Table.withoutPlaces_nil]
    | update table assignments clause =>
      cases hchange
      exact absurd ⟨rfl, rfl⟩ hupdates
    | delete table clause =>
      cases hchange
      obtain ⟨rfl, -⟩ := Table.run_deleteWhere_eq_ok hrun
      rw [List.append_nil]
    | _ => cases hchange

theorem LeadsAll.length_rows (hleads : LeadsAll database name events before after) :
    after.rows.length + total (deleted database name) events =
      before.rows.length + total (inserted database name) events := by
  induction hleads with
  | nil => rfl
  | cons hevent _ ih =>
    have hfirst := hevent.length_rows
    rw [total, total]
    omega

theorem LeadsAll.storedAs (hleads : LeadsAll database name events before after)
    (hstored : before.StoredAs name) : after.StoredAs name ∧ after.schema = before.schema := by
  induction hleads with
  | nil => exact ⟨hstored, rfl⟩
  | cons hevent _ ih =>
    obtain ⟨hmiddle, hschema⟩ := hevent.storedAs hstored
    obtain ⟨hafter, hsame⟩ := ih hmiddle
    exact ⟨hafter, hsame.trans hschema⟩

end Event

/-- An account of the rows of a table: all rows that have come in, and those that are still there, each
    with the number of rows that had come in before it. -/
structure Ledger where
  inserted : List Row
  remaining : List (Row × Nat)

namespace Ledger

def empty : Ledger :=
  ⟨[], []⟩

/-- The rows that are still there. -/
def rows (ledger : Ledger) : List Row :=
  ledger.remaining.map Prod.fst

section

variable (database name : String) (schema : Schema)

/-- The account after an event. -/
def enter (ledger : Ledger) (event : Event) : Ledger :=
  let new := event.insertedRows database name schema
  let gone := event.deletedPlaces database name ⟨name, schema, ledger.rows⟩
  { inserted := ledger.inserted ++ new
    remaining := Table.withoutPlaces gone (ledger.remaining ++ new.zipIdx ledger.inserted.length) }

/-- The account of a table since it was created. -/
def ofEvents (events : List Event) : Ledger :=
  events.foldl (enter database name schema) empty

end

variable {database name : String} {schema : Schema}

theorem inserted_foldl_enter (ledger : Ledger) (events : List Event) :
    (events.foldl (enter database name schema) ledger).inserted =
      ledger.inserted ++ events.flatMap (Event.insertedRows database name schema) := by
  induction events generalizing ledger with
  | nil => rw [List.foldl_nil, List.flatMap_nil, List.append_nil]
  | cons event events ih =>
    rw [List.foldl_cons, ih, List.flatMap_cons, ← List.append_assoc]
    rfl

/-- Each row that is still there has come in once, and the rows have kept their order. -/
theorem remaining_sublist_foldl_enter {ledger : Ledger}
    (hsublist : ledger.remaining.Sublist ledger.inserted.zipIdx) (events : List Event) :
    (events.foldl (enter database name schema) ledger).remaining.Sublist
      (events.foldl (enter database name schema) ledger).inserted.zipIdx := by
  induction events generalizing ledger with
  | nil => exact hsublist
  | cons event events ih =>
    have happend : (ledger.enter database name schema event).inserted.zipIdx =
        ledger.inserted.zipIdx ++
          (event.insertedRows database name schema).zipIdx ledger.inserted.length := by
      rw [enter, List.zipIdx_append, Nat.zero_add]
    refine ih ((Table.withoutPlaces_sublist _ _).trans ?_)
    rw [happend]
    exact hsublist.append (List.Sublist.refl _)

theorem rows_enter (ledger : Ledger) (event : Event) :
    (ledger.enter database name schema event).rows =
      Table.withoutPlaces (event.deletedPlaces database name ⟨name, schema, ledger.rows⟩)
        (ledger.rows ++ event.insertedRows database name schema) := by
  unfold rows
  rw [enter, Table.map_withoutPlaces, List.map_append, List.zipIdx_map_fst]
  rfl

/-- The account of a table tells its rows, if none of them has been updated. -/
theorem rows_eq_of_leadsAll {events : List Event} {before after : Table} {ledger : Ledger}
    (hleads : Event.LeadsAll database name events before after) (hstored : before.StoredAs name)
    (hupdates : ∀ event ∈ events, ¬event.Updates database name)
    (hledger : before.rows = ledger.rows) :
    after.rows = (events.foldl (enter database name before.schema) ledger).rows := by
  -- The account tells the table as a whole, which is what a deletion picks its rows from.
  induction hleads generalizing ledger with
  | nil => exact hledger
  | @cons event events before middle after hevent _ ih =>
    obtain ⟨hfirst, hothers⟩ := List.forall_mem_cons.1 hupdates
    obtain ⟨hmiddle, hschema⟩ := hevent.storedAs hstored
    have htable : before = ⟨name, before.schema, ledger.rows⟩ := by
      rw [← hstored.1, ← hledger]
    have hrows := hevent.rows_eq hfirst
    rw [hledger, htable, ← rows_enter, ← hschema] at hrows
    rw [List.foldl_cons, ← hschema]
    exact ih hmiddle hothers hrows

end Ledger

/-! Tables of sessions. -/

namespace Table

theorem scan_everything (schema : Schema) (rows : List (Row × Nat)) :
    scan schema [] none rows = .ok rows := by
  induction rows with
  | nil => exact scan_nil schema [] none
  | cons entry rows ih =>
    have hlimit : (none : Option Nat) ≠ some 0 := nofun
    rw [show entry = (entry.1, entry.2) from rfl, scan_cons hlimit]
    change (do pure ((entry.1, entry.2) :: (← scan schema [] none rows))) = _
    rw [ih]
    rfl

/-- The query for everything shows the rows as they are stored. -/
theorem select_everything {table : Table}
    (hrows : ∀ row ∈ table.rows, row.columns = table.schema.names) :
    ∃ selection, table.select .all .everything = .ok selection ∧
      selection.columns = table.schema.names ∧ selection.rows = table.rows := by
  have hcheck : table.checkColumns (table.namedColumns .all .everything) = .ok () := by
    apply checkColumns_eq_ok_iff.2
    simp [namedColumns, columnsOf, Clause.everything]
  have hscan : scan table.schema Clause.everything.conditions Clause.everything.limit
      table.rows.zipIdx = .ok table.rows.zipIdx := scan_everything table.schema _
  refine ⟨shownAs table.schema.names table.rows.zipIdx, ?_, rfl, ?_⟩
  · have hpatterns : PatternsCompile .everything := by simp [PatternsCompile, Clause.everything]
    rw [select_eq table .all hpatterns (.inl rfl), hcheck, hscan]
    rfl
  · have hshown : ∀ entry ∈ table.rows.zipIdx, entry.1.project table.schema.names = entry.1 := by
      intro entry hentry
      rw [← hrows entry.1 (List.fst_mem_of_mem_zipIdx hentry), Row.project_columns]
    calc table.rows.zipIdx.map (fun entry => entry.1.project table.schema.names)
        = table.rows.zipIdx.map Prod.fst := List.map_congr_left hshown
      _ = table.rows := List.zipIdx_map_fst 0 table.rows

end Table

namespace Session

variable {database name : String}

theorem table_eq_ok_of_tableIn {session : Session} {table : Table}
    (htable : session.tableIn database name = some table) (hactive : session.active = some database) :
    session.table name = .ok table := by
  obtain ⟨catalog, found, hcatalog, hfound, hget⟩ := tableIn_eq_some_iff.1 htable
  exact table_eq_ok_iff.2 ⟨(database, found),
    activeDatabase_eq_ok_iff.2 ⟨catalog, hactive, hcatalog, hfound⟩, hget⟩

theorem Undergoes.tableIn_of_createTable {before after : Session} {specs : List ColumnSpec}
    {outcome : Outcome}
    (hevent : before.Undergoes (.carriedOut (some database) (.createTable name specs) (.ok outcome))
      after) :
    ∃ schema, Schema.ofColumns (Database.usableColumns specs) = .ok schema ∧
      (Table.new name schema).StoredAs name ∧
      after.tableIn database name = some (.new name schema) := by
  generalize hactive : some database = active at hevent
  cases hevent with
  | carriedOut log hrun =>
    obtain ⟨middle, u, hcreate, heq⟩ := run_bind_eq_ok_iff.1 hrun
    obtain rfl : middle = after := (Prod.mk.inj heq).1
    obtain ⟨used, catalog, old, new, hused, hcatalog, hold, hnew, rfl⟩ :=
      run_inActive_eq_ok_iff.1 hcreate
    obtain rfl : database = used := Option.some.inj (hactive.trans hused)
    obtain ⟨-, -, schema, hschema, hcolumns, rfl⟩ := Database.run_createTable_eq_ok_iff.1 hnew
    refine ⟨schema, hschema, Database.storedAs_new hschema hcolumns, ?_⟩
    have hdatabase := OrderedMap.get?_insert catalog.databases database
      ⟨old.tables.insert name (.new name schema)⟩ database
    have htable := OrderedMap.get?_insert old.tables name (.new name schema) name
    rw [if_pos rfl] at hdatabase htable
    exact tableIn_eq_some_iff.2 ⟨_, _, rfl, hdatabase, htable⟩

/-- Events that do not remove a table lead it to what each of them in turn makes of it. -/
theorem Passes.exists_tableIn {before after : Session} {events : List Event} {table : Table}
    (hpasses : before.Passes events after) (htable : before.tableIn database name = some table)
    (hkept : ∀ event ∈ events, ¬event.Removes database name) :
    ∃ changed, after.tableIn database name = some changed ∧
      Event.LeadsAll database name events table changed := by
  induction hpasses generalizing table with
  | done => exact ⟨table, htable, .nil table⟩
  | step hevent _ ih =>
    obtain ⟨hfirst, hothers⟩ := List.forall_mem_cons.1 hkept
    obtain ⟨middle, hmiddle, hleads⟩ := hevent.exists_tableIn htable hfirst
    obtain ⟨changed, hchanged, hrest⟩ := ih hmiddle hothers
    exact ⟨changed, hchanged, .cons hleads hrest⟩

/-- The rows of a table that has been created and not been removed since. The rows that are reported
    as inserted are as many as there are, together with those that are reported as deleted. If none of
    them has been updated, the query for everything shows those that have come in, in this order,
    without those that the deletions have picked. -/
theorem rows_accounted {session : Session} {calls : List Call} {front back : List Event}
    {database name : String} {specs : List ColumnSpec} {outcome : Outcome}
    (hhistory : session.history calls =
      front ++ .carriedOut (some database) (.createTable name specs) (.ok outcome) :: back)
    (hkept : ∀ event ∈ back, ¬event.Removes database name) :
    ∃ table, (session.run calls).tableIn database name = some table ∧
      Schema.ofColumns (Database.usableColumns specs) = .ok table.schema ∧
      table.rows.length + Event.total (Event.deleted database name) back =
        Event.total (Event.inserted database name) back ∧
      ((∀ event ∈ back, ¬event.Updates database name) →
        ∃ ledger, ledger = Ledger.ofEvents database name table.schema back ∧
          ledger.inserted = back.flatMap (Event.insertedRows database name table.schema) ∧
          ledger.remaining.Sublist ledger.inserted.zipIdx ∧
          ∀ viewer : Session, viewer.catalog = (session.run calls).catalog →
            viewer.active = some database →
            (viewer.executeStatement (.select .all name .everything)).2 =
              .ok (.rowSet table.schema.names ledger.rows)) := by
  have hpasses := session.passes_history calls
  rw [hhistory] at hpasses
  -- What has happened before the table was created does not matter.
  obtain ⟨middle, -, hback⟩ := hpasses.split
  cases hback with
  | step hcreated hback =>
    obtain ⟨schema, hschema, hnew, hcreatedTable⟩ := hcreated.tableIn_of_createTable
    obtain ⟨table, htable, hleads⟩ := hback.exists_tableIn hcreatedTable hkept
    obtain ⟨hstored, hsame⟩ := hleads.storedAs hnew
    have hlength := hleads.length_rows
    refine ⟨table, htable, hsame ▸ hschema, by simpa [Table.new] using hlength, ?_⟩
    intro hupdates
    refine ⟨_, rfl, ?_, ?_, ?_⟩
    · exact Ledger.inserted_foldl_enter .empty back
    · exact Ledger.remaining_sublist_foldl_enter (List.Sublist.refl _) back
    · intro viewer hcatalog hactive
      have hrows : table.rows = (Ledger.ofEvents database name table.schema back).rows := by
        rw [hsame]
        exact Ledger.rows_eq_of_leadsAll hleads hnew hupdates rfl
      have hviewed : viewer.tableIn database name = some table := by
        rw [tableIn_eq_of_catalog_eq hcatalog, htable]
      have hcolumns := fun row hrow => (hstored.2.fits row hrow).columns_eq
      obtain ⟨selection, hselect, hnames, hshown⟩ := Table.select_everything hcolumns
      rw [result_select, table_eq_ok_of_tableIn hviewed hactive, ← hrows, ← hnames, ← hshown]
      change (do pure (Outcome.rowSet (← table.select .all .everything).columns _) :
        Except Error Outcome) = _
      rw [hselect]
      rfl

/-- What is done with the copies of two libraries, which are kept in tables of the same name. -/
def stocktaking : List Statement := [
  .createTable "copies" [⟨"id", "INT"⟩, ⟨"state", "VARCHAR(3)"⟩],
  .insert "copies" none [[.integer 1, .text "new"], [.integer 1, .text "new"]],
  .insert "copies" none [[.integer 1]],
  .useDatabase "south",
  .createTable "copies" [⟨"id", "INT"⟩],
  .insert "copies" none [[.integer 1], [.integer 1]],
  .delete "copies" .everything,
  .useDatabase "north",
  .insert "copies" (some ["state"]) [[.text "worn"]],
  .delete "copies" ⟨[⟨"id", .eq, .integer 1⟩], none, .ascending, some 1⟩]

/-- Of two equal rows one is deleted. Neither the insertion that fails nor the deletion of all rows of
    the other table counts. -/
theorem rows_accounted_stocktaking :
    ∃ (table : Table) (ledger : Ledger),
      (libraries.run (stocktaking.map .executeStatement)).tableIn "north" "copies" = some table ∧
      table.rows.length + 1 = 3 ∧ ledger.inserted.length = 3 ∧
      ledger.remaining.Sublist ledger.inserted.zipIdx ∧
      ledger.rows.map Row.toList =
        [[("id", .integer 1), ("state", .text "new")], [("id", .null), ("state", .text "wor")]] := by
  let created : Statement := .createTable "copies" [⟨"id", "INT"⟩, ⟨"state", "VARCHAR(3)"⟩]
  let back := (libraries.history (stocktaking.map .executeStatement)).tail
  have hhistory : libraries.history (stocktaking.map .executeStatement) =
      [] ++ .carriedOut (some "north") created (.ok (.affected 0)) :: back := rfl
  have hkept : ∀ event ∈ back, ¬event.Removes "north" "copies" :=
    List.forall_iff_forall_mem.1 ⟨id, id, id, id, id, id, id, id, id⟩
  have hupdates : ∀ event ∈ back, ¬event.Updates "north" "copies" :=
    List.forall_iff_forall_mem.1 ⟨id, id, id, id, id, id, id, id, id⟩
  obtain ⟨table, htable, -, hlength, hrows⟩ := rows_accounted hhistory hkept
  obtain ⟨ledger, -, hinserted, hsublist, hshown⟩ := hrows hupdates
  have hseen : (.ok (.rowSet _ ledger.rows) : Except Error Outcome) = _ := (hshown _ rfl rfl).symm
  refine ⟨table, ledger, htable, hlength, by rw [hinserted]; rfl, hsublist, ?_⟩
  rw [(Outcome.rowSet.inj (Except.ok.inj hseen)).2]
  rfl

end Session

end TableEngine
