import TableEngine.Proofs.Places
import TableEngine.Proofs.Reachable
import TableEngine.Proofs.Selection

/-!
Queries, updates and deletions agree on the rows that a clause picks. A selection names places that
have a row, each once (`Table.exists_picked_of_select`), so that an update or a deletion at these places
is about exactly the rows that a query shows.
-/

namespace TableEngine

open Mutation

namespace Table

/-! The places of a selection. -/

theorem scan_sublist {schema : Schema} {conditions : List Condition} {limit : Option Nat}
    {rows picked : List (Row × Nat)} (hscan : scan schema conditions limit rows = .ok picked) :
    picked.Sublist rows := by
  induction rows generalizing limit picked with
  | nil =>
    rw [scan_nil] at hscan
    obtain rfl := Except.ok.inj hscan
    exact List.Sublist.refl _
  | cons entry rows ih =>
    by_cases hlimit : limit = some 0
    · subst hlimit
      rw [scan_zero] at hscan
      obtain rfl := Except.ok.inj hscan
      exact List.nil_sublist _
    · rw [scan_cons hlimit, bind_eq_ok_iff] at hscan
      obtain ⟨holds, -, hrest⟩ := hscan
      cases holds with
      | true =>
        obtain ⟨others, hothers, heq⟩ := bind_eq_ok_iff.1 hrest
        obtain rfl := Except.ok.inj heq
        exact (ih hothers).cons_cons entry
      | false => exact (ih hrest).cons entry

theorem inOrder_perm (clause : Clause) (picked : List (Row × Nat)) :
    (inOrder clause picked).Perm picked := by
  unfold inOrder
  split
  · exact List.mergeSort_perm _ _
  · exact List.Perm.refl _

/-- A selection shows stored rows with their places, none of them twice, in whatever order. -/
theorem exists_picked_of_select {table : Table} {projection : Projection} {clause : Clause}
    {selection : Selection} (hselect : table.select projection clause = .ok selection) :
    ∃ picked, selection = shownAs (table.columnsOf projection) picked ∧
      (picked.map Prod.snd).Nodup ∧ ∀ entry ∈ picked, table.rows[entry.2]? = some entry.1 := by
  obtain ⟨-, -, -, scanned, hscan, rfl⟩ := select_eq_ok_iff.1 hselect
  have hsublist := scan_sublist hscan
  have hperm := inOrder_perm clause scanned
  refine ⟨inOrder clause scanned, rfl, ?_, ?_⟩
  · have hplaces : (scanned.map Prod.snd).Nodup :=
      List.pairwise_map.2 ((pairwise_of_sublist_zipIdx hsublist).imp Nat.ne_of_lt)
    exact (hperm.map Prod.snd).nodup_iff.2 hplaces
  · intro entry hentry
    have hmem : entry ∈ table.rows.zipIdx := hsublist.subset (hperm.mem_iff.1 hentry)
    exact List.mem_zipIdx_iff_getElem?.1 hmem

/-- What a query for all columns shows are the stored rows at the places it has picked. -/
theorem rows_of_select {table : Table} {clause : Clause} {selection : Selection}
    (hrows : ∀ row ∈ table.rows, row.columns = table.schema.names)
    (hselect : table.select .all clause = .ok selection) :
    selection.handles.Nodup ∧
      selection.rows.map some = selection.handles.map (table.rows[·]?) := by
  obtain ⟨picked, rfl, hnodup, hplaces⟩ := exists_picked_of_select hselect
  refine ⟨hnodup, ?_⟩
  simp only [shownAs, List.map_map]
  apply List.map_congr_left
  intro entry hentry
  have hplace := hplaces entry hentry
  have hcolumns := hrows entry.1 (List.mem_of_getElem? hplace)
  have hshown : entry.1.project (table.columnsOf .all) = entry.1 := by
    rw [columnsOf, ← hcolumns, Row.project_columns]
  simp only [Function.comp_apply, hshown, hplace]

theorem lt_of_mem_handles {table : Table} {projection : Projection} {clause : Clause}
    {selection : Selection} (hselect : table.select projection clause = .ok selection) :
    ∀ place ∈ selection.handles, place < table.rows.length := by
  obtain ⟨picked, rfl, -, hplaces⟩ := exists_picked_of_select hselect
  intro place hplace
  obtain ⟨entry, hentry, rfl⟩ := List.mem_map.1 hplace
  exact (List.getElem?_eq_some_iff.1 (hplaces entry hentry)).1

theorem length_rows_of_select {table : Table} {projection : Projection} {clause : Clause}
    {selection : Selection} (hselect : table.select projection clause = .ok selection) :
    selection.rows.length = selection.handles.length := by
  obtain ⟨picked, rfl, -, -⟩ := exists_picked_of_select hselect
  simp only [shownAs, List.length_map]

/-! Deleting and updating what a clause picks. -/

theorem run_deleteWhere_of_select {table : Table} {clause : Clause} {selection : Selection}
    (hselect : table.select .all clause = .ok selection) :
    (deleteWhere clause).run table = ({ table with rows := table.rowsExcept selection.handles },
      .ok selection.rows.length) := by
  obtain ⟨picked, hpicked, hnodup, -⟩ := exists_picked_of_select hselect
  have hdistinct : selection.handles.Nodup := hpicked ▸ hnodup
  have hcount := countP_range_mem hdistinct (lt_of_mem_handles hselect)
  have hdelete := table.run_delete selection.handles
  rw [hcount, ← length_rows_of_select hselect] at hdelete
  exact run_deleteWhere_eq_ok_iff.2 ⟨selection, hselect, hdelete⟩

theorem run_deleteWhere_of_error {table : Table} {clause : Clause} {error : Error}
    (hselect : table.select .all clause = .error error) :
    (deleteWhere clause).run table = (table, .error error) := by
  unfold deleteWhere
  rw [run_get_bind, run_bind, hselect, run_liftM]

theorem run_updateWhere_of_select {table : Table} {clause : Clause} {selection : Selection}
    (hrows : ∀ row ∈ table.rows, row.columns = table.schema.names)
    (hselect : table.select .all clause = .ok selection) {assignments : List Assignment}
    (hknown : ∀ assignment ∈ assignments, assignment.column ∈ table.schema.names) :
    ∃ rows, (updateWhere assignments clause).run table =
        ({ table with rows }, .ok selection.rows.length) ∧
      rows.length = table.rows.length ∧
      ∀ place old, table.rows[place]? = some old → ∃ new, rows[place]? = some new ∧
        (place ∈ selection.handles → UpdatedBy table.schema assignments old new) ∧
        (place ∉ selection.handles → new = old) := by
  have hcheck : table.checkColumns (assignments.map Assignment.column) = .ok () := by
    apply checkColumns_eq_ok_iff.2
    intro name hname
    obtain ⟨assignment, hassignment, rfl⟩ := List.mem_map.1 hname
    exact hknown assignment hassignment
  have hcount : selection.handles.countP (· < table.rows.length) = selection.rows.length := by
    rw [length_rows_of_select hselect, List.countP_eq_length]
    intro place hplace
    exact decide_eq_true (lt_of_mem_handles hselect place hplace)
  obtain ⟨rows, hrun, hupdated⟩ := run_update hknown hrows selection.handles
  rw [hcount] at hrun
  exact ⟨rows, run_updateWhere_eq_ok_iff.2 ⟨hcheck, selection, hselect, hrun⟩, hupdated⟩

end Table

namespace Session

/-! From tables to sessions. -/

theorem activeDatabase_eq_ok_iff {session : Session} {active : String × Database} :
    session.activeDatabase = .ok active ↔ ∃ catalog, session.active = some active.1 ∧
      session.catalog = some catalog ∧ catalog.databases.get? active.1 = some active.2 := by
  obtain ⟨name, database⟩ := active
  unfold activeDatabase
  split
  · next found catalog hactive hcatalog =>
    simp only [bind_eq_ok_iff, Catalog.database_eq_ok_iff, pure, Except.pure, Except.ok.injEq,
      Prod.mk.injEq, hactive, hcatalog, Option.some.injEq]
    constructor
    · rintro ⟨_, hfound, rfl, rfl⟩
      exact ⟨catalog, rfl, rfl, hfound⟩
    · rintro ⟨_, rfl, rfl, hfound⟩
      exact ⟨database, hfound, rfl, rfl⟩
  · next hmissing =>
    constructor
    · intro heq
      cases heq
    · rintro ⟨catalog, hactive, hcatalog, -⟩
      exact absurd hcatalog (hmissing name catalog hactive)

theorem table_eq_ok_iff {session : Session} {name : String} {table : Table} :
    session.table name = .ok table ↔
      ∃ active, session.activeDatabase = .ok active ∧ active.2.tables.get? name = some table := by
  unfold Session.table
  rw [bind_eq_ok_iff]
  simp only [Database.table_eq_ok_iff]

/-- A change of a table gives what the table gives, and leaves the session with the table as the change
    leaves it. -/
theorem run_changeTable_of_ok {session : Session} {name : String} {table after : Table}
    {change : Mutation Table Nat} {count : Nat} (htable : session.table name = .ok table)
    (hchange : change.run table = (after, .ok count)) :
    ∃ changed, (changeTable name change).run session = (changed, .ok (.affected count)) ∧
      changed.table name = .ok after := by
  obtain ⟨⟨databaseName, database⟩, hopen, hget⟩ := table_eq_ok_iff.1 htable
  obtain ⟨catalog, hactive, hcatalog, hdatabase⟩ := activeDatabase_eq_ok_iff.1 hopen
  have hinTable : (Database.inTable name change).run database =
      (database.replaceTable name after, .ok count) :=
    Database.run_inTable_eq_ok_iff.2 ⟨table, after, hget, hchange, rfl⟩
  have hinActive := run_inActive_eq_ok_iff.2
    ⟨databaseName, catalog, database, _, hactive, hcatalog, hdatabase, hinTable, rfl⟩
  refine ⟨_, run_map_eq_ok_iff.2 ⟨count, hinActive, rfl⟩, ?_⟩
  apply table_eq_ok_iff.2
  refine ⟨(databaseName, database.replaceTable name after), ?_, ?_⟩
  · apply activeDatabase_eq_ok_iff.2
    refine ⟨catalog.replaceDatabase databaseName (database.replaceTable name after), hactive, rfl, ?_⟩
    rw [Catalog.replaceDatabase, OrderedMap.get?_insert, if_pos rfl]
  · rw [Database.replaceTable, OrderedMap.get?_insert, if_pos rfl]

/-- A change in the database in use gives what it gives on that database, or the error of finding
    it. -/
theorem result_inActive {α : Type} (session : Session) (change : Mutation Database α) :
    ((inActive change).run session).2 = (do
      let active ← session.activeDatabase
      (change.run active.2).2) := by
  unfold inActive activeDatabase
  rw [run_get_bind]
  cases hactive : session.active with
  | none => rfl
  | some name =>
    cases hcatalog : session.catalog with
    | none =>
      simp only [inCatalog, run_onPart, hcatalog]
      rfl
    | some catalog =>
      simp only [inCatalog, Catalog.inDatabase, run_onPart, hcatalog, Option.elim_some]
      cases catalog.database name with
      | error error => rfl
      | ok database => rfl

/-- A change of a table gives what it gives on that table, or the error of finding it. -/
theorem result_changeTable (session : Session) (name : String) (change : Mutation Table Nat) :
    ((changeTable name change).run session).2 = (do
      let table ← session.table name
      (change.run table).2.map .affected) := by
  unfold changeTable Session.table
  rw [run_map, result_inActive]
  cases session.activeDatabase with
  | error error => rfl
  | ok active =>
    simp only [bind, Except.bind, Database.inTable, run_onPart]
    cases active.2.table name with
    | error error => rfl
    | ok table => rfl

theorem result_select (session : Session) (name : String) (clause : Clause) :
    (session.executeStatement (.select .all name clause)).2 = (do
      let table ← session.table name
      let selection ← table.select .all clause
      pure (.rowSet selection.columns selection.rows)) :=
  rfl

/-- A deletion fails where the query of all columns fails, and likewise. -/
theorem result_delete_of_error {session : Session} {name : String} {clause : Clause} {error : Error}
    (herror : (session.executeStatement (.select .all name clause)).2 = .error error) :
    (session.executeStatement (.delete name clause)).2 = .error error := by
  have hresult : (session.executeStatement (.delete name clause)).2 = _ :=
    result_changeTable session name (Table.deleteWhere clause)
  rw [hresult]
  rw [result_select] at herror
  rcases bind_eq_error_iff.1 herror with hmissing | ⟨table, htable, hfails⟩
  · rw [hmissing]
    rfl
  · have hselect : table.select .all clause = .error error := by
      rcases bind_eq_error_iff.1 hfails with hselect | ⟨selection, -, hshown⟩
      · exact hselect
      · cases hshown
    apply bind_eq_error_iff.2
    refine .inr ⟨table, htable, ?_⟩
    rw [Table.run_deleteWhere_of_error hselect]
    rfl

theorem columns_of_table {session : Session} (hreachable : session.Reachable) {name : String}
    {table : Table} (htable : session.table name = .ok table) :
    ∀ row ∈ table.rows, row.columns = table.schema.names := by
  obtain ⟨⟨databaseName, database⟩, hopen, hget⟩ := table_eq_ok_iff.1 htable
  obtain ⟨catalog, -, hcatalog, hdatabase⟩ := activeDatabase_eq_ok_iff.1 hopen
  have hwell := hreachable.wellFormed catalog hcatalog _ (OrderedMap.get?_eq_some_iff.1 hdatabase)
  have hstored := hwell.2 _ (OrderedMap.get?_eq_some_iff.1 hget)
  exact fun row hrow => (hstored.2.fits row hrow).columns_eq

/-- Whenever a query of all columns picks rows by a clause, a deletion with that clause removes exactly
    these rows, place by place, and an update with that clause changes exactly these rows; both count
    them. Whenever the query fails, the deletion fails likewise and changes nothing. -/
theorem Reachable.clause_picks_same_rows {session : Session} (hreachable : session.Reachable)
    (name : String) (clause : Clause) :
    (∀ table outcome, session.table name = .ok table →
      (session.executeStatement (.select .all name clause)).2 = .ok outcome →
      ∃ selection, table.select .all clause = .ok selection ∧
        outcome = .rowSet table.schema.names selection.rows ∧ selection.handles.Nodup ∧
        selection.rows.map some = selection.handles.map (table.rows[·]?) ∧
        (∃ after, session.executeStatement (.delete name clause) =
            (after, .ok (.affected selection.rows.length)) ∧
          after.table name = .ok { table with rows := table.rowsExcept selection.handles }) ∧
        ∀ assignments : List Assignment,
          (∀ assignment ∈ assignments, assignment.column ∈ table.schema.names) →
          ∃ after rows, session.executeStatement (.update name assignments clause) =
              (after, .ok (.affected selection.rows.length)) ∧
            after.table name = .ok { table with rows } ∧ rows.length = table.rows.length ∧
            ∀ place old, table.rows[place]? = some old → ∃ new, rows[place]? = some new ∧
              (place ∈ selection.handles → Table.UpdatedBy table.schema assignments old new) ∧
              (place ∉ selection.handles → new = old)) ∧
      ∀ error, (session.executeStatement (.select .all name clause)).2 = .error error →
        session.executeStatement (.delete name clause) = (session, .error error) := by
  constructor
  · intro table outcome htable houtcome
    have hrows := columns_of_table hreachable htable
    rw [result_select] at houtcome
    obtain ⟨found, hfound, houtcome⟩ := bind_eq_ok_iff.1 houtcome
    obtain rfl : table = found := Except.ok.inj (htable.symm.trans hfound)
    obtain ⟨selection, hselect, heq⟩ := bind_eq_ok_iff.1 houtcome
    have hcolumns : selection.columns = table.schema.names := by
      obtain ⟨picked, rfl, -, -⟩ := Table.exists_picked_of_select hselect
      rfl
    have hdelete := Table.run_deleteWhere_of_select hselect
    obtain ⟨hnodup, hshown⟩ := Table.rows_of_select hrows hselect
    refine ⟨selection, hselect, ?_, hnodup, hshown, run_changeTable_of_ok htable hdelete, ?_⟩
    · rw [← hcolumns]
      exact (Except.ok.inj heq).symm
    · intro assignments hknown
      obtain ⟨rows, hupdate, hlength, hplaces⟩ :=
        Table.run_updateWhere_of_select hrows hselect hknown
      obtain ⟨after, hrun, hafter⟩ := run_changeTable_of_ok htable hupdate
      exact ⟨after, rows, hrun, hafter, hlength, hplaces⟩
  · intro error herror
    have hfails := result_delete_of_error herror
    have hatomic := atomic_perform (.delete name clause)
    have hstate : (session.executeStatement (.delete name clause)).1 = session :=
      hatomic (Prod.ext rfl hfails)
    exact Prod.ext hstate hfails

/-- A session with a table that holds a row twice. -/
def doubled : Session :=
  (fresh .standard).run [
    .executeStatement (.createDatabase "shop"),
    .executeStatement (.useDatabase "shop"),
    .executeStatement (.createTable "stock" [⟨"id", "INT"⟩, ⟨"label", "VARCHAR(3)"⟩]),
    .executeStatement (.insert "stock" none
      [[.integer 2, .text "box"], [.integer 7, .text "cra"], [.integer 7, .text "cra"]])]

/-- The rows of the table, of which the second is there twice. -/
def box : Row :=
  .ofList [("id", .integer 2), ("label", .text "box")]

def crate : Row :=
  .ofList [("id", .integer 7), ("label", .text "cra")]

/-- The table of the session. -/
def stock : Table where
  name := "stock"
  schema := {
    columns := [⟨"id", ⟨.int, none⟩, 0⟩, ⟨"label", ⟨.varchar, some 3⟩, 1⟩]
    index := .ofList [("id", 0), ("label", 1)]
    index_entries := by decide
    positions := rfl }
  rows := [box, crate, crate]

/-- Two rows at most, the greatest number first. -/
def firstTwo : Clause :=
  ⟨[⟨"id", .ge, .text "2"⟩], some "id", .descending, some 2⟩

/-- The second of the equal rows is out of reach of the clause, so that it stays where its equal is
    deleted, and keeps its label where its equal gets a new one. -/
theorem clause_picks_same_rows_doubled :
    ∃ deleted updated rows, doubled.table "stock" = .ok stock ∧
      doubled.executeStatement (.delete "stock" firstTwo) = (deleted, .ok (.affected 2)) ∧
      deleted.table "stock" = .ok { stock with rows := [crate] } ∧
      doubled.executeStatement (.update "stock" [⟨"label", .text "bag"⟩] firstTwo) =
        (updated, .ok (.affected 2)) ∧
      updated.table "stock" = .ok { stock with rows } ∧ rows[2]? = some crate := by
  have hreachable : doubled.Reachable :=
    Reachable.run (.start (show start .standard = .ok (fresh .standard) from rfl)) _
  have htable : doubled.table "stock" = .ok stock := rfl
  have hsorted : Table.sortDescending "id" [(box, 0), (crate, 1)] = [(crate, 1), (box, 0)] := by
    have horder : ((crate.get "id").compare (box.get "id")).isLE = false := by decide
    simp [Table.sortDescending, List.mergeSort, horder]
  have hpicked : stock.select .all firstTwo = .ok ⟨["id", "label"], [1, 0], [crate, box]⟩ := by
    have hscanned : stock.select .all firstTwo = .ok (Table.shownAs ["id", "label"]
      (Table.sortDescending "id" [(box, 0), (crate, 1)])) := rfl
    rw [hscanned, hsorted]
    rfl
  have hshown : (doubled.executeStatement (.select .all "stock" firstTwo)).2 =
      .ok (.rowSet ["id", "label"] [crate, box]) := by
    rw [result_select]
    exact bind_eq_ok_iff.2 ⟨stock, htable, bind_eq_ok_iff.2 ⟨_, hpicked, rfl⟩⟩
  obtain ⟨hagrees, -⟩ := hreachable.clause_picks_same_rows "stock" firstTwo
  obtain ⟨selection, hselect, -, -, -, ⟨deleted, hdelete, hrest⟩, hupdates⟩ :=
    hagrees stock _ htable hshown
  obtain rfl := Except.ok.inj (hpicked.symm.trans hselect)
  obtain ⟨updated, rows, hupdate, hafter, -, hplaces⟩ :=
    hupdates [⟨"label", .text "bag"⟩] (by decide)
  obtain ⟨last, hlast, -, hsame⟩ := hplaces 2 crate rfl
  obtain rfl : last = crate := hsame (by decide)
  exact ⟨deleted, updated, rows, htable, hdelete, hrest, hupdate, hafter, hlast⟩

end Session

end TableEngine
