import TableEngine.Proofs.Effects

/-!
The history of a session: what happens to it in a number of calls, one event after the other. A call with
a script is as many events as the script has statements. Every session passes through its history step by
step (`Session.passes_history`), and each step leads a table from the rows that it has to the rows that the
event says (`Session.Undergoes.exists_tableIn`).
-/

namespace TableEngine

open Mutation OrderedMap

/-- One thing that has happened to a session. -/
inductive Event where
  /-- A statement has been carried out while the given database was in use, if one was. -/
  | carriedOut (active : Option String) (statement : Statement) (result : Except Error Outcome)
  /-- A text has come in that spells no statement. -/
  | rejected (error : Error)
  /-- A dump has come in. -/
  | imported (result : Except Error Unit)

namespace Session

/-- What happens when a text comes in. -/
def textEvent (session : Session) (text : String) : Event :=
  match Statement.parse text with
  | .ok statement => .carriedOut session.active statement (session.execute text).2
  | .error error => .rejected error

/-- What happens when texts come in, one after the other. -/
def textEvents (session : Session) : List String → List Event
  | [] => []
  | text :: texts => session.textEvent text :: (session.execute text).1.textEvents texts

/-- What happens in a call. -/
def events (session : Session) : Call → List Event
  | .execute text => [session.textEvent text]
  | .executeScript script => session.textEvents (Script.statements script)
  | .executeStatement statement =>
    [.carriedOut session.active statement (session.executeStatement statement).2]
  | .importJson dump => [.imported (session.importJson dump).2]

/-- What happens in some calls, one after the other. -/
def history (session : Session) : List Call → List Event
  | [] => []
  | call :: calls => session.events call ++ (session.after call).history calls

/-- An event leads from a session to another one. What the log holds does not matter. -/
inductive Undergoes : Session → Event → Session → Prop
  | carriedOut {before after : Session} {statement : Statement} {result : Except Error Outcome}
      (log : List String)
      (hrun : executeStatement { before with log } statement = (after, result)) :
      Undergoes before (.carriedOut before.active statement result) after
  | rejected (before : Session) (log : List String) (error : Error) :
      Undergoes before (.rejected error) { before with log }
  | imported {before after : Session} {dump : String} {result : Except Error Unit}
      (himport : before.importJson dump = (after, result)) :
      Undergoes before (.imported result) after

/-- Events lead from a session to another one, each from where the one before has led to. -/
inductive Passes : Session → List Event → Session → Prop
  | done (session : Session) : Passes session [] session
  | step {before middle after : Session} {event : Event} {events : List Event}
      (hevent : before.Undergoes event middle) (hevents : Passes middle events after) :
      Passes before (event :: events) after

theorem Passes.append {before middle after : Session} {front back : List Event}
    (hfront : before.Passes front middle) (hback : middle.Passes back after) :
    before.Passes (front ++ back) after := by
  induction hfront with
  | done => exact hback
  | step hevent _ ih => exact .step hevent (ih hback)

theorem Passes.split {before after : Session} {front back : List Event}
    (hpasses : before.Passes (front ++ back) after) :
    ∃ middle, before.Passes front middle ∧ middle.Passes back after := by
  induction front generalizing before with
  | nil => exact ⟨before, .done before, hpasses⟩
  | cons event front ih =>
    cases hpasses with
    | step hevent hevents =>
      obtain ⟨middle, hfront, hback⟩ := ih hevents
      exact ⟨middle, .step hevent hfront, hback⟩

theorem undergoes_textEvent (session : Session) (text : String) :
    session.Undergoes (session.textEvent text) (session.execute text).1 := by
  cases hparse : Statement.parse text with
  | ok statement =>
    simp only [textEvent, execute, hparse]
    exact .carriedOut (session.record text).log rfl
  | error error =>
    simp only [textEvent, execute, hparse]
    exact .rejected session (session.record text).log error

theorem passes_textEvents (session : Session) (texts : List String) :
    session.Passes (session.textEvents texts) (session.executeAll texts).1 := by
  induction texts generalizing session with
  | nil => exact .done session
  | cons text texts ih => exact .step (session.undergoes_textEvent text) (ih _)

theorem passes_events (session : Session) (call : Call) :
    session.Passes (session.events call) (session.after call) := by
  cases call with
  | execute text => exact .step (session.undergoes_textEvent text) (.done _)
  | executeScript script => exact session.passes_textEvents _
  | executeStatement statement => exact .step (.carriedOut session.log rfl) (.done _)
  | importJson dump => exact .step (.imported rfl) (.done _)

/-- A session passes through its history. -/
theorem passes_history (session : Session) (calls : List Call) :
    session.Passes (session.history calls) (session.run calls) := by
  induction calls generalizing session with
  | nil => exact .done session
  | cons call calls ih => exact (session.passes_events call).append (ih _)

/-! The table of a name in the database of a name. -/

/-- A table of any database, whether or not that is in use. -/
def tableIn (session : Session) (database name : String) : Option Table := do
  let catalog ← session.catalog
  let found ← catalog.databases.get? database
  found.tables.get? name

theorem tableIn_eq_some_iff {session : Session} {database name : String} {table : Table} :
    session.tableIn database name = some table ↔
      ∃ catalog found, session.catalog = some catalog ∧
        catalog.databases.get? database = some found ∧ found.tables.get? name = some table := by
  simp [tableIn, Option.bind_eq_some_iff]

theorem Reachable.storedAs {session : Session} (hreachable : session.Reachable)
    {databaseName name : String} {table : Table}
    (htable : session.tableIn databaseName name = some table) : table.StoredAs name := by
  obtain ⟨catalog, database, hcatalog, hdatabase, hget⟩ := tableIn_eq_some_iff.1 htable
  have hwell := hreachable.wellFormed catalog hcatalog _ (get?_eq_some_iff.1 hdatabase)
  exact hwell.2.table hget

theorem tableIn_eq_of_catalog_eq {before after : Session} (hcatalog : after.catalog = before.catalog)
    (database name : String) : after.tableIn database name = before.tableIn database name := by
  unfold tableIn
  rw [hcatalog]

/-- A change in the database in use keeps a table of any database, if the change keeps it wherever the
    table is in that database. -/
theorem ChangesActive.tableIn_eq {Changes : Database → Database → Prop} {before after : Session}
    (hchanges : ChangesActive Changes before after) {database name : String} {table : Table}
    (htable : before.tableIn database name = some table)
    (hkeeps : before.active = some database → ∀ old new, Changes old new →
      old.tables.get? name = some table → new.tables.get? name = some table) :
    after.tableIn database name = some table := by
  obtain ⟨-, active, catalog, changed, hactive, hcatalog, hchanged, old, new, hreplaced, hchange⟩ :=
    hchanges
  obtain ⟨stored, found, hstored, hfound, hget⟩ := tableIn_eq_some_iff.1 htable
  obtain rfl : stored = catalog := Option.some.inj (hstored.symm.trans hcatalog)
  obtain ⟨hold, hinsert⟩ := replaced_iff.1 hreplaced
  apply tableIn_eq_some_iff.2
  by_cases hother : database = active
  · subst hother
    obtain rfl : found = old := Option.some.inj (hfound.symm.trans hold)
    refine ⟨changed, new, hchanged, ?_, hkeeps hactive found new hchange hget⟩
    rw [← hinsert, get?_insert, if_pos rfl]
  · refine ⟨changed, found, hchanged, ?_, hget⟩
    rw [← hinsert, get?_insert, if_neg hother, hfound]

end Session

/-- The change that a statement makes in the rows of a table, with the name of the table, if it is a
    statement that changes rows. -/
def Statement.rowChange? : Statement → Option (String × Mutation Table Nat)
  | insert table columns tuples => some (table, Table.insert columns tuples)
  | update table assignments clause => some (table, Table.updateWhere assignments clause)
  | delete table clause => some (table, Table.deleteWhere clause)
  | _ => none

namespace Event

variable (database name : String)

/-- The table has been dropped, alone or with its database, or all databases have been replaced. -/
def Removes : Event → Prop
  | carriedOut active (.dropTable table) (.ok _) => active = some database ∧ table = name
  | carriedOut _ (.dropDatabase dropped) (.ok _) => dropped = database
  | imported (.ok _) => True
  | _ => False

/-- The rows of the table have been changed, by a statement about this table that has been carried out
    while its database was in use. -/
def ChangesRows : Event → Prop
  | carriedOut active statement (.ok _) =>
    active = some database ∧ ∃ change, statement.rowChange? = some (name, change)
  | _ => False

/-- What an event makes of the table. -/
inductive Leads : Event → Table → Table → Prop
  | changed {statement : Statement} {change : Mutation Table Nat} {before after : Table} {count : Nat}
      (hchange : statement.rowChange? = some (name, change))
      (hrun : change.run before = (after, .ok count)) :
      Leads (.carriedOut (some database) statement (.ok (.affected count))) before after
  | kept {event : Event} (hother : ¬event.ChangesRows database name) (table : Table) :
      Leads event table table

end Event

namespace Session

variable {database name : String}

/-- A change of a table is made in the table of this name in the database in use, and in no other. -/
theorem exists_tableIn_of_changeTable {before after : Session} {changedName : String}
    {change : Mutation Table Nat} {outcome : Outcome} {table : Table}
    (htable : before.tableIn database name = some table)
    (hrun : (changeTable changedName change).run before = (after, .ok outcome)) :
    ∃ changed count, after.tableIn database name = some changed ∧ outcome = .affected count ∧
      if before.active = some database ∧ changedName = name
      then change.run table = (changed, .ok count) else changed = table := by
  obtain ⟨count, hinActive, rfl⟩ := run_map_eq_ok_iff.1 hrun
  obtain ⟨active, catalog, old, new, hactive, hcatalog, hold, hinTable, rfl⟩ :=
    run_inActive_eq_ok_iff.1 hinActive
  obtain ⟨oldTable, newTable, holdTable, hchange, rfl⟩ := Database.run_inTable_eq_ok_iff.1 hinTable
  obtain ⟨stored, found, hstored, hfound, hget⟩ := tableIn_eq_some_iff.1 htable
  obtain rfl : stored = catalog := Option.some.inj (hstored.symm.trans hcatalog)
  have hdatabases := get?_insert stored.databases active (old.replaceTable changedName newTable)
    database
  have htables := get?_insert old.tables changedName newTable name
  by_cases hsame : active = database
  · subst hsame
    obtain rfl : found = old := Option.some.inj (hfound.symm.trans hold)
    rw [if_pos rfl] at hdatabases
    by_cases hname : changedName = name
    · subst hname
      obtain rfl : oldTable = table := Option.some.inj (holdTable.symm.trans hget)
      rw [if_pos rfl] at htables
      refine ⟨newTable, count, tableIn_eq_some_iff.2 ⟨_, _, rfl, hdatabases, htables⟩, rfl, ?_⟩
      rwa [if_pos ⟨hactive, rfl⟩]
    · rw [if_neg (Ne.symm hname), hget] at htables
      refine ⟨table, count, tableIn_eq_some_iff.2 ⟨_, _, rfl, hdatabases, htables⟩, rfl, ?_⟩
      rw [if_neg fun hboth => hname hboth.2]
  · rw [if_neg (Ne.symm hsame), hfound] at hdatabases
    refine ⟨table, count, tableIn_eq_some_iff.2 ⟨_, _, rfl, hdatabases, hget⟩, rfl, ?_⟩
    rw [if_neg]
    rintro ⟨hother, -⟩
    exact hsame (Option.some.inj (hactive.symm.trans hother))

theorem perform_eq_of_rowChange? {statement : Statement} {changedName : String}
    {change : Mutation Table Nat} (hchange : statement.rowChange? = some (changedName, change)) :
    perform statement = changeTable changedName change := by
  cases statement <;> cases hchange <;> rfl

theorem exists_tableIn_of_rowChange? {before after : Session} {statement : Statement}
    {changedName : String} {change : Mutation Table Nat} {outcome : Outcome} {table : Table}
    (htable : before.tableIn database name = some table)
    (hrun : (perform statement).run before = (after, .ok outcome))
    (hchange : statement.rowChange? = some (changedName, change)) :
    ∃ changed, after.tableIn database name = some changed ∧
      (Event.carriedOut before.active statement (.ok outcome)).Leads database name table changed := by
  rw [perform_eq_of_rowChange? hchange] at hrun
  obtain ⟨changed, count, hchanged, rfl, hrows⟩ := exists_tableIn_of_changeTable htable hrun
  refine ⟨changed, hchanged, ?_⟩
  split at hrows
  · next hsame =>
    obtain ⟨hactive, rfl⟩ := hsame
    rw [hactive]
    exact .changed hchange hrows
  · next hother =>
    obtain rfl := hrows
    refine .kept ?_ changed
    rintro ⟨hactive, _, heq⟩
    exact hother ⟨hactive, congrArg Prod.fst (Option.some.inj (hchange.symm.trans heq))⟩

/-- A statement that changes no rows keeps every table that it does not drop. -/
theorem ChangesOnlyTarget.tableIn_eq {before after : Session} {statement : Statement}
    {outcome : Outcome} {table : Table} (htarget : ChangesOnlyTarget before after statement)
    (htable : before.tableIn database name = some table) (hrows : statement.rowChange? = none)
    (hkeeps : ¬(Event.carriedOut before.active statement (.ok outcome)).Removes database name) :
    after.tableIn database name = some table := by
  cases statement with
  | createDatabase created =>
    obtain ⟨-, catalog, changed, hcatalog, hchanged, happended⟩ := htarget
    obtain ⟨stored, found, hstored, hfound, hget⟩ := tableIn_eq_some_iff.1 htable
    obtain rfl : stored = catalog := Option.some.inj (hstored.symm.trans hcatalog)
    obtain ⟨hnew, hinsert⟩ := appended_iff.1 happended
    have hne : database ≠ created := by
      rintro rfl
      rw [get?_eq_none_iff.2 hnew] at hfound
      cases hfound
    refine tableIn_eq_some_iff.2 ⟨changed, found, hchanged, ?_, hget⟩
    rw [← hinsert, get?_insert, if_neg hne, hfound]
  | dropDatabase dropped =>
    obtain ⟨-, catalog, changed, _, hcatalog, hchanged, hremoved⟩ := htarget
    obtain ⟨stored, found, hstored, hfound, hget⟩ := tableIn_eq_some_iff.1 htable
    obtain rfl : stored = catalog := Option.some.inj (hstored.symm.trans hcatalog)
    obtain ⟨-, herase⟩ := removed_iff.1 hremoved
    refine tableIn_eq_some_iff.2 ⟨changed, found, hchanged, ?_, hget⟩
    have hne : database ≠ dropped := fun heq => hkeeps heq.symm
    rw [← herase, get?_erase_of_ne _ hne, hfound]
  | useDatabase used =>
    obtain ⟨-, hcatalog, -⟩ := htarget
    rwa [tableIn_eq_of_catalog_eq hcatalog]
  | createTable created columns =>
    refine ChangesActive.tableIn_eq htarget htable fun _ old new ⟨_, _, _, happended⟩ hget => ?_
    obtain ⟨hnew, hinsert⟩ := appended_iff.1 happended
    have hne : name ≠ created := by
      rintro rfl
      rw [get?_eq_none_iff.2 hnew] at hget
      cases hget
    rw [← hinsert, get?_insert, if_neg hne, hget]
  | dropTable dropped =>
    refine ChangesActive.tableIn_eq htarget htable fun hactive old new ⟨_, hremoved⟩ hget => ?_
    obtain ⟨-, herase⟩ := removed_iff.1 hremoved
    have hne : name ≠ dropped := fun heq => hkeeps ⟨hactive, heq.symm⟩
    rw [← herase, get?_erase_of_ne _ hne, hget]
  | insert | update | delete => cases hrows
  | showDatabases | showTables | describe | select =>
    obtain ⟨-, hcatalog⟩ := htarget
    rwa [tableIn_eq_of_catalog_eq hcatalog]

/-- An event that does not remove a table leads it to what the event makes of it. -/
theorem Undergoes.exists_tableIn {before after : Session} {event : Event} {table : Table}
    (hevent : before.Undergoes event after) (htable : before.tableIn database name = some table)
    (hkeeps : ¬event.Removes database name) :
    ∃ changed, after.tableIn database name = some changed ∧
      event.Leads database name table changed := by
  cases hevent with
  | rejected => exact ⟨table, htable, .kept id table⟩
  | @imported _ dump result himport =>
    cases result with
    | error error =>
      obtain rfl := atomic_importCatalog dump himport
      exact ⟨table, htable, .kept id table⟩
    | ok u => exact absurd trivial hkeeps
  | @carriedOut _ statement result log hrun =>
    have hlogged : tableIn { before with log } database name = some table := htable
    -- A statement that fails leaves the session as it was, and so does a dump that is refused.
    cases result with
    | error error =>
      obtain rfl := atomic_perform statement hrun
      exact ⟨table, hlogged, .kept id table⟩
    | ok outcome =>
      cases hchange : statement.rowChange? with
      | none =>
        have htarget := changesOnlyTarget_of_perform hrun
        refine ⟨table, htarget.tableIn_eq hlogged hchange hkeeps, .kept ?_ table⟩
        rintro ⟨-, change, hsome⟩
        cases hchange.symm.trans hsome
      | some found =>
        have hleads := exists_tableIn_of_rowChange? hlogged hrun hchange
        exact hleads

end Session

end TableEngine
