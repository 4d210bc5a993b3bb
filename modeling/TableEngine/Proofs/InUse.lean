import TableEngine.Proofs.Agreement
import TableEngine.Proofs.Effects
import TableEngine.Proofs.LocalErrors

/-!
The database in use is there. A session keeps its name apart from the catalog, and every change of one of
them keeps both in step (`Session.UsesExisting`). Statements about tables thus fail for want of a database
exactly if none is in use (`Session.FindsDatabase`).
-/

namespace TableEngine

open Mutation OrderedMap

/-- Whether a statement is about the tables of the database in use. -/
def Statement.isAboutTables : Statement → Bool
  | showTables | createTable .. | dropTable _ | describe _ | insert .. | select .. | update ..
  | delete .. => true
  | createDatabase _ | dropDatabase _ | useDatabase _ | showDatabases => false

namespace OrderedMap

variable {α : Type} {before after : OrderedMap α} {key : String}

theorem Appended.keys_eq {value : α} (happended : Appended key value before after) :
    after.keys = before.keys ++ [key] := by
  rw [keys, show after.entries = _ from happended, List.map_append]
  rfl

theorem Removed.mem_keys {value : α} (hremoved : Removed key value before after) {name : String}
    (hname : name ∈ before.keys) (hne : name ≠ key) : name ∈ after.keys := by
  obtain ⟨-, rfl⟩ := removed_iff.1 hremoved
  rw [keys_erase]
  exact List.mem_filter.2 ⟨hname, decide_eq_true hne⟩

theorem Replaced.keys_eq {old new : α} (hreplaced : Replaced key old new before after) :
    after.keys = before.keys := by
  obtain ⟨front, back, hbefore, hafter⟩ := hreplaced
  rw [keys, keys, hbefore, hafter, List.map_append, List.map_append]
  rfl

end OrderedMap

namespace Session

/-! The database in use and the catalog. -/

/-- The catalog has the database in use, if there is one. -/
def UsesExisting (session : Session) : Prop :=
  ∀ name, session.active = some name →
    ∃ catalog, session.catalog = some catalog ∧ name ∈ catalog.databaseNames

theorem ChangesActive.usesExisting {Changes : Database → Database → Prop} {before after : Session}
    (hchanges : ChangesActive Changes before after) (huses : before.UsesExisting) :
    after.UsesExisting := by
  obtain ⟨hactive, _, catalog, changed, -, hcatalog, hchanged, _, _, hreplaced, -⟩ := hchanges
  intro name hname
  obtain ⟨found, hfound, hmem⟩ := huses name (hactive ▸ hname)
  obtain rfl : found = catalog := Option.some.inj (hfound.symm.trans hcatalog)
  have hnames : changed.databaseNames = found.databaseNames := hreplaced.keys_eq
  exact ⟨changed, hchanged, hnames ▸ hmem⟩

theorem ChangesOnlyTarget.usesExisting {before after : Session} {statement : Statement}
    (htarget : ChangesOnlyTarget before after statement) (huses : before.UsesExisting) :
    after.UsesExisting := by
  cases statement with
  | createDatabase created =>
    obtain ⟨hactive, catalog, changed, hcatalog, hchanged, happended⟩ := htarget
    intro name hname
    obtain ⟨found, hfound, hmem⟩ := huses name (hactive ▸ hname)
    obtain rfl : found = catalog := Option.some.inj (hfound.symm.trans hcatalog)
    have hnames : changed.databaseNames = found.databaseNames ++ [created] := happended.keys_eq
    exact ⟨changed, hchanged, hnames ▸ List.mem_append_left _ hmem⟩
  | dropDatabase dropped =>
    obtain ⟨hactive, catalog, changed, database, hcatalog, hchanged, hremoved⟩ := htarget
    intro name hname
    rw [hname] at hactive
    split at hactive
    · cases hactive
    · next hother =>
      obtain ⟨found, hfound, hmem⟩ := huses name hactive.symm
      obtain rfl : found = catalog := Option.some.inj (hfound.symm.trans hcatalog)
      have hne : name ≠ dropped := fun heq => hother (heq ▸ hactive.symm)
      exact ⟨changed, hchanged, hremoved.mem_keys hmem hne⟩
  | useDatabase used =>
    obtain ⟨hactive, hcatalog, hused⟩ := htarget
    intro name hname
    obtain rfl : used = name := Option.some.inj (hactive.symm.trans hname)
    rwa [hcatalog]
  | createTable | dropTable | insert | update | delete => exact ChangesActive.usesExisting htarget huses
  | showDatabases | showTables | describe | select =>
    obtain ⟨hactive, hcatalog⟩ := htarget
    unfold UsesExisting
    rwa [hactive, hcatalog]

theorem keeps_usesExisting_perform (statement : Statement) :
    (perform statement).Keeps UsesExisting :=
  (atomic_perform statement).keeps fun huses hrun =>
    (changesOnlyTarget_of_perform hrun).usesExisting huses

theorem keeps_usesExisting_importCatalog (dump : String) :
    (importCatalog dump).Keeps UsesExisting := by
  refine (atomic_importCatalog dump).keeps ?_
  intro before after u _ hrun
  obtain ⟨catalog, -, rfl⟩ := run_importCatalog_eq_ok_iff.1 hrun
  intro name hname
  cases hname

theorem usesExisting_start {config : SessionConfig} {session : Session}
    (hstart : start config = .ok session) : session.UsesExisting := by
  rcases start_eq_ok_iff.1 hstart with ⟨-, rfl⟩ | ⟨used, -, -, -, rfl⟩
  · intro name hname
    cases hname
  · intro name hname
    obtain rfl : used = name := Option.some.inj hname
    exact ⟨_, rfl, List.mem_singleton.2 rfl⟩

theorem Reachable.usesExisting {session : Session} (hreachable : session.Reachable) :
    session.UsesExisting := by
  induction hreachable with
  | start hstart => exact usesExisting_start hstart
  | call _ call ih =>
    exact keeps_after (fun _ _ huses => huses) keeps_usesExisting_perform
      keeps_usesExisting_importCatalog ih call

theorem ChangesOnlyTarget.isSome_catalog {before after : Session} {statement : Statement}
    (htarget : ChangesOnlyTarget before after statement) (hsome : before.catalog.isSome = true) :
    after.catalog.isSome = true := by
  cases statement with
  | createDatabase name =>
    obtain ⟨-, _, changed, -, hchanged, -⟩ := htarget
    rw [hchanged, Option.isSome_some]
  | dropDatabase name =>
    obtain ⟨-, _, changed, _, -, hchanged, -⟩ := htarget
    rw [hchanged, Option.isSome_some]
  | useDatabase name =>
    obtain ⟨-, hcatalog, -⟩ := htarget
    rwa [hcatalog]
  | createTable | dropTable | insert | update | delete =>
    obtain ⟨-, _, _, changed, -, -, hchanged, -⟩ := htarget
    rw [hchanged, Option.isSome_some]
  | showDatabases | showTables | describe | select =>
    obtain ⟨-, hcatalog⟩ := htarget
    rwa [hcatalog]

/-- A session that has a catalog has one after every call. -/
theorem isSome_catalog_after {session : Session} (hsome : session.catalog.isSome = true)
    (call : Call) : (session.after call).catalog.isSome = true := by
  refine keeps_after (P := fun session => session.catalog.isSome = true) ?_ ?_ ?_ hsome call
  · exact fun _ _ hsome => hsome
  · intro statement
    exact (atomic_perform statement).keeps fun hsome hrun =>
      (changesOnlyTarget_of_perform hrun).isSome_catalog hsome
  · intro dump
    refine (atomic_importCatalog dump).keeps ?_
    intro before after u _ hrun
    obtain ⟨catalog, -, rfl⟩ := run_importCatalog_eq_ok_iff.1 hrun
    rfl

theorem isSome_catalog_run {session : Session} (hsome : session.catalog.isSome = true)
    (calls : List Call) : (session.run calls).catalog.isSome = true := by
  induction calls generalizing session with
  | nil => exact hsome
  | cons call calls ih => exact ih (isSome_catalog_after hsome call)

/-! Finding the database in use. -/

theorem activeDatabase_of_none {session : Session} (hactive : session.active = none) :
    session.activeDatabase = .error .noDatabaseSelected := by
  unfold activeDatabase
  rw [hactive]

theorem UsesExisting.exists_activeDatabase {session : Session} (huses : session.UsesExisting)
    {name : String} (hactive : session.active = some name) :
    ∃ database, session.activeDatabase = .ok (name, database) := by
  obtain ⟨catalog, hcatalog, hname⟩ := huses name hactive
  obtain ⟨database, hdatabase⟩ := exists_get?_of_mem_keys hname
  exact ⟨database, activeDatabase_eq_ok_iff.2 ⟨catalog, hactive, hcatalog, hdatabase⟩⟩

/-- A result that is found in the database in use: whether there is one is settled first, and all that
    can fail after that is local. -/
def ComesFromActive (session : Session) (result : Except Error Outcome) : Prop :=
  ∃ rest : String × Database → Except Error Outcome, (∀ active, FailsLocally (rest active)) ∧
    result = session.activeDatabase >>= rest

theorem comesFromActive_inActive {β : Type} {change : Mutation Database β}
    (hchange : change.FailsLocally) (f : β → Outcome) (session : Session) :
    session.ComesFromActive ((f <$> inActive change).run session).2 := by
  refine ⟨fun active => do pure (f (← (change.run active.2).2)), ?_, ?_⟩
  · exact fun active => (hchange active.2).bind fun _ => failsLocally_ok _
  · rw [run_map, result_inActive]
    cases session.activeDatabase with
    | error error => rfl
    | ok active =>
      change (change.run active.2).2.map f = (do pure (f (← (change.run active.2).2)))
      cases (change.run active.2).2 <;> rfl

theorem comesFromActive_table {name : String} {next : Table → Except Error Outcome}
    (hnext : ∀ table, FailsLocally (next table)) (session : Session) :
    session.ComesFromActive (session.table name >>= next) := by
  refine ⟨fun active => active.2.table name >>= next, ?_, ?_⟩
  · exact fun active => (active.2.failsLocally_table name).bind hnext
  · unfold Session.table
    cases session.activeDatabase <;> rfl

theorem comesFromActive_of_isAboutTables {statement : Statement}
    (habout : statement.isAboutTables = true) (session : Session) :
    session.ComesFromActive (session.executeStatement statement).2 := by
  cases statement with
  | createDatabase | dropDatabase | useDatabase | showDatabases => cases habout
  | showTables =>
    refine ⟨fun active => do
      if active.2.tables.isEmpty then throw .noTables
      pure (listing ("Tables_in_" ++ active.1) active.2.tableNames), ?_, rfl⟩
    intro active
    dsimp only
    split
    · exact failsLocally_error rfl
    · exact failsLocally_ok _
  | createTable name columns =>
    exact comesFromActive_inActive (Database.failsLocally_createTable name columns)
      (fun _ => .affected 0) session
  | dropTable name =>
    exact comesFromActive_inActive (Database.failsLocally_dropTable name) (fun _ => .affected 0) session
  | describe name => exact comesFromActive_table (fun _ => failsLocally_ok _) session
  | insert name columns tuples =>
    exact comesFromActive_inActive
      (Database.failsLocally_inTable (Table.failsLocally_insert columns tuples) name) _ session
  | select projection name clause =>
    exact comesFromActive_table (fun table =>
      (table.failsLocally_select projection clause).bind fun _ => failsLocally_ok _) session
  | update name assignments clause =>
    exact comesFromActive_inActive
      (Database.failsLocally_inTable (Table.failsLocally_updateWhere assignments clause) name) _ session
  | delete name clause =>
    exact comesFromActive_inActive
      (Database.failsLocally_inTable (Table.failsLocally_deleteWhere clause) name) _ session

/-- The result does not blame the database in use for being unknown, and it says that none is in use
    exactly if none is. -/
def FindsDatabase (session : Session) (result : Except Error Outcome) : Prop :=
  (∀ error, result = .error error → error.code ≠ "UNKNOWN_DB") ∧
    ((∃ error, result = .error error ∧ error.code = "NO_DB_SELECTED") ↔ session.active = none)

theorem code_ne_of_isLocal {error : Error} (hlocal : error.isLocal = true) :
    error.code ≠ "UNKNOWN_DB" ∧ error.code ≠ "NO_DB_SELECTED" := by
  cases error <;> simp_all [Error.isLocal, Error.code]

theorem ComesFromActive.findsDatabase {session : Session} {result : Except Error Outcome}
    (hcomes : session.ComesFromActive result) (huses : session.UsesExisting) :
    session.FindsDatabase result := by
  obtain ⟨rest, hlocal, rfl⟩ := hcomes
  cases hactive : session.active with
  | none =>
    rw [activeDatabase_of_none hactive]
    refine ⟨?_, fun _ => hactive, fun _ => ⟨_, rfl, rfl⟩⟩
    intro error herror
    obtain rfl : Error.noDatabaseSelected = error := Except.error.inj herror
    decide
  | some name =>
    obtain ⟨database, hopen⟩ := huses.exists_activeDatabase hactive
    rw [hopen]
    have hcode (error : Error) (herror : rest (name, database) = .error error) :=
      code_ne_of_isLocal (hlocal _ error herror)
    refine ⟨fun error herror => (hcode error herror).1, ?_, ?_⟩
    · rintro ⟨error, herror, hselected⟩
      exact absurd hselected (hcode error herror).2
    · intro hnone
      rw [hactive] at hnone
      cases hnone

/-- The database in use is in the catalog, and the catalog does not get lost. Statements about tables,
    given as such or as text, never miss the database in use, and fail for want of one exactly if none is
    in use. -/
theorem Reachable.database_in_use_exists {session : Session} (hreachable : session.Reachable) :
    (∀ name, session.active = some name →
        ∃ catalog, session.catalog = some catalog ∧ name ∈ catalog.databaseNames) ∧
      (∀ calls, session.catalog.isSome = true → (session.run calls).catalog.isSome = true) ∧
      (∀ statement, statement.isAboutTables = true →
        session.FindsDatabase (session.executeStatement statement).2) ∧
      ∀ text statement, Statement.parse text = .ok statement → statement.isAboutTables = true →
        session.FindsDatabase (session.execute text).2 := by
  have huses := hreachable.usesExisting
  refine ⟨huses, fun calls hsome => isSome_catalog_run hsome calls, ?_, ?_⟩
  · intro statement habout
    exact (comesFromActive_of_isAboutTables habout session).findsDatabase huses
  · intro text statement hparse habout
    have hlogged : (session.record text).UsesExisting := huses
    have hfinds := (comesFromActive_of_isAboutTables habout (session.record text)).findsDatabase hlogged
    unfold execute
    rw [hparse]
    exact hfinds

/-- A session in which the database in use is dropped and another one takes its name. -/
def recreated : Session :=
  (fresh .standard).run [
    .executeStatement (.createDatabase "shop"),
    .executeStatement (.useDatabase "shop"),
    .executeStatement (.dropDatabase "shop"),
    .executeStatement (.createDatabase "shop")]

/-- The new database is not in use, although it bears the name. -/
theorem database_in_use_exists_recreated :
    recreated.catalog.map Catalog.databaseNames = some ["shop"] ∧
      (∃ error, (recreated.executeStatement .showTables).2 = .error error ∧
        error.code = "NO_DB_SELECTED") ∧
      (recreated.run [.executeStatement (.dropDatabase "shop")]).catalog.isSome = true := by
  have hreachable : recreated.Reachable :=
    Reachable.run (.start (show start .standard = .ok (fresh .standard) from rfl)) _
  obtain ⟨-, hcatalog, hfinds, -⟩ := hreachable.database_in_use_exists
  exact ⟨rfl, (hfinds .showTables rfl).2.2 rfl, hcatalog _ rfl⟩

end Session

end TableEngine
