import Mathlib.Data.List.Flatten
import TableEngine.Proofs.Effects

/-!
The names in a catalog: those of databases, tables and columns. No statement brings a name that is not
valid (`Session.bringsValid_perform`). A dump may bring one for a table or a column, since only its databases
are checked, so that all names are valid at all times exactly if they are in the dumps that are imported
(`Session.names_valid_iff`).
-/

namespace TableEngine

open Mutation OrderedMap

namespace Database

/-- The names of the tables and of their columns. -/
def names (database : Database) : List String :=
  database.tables.entries.flatMap fun entry => entry.1 :: entry.2.schema.names

end Database

namespace Catalog

/-- The names of the databases, of their tables and of the columns of these. -/
def names (catalog : Catalog) : List String :=
  catalog.databases.entries.flatMap fun entry => entry.1 :: entry.2.names

end Catalog

/-- The names in the catalog of a session, if it has one. -/
def Session.names (session : Session) : List String :=
  session.catalog.elim [] Catalog.names

/-- Every name that is there afterwards has been there before or is valid. -/
def BringsValid (before after : List String) : Prop :=
  ∀ name ∈ after, isValidName name = true ∨ name ∈ before

theorem bringsValid_of_subset {before after : List String} (hsubset : after ⊆ before) :
    BringsValid before after :=
  fun _ hname => .inr (hsubset hname)

/-! What changes of maps make of names. -/

section

variable {α : Type} {names : String × α → List String} {before after : OrderedMap α}

theorem OrderedMap.Appended.flatMap_eq {key : String} {value : α}
    (happended : Appended key value before after) :
    after.entries.flatMap names = before.entries.flatMap names ++ names (key, value) := by
  rw [happended, List.flatMap_append, List.flatMap_singleton]

theorem OrderedMap.Removed.flatMap_subset {key : String} {value : α}
    (hremoved : Removed key value before after) :
    after.entries.flatMap names ⊆ before.entries.flatMap names := by
  obtain ⟨front, back, hbefore, hafter⟩ := hremoved
  have hsublist : (front ++ back).Sublist (front ++ (key, value) :: back) :=
    (List.sublist_cons_self _ _).append_left front
  rw [hbefore, hafter]
  exact (hsublist.flatMap names).subset

theorem OrderedMap.Replaced.bringsValid {key : String} {old new : α}
    (hreplaced : Replaced key old new before after)
    (hbrings : BringsValid (names (key, old)) (names (key, new))) :
    BringsValid (before.entries.flatMap names) (after.entries.flatMap names) := by
  obtain ⟨front, back, hbefore, hafter⟩ := hreplaced
  rw [hbefore, hafter, List.flatMap_append, List.flatMap_append, List.flatMap_cons, List.flatMap_cons]
  intro name hname
  simp only [List.mem_append] at hname ⊢
  rcases hname with hfront | hnew | hback
  · exact .inr (.inl hfront)
  · exact (hbrings name hnew).imp_right fun hold => .inr (.inl hold)
  · exact .inr (.inr (.inr hback))

end

/-! What statements do. -/

namespace Database

/-- The columns of a new table are the declared ones that are usable, and these have valid names. -/
theorem bringsValid_of_createTable {before after : Database} {name : String}
    {specs : List ColumnSpec} {u : Unit}
    (hrun : (createTable name specs).run before = (after, .ok u)) :
    BringsValid before.names after.names := by
  obtain ⟨hname, hnew, schema, hschema, -, rfl⟩ := run_createTable_eq_ok_iff.1 hrun
  have happended : Appended name (Table.new name schema) before.tables _ :=
    appended_iff.2 ⟨hnew, rfl⟩
  have hcolumns : ∀ column ∈ schema.names, isValidName column = true := by
    intro column hcolumn
    rw [← Schema.map_fst_pairs, Schema.pairs_of_ofColumns hschema] at hcolumn
    obtain ⟨pair, hpair, rfl⟩ := List.mem_map.1 hcolumn
    exact (of_mem_usableColumns hpair).1
  intro other hother
  rw [Database.names, happended.flatMap_eq, List.mem_append] at hother
  rcases hother with hold | hadded
  · exact .inr hold
  · rcases List.mem_cons.1 hadded with rfl | hcolumn
    · exact .inl hname
    · exact .inl (hcolumns other hcolumn)

theorem RemovesTable.bringsValid {name : String} {before after : Database}
    (hremoves : RemovesTable name before after) : BringsValid before.names after.names := by
  obtain ⟨table, hremoved⟩ := hremoves
  exact bringsValid_of_subset hremoved.flatMap_subset

theorem ChangesRows.bringsValid {name : String} {before after : Database}
    (hchanges : ChangesRows name before after) : BringsValid before.names after.names := by
  obtain ⟨table, rows, hreplaced⟩ := hchanges
  exact hreplaced.bringsValid (bringsValid_of_subset fun _ hname => hname)

end Database

namespace Session

theorem names_eq_of_catalog_eq {before after : Session} (hcatalog : after.catalog = before.catalog) :
    after.names = before.names := by
  rw [names, names, hcatalog]

theorem ChangesActive.bringsValid {Changes : Database → Database → Prop} {before after : Session}
    (hchanges : ChangesActive Changes before after)
    (hbrings : ∀ {old new}, Changes old new → BringsValid old.names new.names) :
    BringsValid before.names after.names := by
  obtain ⟨-, name, catalog, changed, -, hcatalog, hchanged, old, new, hreplaced, hchange⟩ := hchanges
  rw [names, names, hcatalog, hchanged]
  refine hreplaced.bringsValid ?_
  intro other hother
  rcases List.mem_cons.1 hother with rfl | hinner
  · exact .inr List.mem_cons_self
  · exact (hbrings hchange other hinner).imp_right (List.mem_cons_of_mem name)

/-- No statement brings a name that is not valid. -/
theorem bringsValid_perform {before after : Session} {statement : Statement} {outcome : Outcome}
    (hrun : (perform statement).run before = (after, .ok outcome)) :
    BringsValid before.names after.names := by
  have htarget := changesOnlyTarget_of_perform hrun
  cases statement with
  | createDatabase name =>
    obtain ⟨catalog, hcatalog, hname, hnew, rfl, -⟩ := run_createDatabase_eq_ok_iff.1 hrun
    have happended : Appended name .empty catalog.databases _ := appended_iff.2 ⟨hnew, rfl⟩
    intro other hother
    rw [names, hcatalog]
    rw [names, Option.elim_some, Catalog.names, happended.flatMap_eq, List.mem_append] at hother
    refine hother.symm.imp_left fun hadded => ?_
    rw [List.mem_singleton.1 hadded]
    exact hname
  | dropDatabase name =>
    obtain ⟨-, catalog, changed, database, hcatalog, hchanged, hremoved⟩ := htarget
    rw [names, names, hcatalog, hchanged]
    exact bringsValid_of_subset hremoved.flatMap_subset
  | createTable name columns =>
    obtain ⟨middle, u, hcreate, heq⟩ := run_bind_eq_ok_iff.1 hrun
    obtain rfl : middle = after := (Prod.mk.inj heq).1
    exact (changesActive_of_inActive Database.bringsValid_of_createTable hcreate).bringsValid id
  | dropTable name =>
    exact ChangesActive.bringsValid htarget Database.RemovesTable.bringsValid
  | insert | update | delete =>
    exact ChangesActive.bringsValid htarget Database.ChangesRows.bringsValid
  | useDatabase =>
    rw [names_eq_of_catalog_eq htarget.2.1]
    exact bringsValid_of_subset (List.Subset.refl _)
  | showDatabases | showTables | describe | select =>
    rw [names_eq_of_catalog_eq htarget.2]
    exact bringsValid_of_subset (List.Subset.refl _)

theorem names_importJson {session : Session} {dump : String} {source : Catalog}
    (hdump : Catalog.ofJson dump = .ok source) : (session.importJson dump).1.names = source.names := by
  have hrun : session.importJson dump = ({ session with catalog := some source, active := none }, .ok ()) :=
    run_importCatalog_eq_ok_iff.2 ⟨source, hdump, rfl⟩
  rw [hrun]
  rfl

/-! What calls do. A property that all valid names have, and all names that are imported, is kept. -/

/-- All names in the session have a property. -/
def AllNames (P : String → Prop) (session : Session) : Prop :=
  ∀ name ∈ session.names, P name

section

variable {P : String → Prop} (hvalid : ∀ name, isValidName name = true → P name)

include hvalid

theorem keeps_allNames_perform (statement : Statement) : (perform statement).Keeps (AllNames P) := by
  refine (atomic_perform statement).keeps ?_
  intro before after outcome hbefore hrun name hname
  rcases bringsValid_perform hrun name hname with hlegal | hold
  · exact hvalid name hlegal
  · exact hbefore name hold

theorem allNames_start {config : SessionConfig} {session : Session}
    (hstart : start config = .ok session) : session.AllNames P := by
  rcases start_eq_ok_iff.1 hstart with ⟨-, rfl⟩ | ⟨created, -, -, hcreated, rfl⟩
  · have hnone : (fresh config).names = [] := by
      unfold names fresh
      cases config.createStorage <;> rfl
    intro name hname
    rw [hnone] at hname
    cases hname
  · intro name hname
    obtain rfl : name = created := List.mem_singleton.1 hname
    exact hvalid name hcreated

theorem allNames_after {session : Session} (hsession : session.AllNames P) {call : Call}
    (himports : ∀ dump source, call = .importJson dump → Catalog.ofJson dump = .ok source →
      ∀ name ∈ source.names, P name) : (session.after call).AllNames P := by
  have hrecord : ∀ (session : Session) text, session.AllNames P → (session.record text).AllNames P :=
    fun _ _ hsession => hsession
  have hperform := keeps_allNames_perform hvalid
  cases call with
  | execute text => exact keeps_execute hrecord hperform hsession text
  | executeScript script => exact keeps_executeAll hrecord hperform hsession _
  | executeStatement statement => exact hperform statement hsession
  | importJson dump =>
    cases hdump : Catalog.ofJson dump with
    | error error =>
      have hsame : session.after (.importJson dump) = session := by
        simp [after, importJson, importCatalog, run_bind, hdump]
      rwa [hsame]
    | ok source =>
      intro name hname
      rw [after, names_importJson hdump] at hname
      exact himports dump source rfl hdump name hname

theorem allNames_run {session : Session} (hsession : session.AllNames P) {calls : List Call}
    (himports : ∀ dump source, .importJson dump ∈ calls → Catalog.ofJson dump = .ok source →
      ∀ name ∈ source.names, P name) : (session.run calls).AllNames P := by
  induction calls generalizing session with
  | nil => exact hsession
  | cons call calls ih =>
    refine ih (allNames_after hvalid hsession ?_) ?_
    · rintro dump source rfl
      exact himports dump source List.mem_cons_self
    · exact fun dump source hmem => himports dump source (List.mem_cons_of_mem _ hmem)

end

/-- Whatever calls a session receives, its databases have valid names, and a name of a table or a column
    that is not valid has come with a dump. All names are valid at all times exactly if all names in the
    dumps that are imported are. -/
theorem names_valid_iff {config : SessionConfig} {session : Session}
    (hstart : start config = .ok session) (calls : List Call) :
    (∀ catalog, (session.run calls).catalog = some catalog →
        ∀ name ∈ catalog.databaseNames, isValidName name = true) ∧
      (∀ name ∈ (session.run calls).names, isValidName name = true ∨
        ∃ dump source, .importJson dump ∈ calls ∧ Catalog.ofJson dump = .ok source ∧
          name ∈ source.names) ∧
      ((∀ front, front <+: calls → ∀ name ∈ (session.run front).names, isValidName name = true) ↔
        ∀ dump source, .importJson dump ∈ calls → Catalog.ofJson dump = .ok source →
          ∀ name ∈ source.names, isValidName name = true) := by
  refine ⟨?_, ?_, ?_, ?_⟩
  · intro catalog hcatalog name hname
    obtain ⟨entry, hentry, rfl⟩ := List.mem_map.1 hname
    exact (((Reachable.start hstart).run calls).wellFormed catalog hcatalog entry hentry).1
  · refine allNames_run (fun _ => .inl) (allNames_start (fun _ => .inl) hstart) ?_
    exact fun dump source hmem hdump name hname => .inr ⟨dump, source, hmem, hdump, hname⟩
  · intro hlegal dump source hmem hdump
    obtain ⟨front, back, rfl⟩ := List.append_of_mem hmem
    have himported := hlegal (front ++ [.importJson dump]) ⟨back, by simp⟩
    rwa [run, List.foldl_append, List.foldl_cons, List.foldl_nil, after, names_importJson hdump]
      at himported
  · intro himports front hfront
    refine allNames_run (fun _ => id) (allNames_start (fun _ => id) hstart) ?_
    exact fun dump source hmem => himports dump source (hfront.subset hmem)

/-- A dump of a database with a table, in which the names of the table and of its column are not valid. -/
def misnamed : String :=
  "\x7b\"shop\": \x7b\"my table\": \x7b\"_cols\": [\"a-b\"], \"_defs\": \x7b\"a-b\": \"INT\"\x7d\x7d\x7d\x7d"

def misnamedCatalog : Catalog :=
  let schema : Schema := {
    columns := [⟨"a-b", ⟨.int, none⟩, 0⟩]
    index := .ofList [("a-b", 0)]
    index_entries := rfl
    positions := rfl }
  ⟨.ofList [("shop", ⟨.ofList [("my table", .new "my table" schema)]⟩)]⟩

theorem ofJson_misnamed : Catalog.ofJson misnamed = .ok misnamedCatalog := by
  decide +kernel

/-- What has been created before the import has valid names, and is gone afterwards. -/
theorem names_valid_misnamed :
    ∃ session, start .standard = .ok session ∧
      (∀ name ∈ (session.run [.execute "CREATE DATABASE shop", .execute "CREATE DATABASE a-b"]).names,
        isValidName name = true) ∧
      ¬∀ front, front <+: [.execute "CREATE DATABASE shop", .importJson misnamed] →
        ∀ name ∈ (session.run front).names, isValidName name = true := by
  have hstart : start .standard = .ok _ := rfl
  obtain ⟨-, -, hstatements⟩ :=
    names_valid_iff hstart [.execute "CREATE DATABASE shop", .execute "CREATE DATABASE a-b"]
  obtain ⟨-, -, himport⟩ :=
    names_valid_iff hstart [.execute "CREATE DATABASE shop", .importJson misnamed]
  refine ⟨_, hstart, hstatements.2 (by simp) _ (List.prefix_refl _), fun hlegal => ?_⟩
  have hnames := himport.1 hlegal misnamed _ (by simp) ofJson_misnamed
  exact absurd (hnames "my table" (by decide)) (by decide)

/-- A fresh session that imports the dump has a table, and the table a column, with a name that is not
    valid. -/
theorem names_not_valid_misnamed :
    ∃ session, start .standard = .ok session ∧
      (session.importJson misnamed).2 = .ok () ∧
      (session.importJson misnamed).1.names = ["shop", "my table", "a-b"] ∧
      isValidName "my table" = false ∧ isValidName "a-b" = false := by
  have hrun : (fresh .standard).importJson misnamed = (_, .ok ()) :=
    run_importCatalog_eq_ok_iff.2 ⟨misnamedCatalog, ofJson_misnamed, rfl⟩
  refine ⟨fresh .standard, rfl, congrArg Prod.snd hrun, ?_, by decide, by decide⟩
  rw [names_importJson ofJson_misnamed]
  rfl

end Session

end TableEngine
