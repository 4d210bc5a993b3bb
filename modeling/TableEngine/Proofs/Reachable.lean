import TableEngine.Proofs.Import

/-!
The sessions that can come about: a session is started and then called any number of times, and goes
on after a failed call like after any other. Every call keeps the form of stored data
(`Session.wellFormed_after`), and so do all of them together (`Session.Reachable.wellFormed`).
-/

namespace TableEngine

/-- What holds of a table that is kept under a name, whatever has happened to it before. -/
structure Table.Intact (table : Table) (name : String) : Prop where
  name_eq : table.name = name
  columns_ne_nil : table.schema.columns ≠ []
  nodup_names : table.schema.names.Nodup
  position_eq : ∀ (place : Nat) (column : Column),
    table.schema.columns[place]? = some column → column.position = place
  find?_eq_some_iff : ∀ name column, table.schema.find? name = some column ↔
    column ∈ table.schema.columns ∧ column.name = name
  contains_iff : ∀ name, table.schema.contains name = true ↔ name ∈ table.schema.names
  one_le_size : ∀ column ∈ table.schema.columns, ∀ size, column.type.size = some size → 1 ≤ size
  columns_eq : ∀ row ∈ table.rows, row.columns = table.schema.names
  admits : ∀ row ∈ table.rows, ∀ cell ∈ row.toList,
    ∃ column ∈ table.schema.columns, column.name = cell.1 ∧ column.type.Admits cell.2

theorem Row.Fits.admits_cell {row : Row} {schema : Schema} (hfits : row.Fits schema)
    {cell : String × Value} (hcell : cell ∈ row.toList) :
    ∃ column ∈ schema.columns, column.name = cell.1 ∧ column.type.Admits cell.2 := by
  have hname : cell.1 ∈ schema.names := hfits.columns_eq ▸ List.mem_map_of_mem hcell
  obtain ⟨column, hcolumn, hcolumnName⟩ := List.mem_map.1 hname
  have hget : row.cells.get? cell.1 = some cell.2 := OrderedMap.get?_eq_some_iff.2 hcell
  have hadmits := hfits.admits column hcolumn
  rw [hcolumnName, Row.get, hget] at hadmits
  exact ⟨column, hcolumn, hcolumnName, hadmits⟩

theorem Table.StoredAs.intact {name : String} {table : Table} (hstored : table.StoredAs name) :
    table.Intact name := by
  obtain ⟨hname, hwell⟩ := hstored
  constructor
  · exact hname
  · exact hwell.columns_ne_nil
  · exact table.schema.nodup_names
  · exact fun place column => Schema.position_of_getElem?
  · exact fun name column => Schema.find?_eq_some_iff
  · exact fun name => Schema.contains_iff
  · exact hwell.proper
  · exact fun row hrow => (hwell.fits row hrow).columns_eq
  · exact fun row hrow cell hcell => (hwell.fits row hrow).admits_cell hcell

namespace Session

/-- The calls that can change a session. -/
inductive Call where
  | execute (text : String)
  | executeScript (script : String)
  | executeStatement (statement : Statement)
  | importJson (dump : String)

/-- The session after a call, whether or not the call fails. -/
def after (session : Session) : Call → Session
  | .execute text => (session.execute text).1
  | .executeScript script => (session.executeScript script).1
  | .executeStatement statement => (session.executeStatement statement).1
  | .importJson dump => (session.importJson dump).1

/-- A session that has been started and then called any number of times. -/
inductive Reachable : Session → Prop where
  | start {config : SessionConfig} {session : Session} (hstart : start config = .ok session) :
      Reachable session
  | call {session : Session} (hreachable : Reachable session) (call : Call) :
      Reachable (session.after call)

/-- The session after some calls, one after the other. -/
def run (session : Session) (calls : List Call) : Session :=
  calls.foldl after session

theorem Reachable.run {session : Session} (hreachable : session.Reachable) (calls : List Call) :
    (session.run calls).Reachable := by
  induction calls generalizing session with
  | nil => exact hreachable
  | cons call calls ih => exact ih (hreachable.call call)

/-! What single steps keep, calls keep. -/

section

variable {P : Session → Prop} (hrecord : ∀ session text, P session → P (session.record text))
  (hperform : ∀ statement, (perform statement).Keeps P)

include hrecord hperform

theorem keeps_execute {session : Session} (hsession : P session) (text : String) :
    P (session.execute text).1 := by
  have hlogged := hrecord session text hsession
  unfold execute
  dsimp only
  split
  · exact hperform _ hlogged
  · exact hlogged

theorem keeps_executeAll {session : Session} (hsession : P session) (texts : List String) :
    P (session.executeAll texts).1 := by
  induction texts generalizing session with
  | nil => exact hsession
  | cons text texts ih => exact ih (keeps_execute hrecord hperform hsession text)

theorem keeps_after (himport : ∀ dump, (importCatalog dump).Keeps P) {session : Session}
    (hsession : P session) (call : Call) : P (session.after call) := by
  cases call with
  | execute text => exact keeps_execute hrecord hperform hsession text
  | executeScript script => exact keeps_executeAll hrecord hperform hsession _
  | executeStatement statement => exact hperform statement hsession
  | importJson dump => exact himport dump hsession

end

theorem wellFormed_fresh (config : SessionConfig) : (fresh config).WellFormed := by
  intro catalog hcatalog
  unfold fresh at hcatalog
  cases hcreate : config.createStorage with
  | false => simp [hcreate] at hcatalog
  | true =>
    obtain rfl : Catalog.empty = catalog := by simpa [hcreate] using hcatalog
    exact Catalog.wellFormed_empty

theorem wellFormed_start {config : SessionConfig} {session : Session}
    (hstart : start config = .ok session) : session.WellFormed := by
  rcases start_eq_ok_iff.1 hstart with ⟨-, rfl⟩ | ⟨name, -, -, hname, rfl⟩
  · exact wellFormed_fresh config
  · rintro catalog hcatalog entry hentry
    obtain rfl := Option.some.inj hcatalog
    obtain rfl := List.mem_singleton.1 hentry
    exact ⟨hname, Database.wellFormed_empty⟩

theorem keeps_importCatalog (dump : String) : (importCatalog dump).Keeps WellFormed := by
  refine (atomic_importCatalog dump).keeps ?_
  intro before after u _ hrun
  obtain ⟨catalog, hread, rfl⟩ := run_importCatalog_eq_ok_iff.1 hrun
  intro imported himported
  obtain rfl : catalog = imported := Option.some.inj himported
  exact Catalog.wellFormed_of_ofJson hread

/-- A single call keeps the form of stored data. -/
theorem wellFormed_after {session : Session} (hwell : session.WellFormed) (call : Call) :
    (session.after call).WellFormed :=
  keeps_after (fun _ _ hwell => hwell) keeps_perform keeps_importCatalog hwell call

theorem Reachable.wellFormed {session : Session} (hreachable : session.Reachable) :
    session.WellFormed := by
  induction hreachable with
  | start hstart => exact wellFormed_start hstart
  | call _ call ih => exact wellFormed_after ih call

/-- In every session that can come about, every table bears the name that it is kept under, its schema
    has columns whose look-up is right, and each row has exactly these columns with values that they
    can hold. -/
theorem Reachable.tables_intact {session : Session} (hreachable : session.Reachable)
    {catalog : Catalog} (hcatalog : session.catalog = some catalog)
    {databaseName : String} {database : Database}
    (hdatabase : (databaseName, database) ∈ catalog.databases.entries)
    {name : String} {table : Table} (htable : (name, table) ∈ database.tables.entries) :
    table.Intact name := by
  have hwell := (hreachable.wellFormed catalog hcatalog (databaseName, database) hdatabase).2
  exact (hwell (name, table) htable).intact

/-- A session with a table. One of its texts was cut down to the size of the column, another one cannot
    be written in quotes as it is. -/
def stocked : Session :=
  (fresh .standard).run [
    .executeStatement (.createDatabase "shop"),
    .executeStatement (.useDatabase "shop"),
    .executeStatement (.createTable "stock" [⟨"id", "INT"⟩, ⟨"label", "VARCHAR(3)"⟩]),
    .executeStatement (.insert "stock" none
      [[.integer 7, .text "crates"], [.integer (-1), .text "\"\n"]])]

theorem reachable_stocked : stocked.Reachable := by
  have hstart : start .standard = .ok (fresh .standard) := rfl
  exact (Reachable.start hstart).run _

theorem tables_intact_stocked :
    ∃ table : Table, table.rows.map Row.toList =
        [[("id", .integer 7), ("label", .text "cra")],
          [("id", .integer (-1)), ("label", .text "\"\n")]] ∧
      table.Intact "stock" := by
  let schema : Schema := {
    columns := [⟨"id", ⟨.int, none⟩, 0⟩, ⟨"label", ⟨.varchar, some 3⟩, 1⟩]
    index := .ofList [("id", 0), ("label", 1)]
    index_entries := rfl
    positions := rfl }
  let table : Table := ⟨"stock", schema, [
    .ofList [("id", .integer 7), ("label", .text "cra")],
    .ofList [("id", .integer (-1)), ("label", .text "\"\n")]]⟩
  let database : Database := ⟨.ofList [("stock", table)]⟩
  have hcatalog : stocked.catalog = some ⟨.ofList [("shop", database)]⟩ := rfl
  exact ⟨table, rfl, reachable_stocked.tables_intact hcatalog (List.mem_singleton.2 rfl)
    (List.mem_singleton.2 rfl)⟩

end Session

end TableEngine
