import TableEngine.Proofs.Reachable
import TableEngine.Proofs.TableImport
import TableEngine.Proofs.TypeText

/-!
A catalog is read back from its dump (`Catalog.ofJson_toJson`). Readers and writers are no mirror images
of each other: types go through their written form, cells are brought into the stored form again, and
tables lose their names and get them back from the members of the dump. That nothing is lost rests on
the form of stored data.
-/

namespace TableEngine

open Json.Reader

namespace Row

theorem ofList_toList (row : Row) : ofList row.toList = row :=
  congrArg Row.mk row.cells.ofList_entries

theorem reads_reader (row : Row) : reader.Reads row.json row := by
  have hread := reads_jsonOf row.toList
  rwa [ofList_toList] at hread

end Row

namespace TableDump

/-- The definitions that are written are read as the types that they are written for. -/
theorem typesOf_display {types : OrderedMap ColumnType} (htypes : ProperTypes types) :
    typesOf (types.entries.map fun (column, type) => (column, type.display)) = .ok types := by
  have hentry : ∀ entry ∈ types.entries,
      named typeOf (entry.1, entry.2.display) = .ok (id entry) := by
    intro entry hentry
    rw [named, typeOf, ColumnType.parse?_display (htypes entry hentry)]
    rfl
  have hmap : (types.entries.map fun (column, type) => (column, type.display)).mapM (named typeOf) =
      .ok types.entries := by
    rw [mapM_eq_ok_iff, List.map_map]
    exact List.map_congr_left hentry
  rw [typesOf, hmap]
  exact congrArg Except.ok types.ofList_entries

/-- The members that a dump is written as. -/
def members (dump : TableDump) : List Member := [
  .columns dump.columns,
  .definitions (dump.types.entries.map fun (column, type) => (column, type.display)),
  .records (dump.records.map Row.toList)]

theorem json_members (dump : TableDump) : Json.object (dump.members.map Member.json) = dump.json := by
  simp only [members, List.map_cons, List.map_nil, Member.json, List.map_map]
  rfl

theorem describes_members (dump : TableDump) :
    Describes dump.members dump.columns
      (dump.types.entries.map fun (column, type) => (column, type.display))
      (some (dump.records.map Row.toList)) :=
  ⟨rfl, rfl, rfl, by simp [members, Member.IsProper]⟩

theorem reads_reader {dump : TableDump} (htypes : ProperTypes dump.types) :
    reader.Reads dump.json dump := by
  have hdescribes := dump.describes_members
  have hrecords : (dump.records.map Row.toList).map Row.ofList = dump.records := by
    rw [List.map_map]
    exact (List.map_congr_left fun row _ => row.ofList_toList).trans (List.map_id _)
  have hdump : ofMembers dump.members = .ok dump :=
    (ofMembers_eq_ok_iff hdescribes).2 ⟨dump.types, typesOf_display htypes, by simp [hrecords]⟩
  have hmakes := makes_reader hdescribes.proper
  rwa [json_members, hdump] at hmakes

end TableDump

namespace Table

/-- A column keeps what a row holds in it, as that has the stored form. -/
theorem recorded_of_fits {row : Row} {schema : Schema} (hfits : row.Fits schema) {column : Column}
    (hcolumn : column ∈ schema.columns) : column.recorded row.toList = row.get column.name := by
  have hget : OrderedMap.lastFor? row.toList column.name = row.cells.get? column.name := by
    rw [← OrderedMap.get?_ofList]
    exact congrArg (OrderedMap.get? · column.name) row.cells.ofList_entries
  have hadmits := hfits.admits column hcolumn
  unfold Column.recorded Row.get at *
  rw [hget]
  cases hvalue : row.cells.get? column.name with
  | none => rfl
  | some value =>
    rw [hvalue] at hadmits
    exact ColumnType.coerce_of_admits hadmits

/-- A row is made again from its cells. -/
theorem store_cells {row : Row} {table : Table} (hfits : row.Fits table.schema) :
    store table.emptyRow (TableDump.cells table.schema row) = row := by
  have hstored := TableDump.toList_store_cells table row.toList
  rw [row.ofList_toList] at hstored
  have hcells : (store table.emptyRow (TableDump.cells table.schema row)).toList = row.toList := by
    calc (store table.emptyRow (TableDump.cells table.schema row)).toList
        = table.schema.columns.map fun column => (column.name, column.recorded row.toList) := hstored
      _ = table.schema.columns.map fun column => (column.name, row.get column.name) :=
          List.map_congr_left fun column hcolumn => by rw [recorded_of_fits hfits hcolumn]
      _ = row.columns.map fun name => (name, row.get name) := by
          rw [hfits.columns_eq, Schema.names, List.map_map]
          rfl
      _ = row.toList := row.map_get_columns
  rw [← Row.ofList_toList (store _ _), hcells, row.ofList_toList]

theorem entries_types_dump (table : Table) : table.dump.types.entries = table.schema.pairs :=
  OrderedMap.entries_ofList table.schema.nodup_pairs

theorem schema_dump {table : Table} (hwell : table.WellFormed) :
    table.dump.schema = .ok table.schema := by
  apply TableDump.schema_eq_ok_iff.2
  refine ⟨?_, rfl, ?_⟩
  · intro hempty
    exact hwell.columns_ne_nil (List.map_eq_nil_iff.1 hempty)
  · intro column hcolumn
    rw [OrderedMap.get?_eq_some_iff, entries_types_dump]
    exact Schema.mem_pairs_of_mem hcolumn

/-- A table is described by what its dump says, but for the name. -/
theorem ofDump_dump {table : Table} (hwell : table.WellFormed) (name : String) :
    ofDump name table.dump = .ok { table with name } := by
  apply ofDump_eq_ok_iff.2
  refine ⟨table.schema, schema_dump hwell, ?_⟩
  have hrows : (table.rows.map fun record =>
      store (new name table.schema).emptyRow (TableDump.cells table.schema record)) = table.rows := by
    rw [List.map_congr_left (g := id), List.map_id]
    intro row hrow
    have hfits : row.Fits (new name table.schema).schema := hwell.fits row hrow
    exact store_cells hfits
  rw [show table.dump.records = table.rows from rfl, hrows]

theorem properTypes_dump {table : Table} (hwell : table.WellFormed) :
    TableDump.ProperTypes table.dump.types := by
  intro entry hentry
  rw [entries_types_dump] at hentry
  obtain ⟨column, hcolumn, rfl⟩ := List.mem_map.1 hentry
  exact hwell.proper column hcolumn

theorem reads_reader {table : Table} (hwell : table.WellFormed) :
    reader.Reads table.dump.json { table with name := "" } := by
  have hdump := TableDump.reads_reader (properTypes_dump hwell)
  intro rest
  rw [reader, run_bind, hdump rest]
  simp only [ofDump_dump hwell, run_pure]

end Table

/-- The names that tables lose in a dump are those of its members. -/
theorem Database.reads_reader {database : Database} (hwell : database.WellFormed) :
    reader.Reads database.json database := by
  have hread : ∀ entry ∈ database.tables.entries,
      Table.reader.Reads entry.2.dump.json { entry.2 with name := "" } :=
    fun entry hentry => Table.reads_reader (hwell entry hentry).2
  have hmap := reads_map (fun table : Table => table.dump.json)
    (fun table => { table with name := "" }) hread
  have hnames : ((database.tables.mapValues fun _ table => { table with name := "" }).mapValues
      fun name table => { table with name }) = database.tables := by
    have hentries : (database.tables.mapValues fun name table => { table with name }) =
        database.tables := by
      apply OrderedMap.mapValues_eq_self
      intro entry hentry
      rw [← (hwell entry hentry).1]
    rw [OrderedMap.mapValues_mapValues]
    exact hentries
  have hdatabase := hmap.makes.map fun tables =>
    (⟨tables.mapValues fun name table => { table with name }⟩ : Database)
  rw [Except.map, hnames] at hdatabase
  exact hdatabase

namespace Catalog

theorem reads_reader {catalog : Catalog} (hwell : catalog.WellFormed) :
    reader.Reads catalog.json catalog := by
  have hread : ∀ entry ∈ catalog.databases.entries,
      Database.reader.Reads entry.2.json (id entry.2) :=
    fun entry hentry => Database.reads_reader (hwell entry hentry).2
  have hmap := reads_map Database.json id hread
  rw [OrderedMap.mapValues_eq_self fun _ _ => rfl] at hmap
  exact hmap.makes.map Catalog.mk

end Catalog

/-! What is written can be told apart again. -/

theorem TableDump.readable_json (dump : TableDump) : Json.Readable dump.json := by
  rw [← json_members]
  apply readable_members
  simp [members]

theorem Database.readable_json (database : Database) : Json.Readable database.json := by
  apply Json.readable_object
  intro member hmember
  obtain ⟨⟨_, table⟩, -, rfl⟩ := List.mem_map.1 hmember
  exact table.dump.readable_json

theorem Catalog.readable_json (catalog : Catalog) : Json.Readable catalog.json := by
  apply Json.readable_object
  intro member hmember
  obtain ⟨⟨_, database⟩, -, rfl⟩ := List.mem_map.1 hmember
  exact database.readable_json

/-- A well-formed catalog is what is read from its dump. -/
theorem Catalog.ofJson_toJson {catalog : Catalog} (hwell : catalog.WellFormed) :
    ofJson catalog.toJson = .ok catalog := by
  have htokens : Json.Lexer.readAll catalog.toJson.toList = catalog.json := by
    rw [toJson, String.toList_ofList, Json.readAll_indented catalog.readable_json]
  have hread : reader.readText catalog.toJson.toList = .ok catalog := by
    have hrun := reads_reader hwell []
    rw [List.append_nil] at hrun
    rw [readText, htokens, hrun]
  have hnames : catalog.databaseNames.find? (!isValidName ·) = none := by
    apply List.find?_eq_none.2
    intro name hname
    obtain ⟨entry, hentry, rfl⟩ := List.mem_map.1 hname
    simp [(hwell entry hentry).1]
  rw [ofJson, hread]
  simp only [hnames]

namespace Session

/-- What any session holds is read back from its dump as it is, with everything in its order, and is
    then written as the same text. -/
theorem Reachable.catalog_restored {session : Session} (hreachable : session.Reachable)
    {catalog : Catalog} (hcatalog : session.catalog = some catalog) :
    Catalog.ofJson catalog.toJson = .ok catalog ∧
      (Catalog.ofJson catalog.toJson).map Catalog.toJson = .ok catalog.toJson := by
  have hread := Catalog.ofJson_toJson (hreachable.wellFormed catalog hcatalog)
  exact ⟨hread, by rw [hread]; rfl⟩

theorem catalog_restored_stocked :
    ∃ catalog, stocked.catalog = some catalog ∧ catalog.databaseNames = ["shop"] ∧
      Catalog.ofJson catalog.toJson = .ok catalog ∧
      (Catalog.ofJson catalog.toJson).map Catalog.toJson = .ok catalog.toJson :=
  ⟨_, rfl, rfl, reachable_stocked.catalog_restored rfl⟩

end Session

end TableEngine
