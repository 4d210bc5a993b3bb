import TableEngine.Catalog
import TableEngine.Json.Layout
import TableEngine.Json.Reader

/-!
Dumps: catalogs written as JSON and read back. A dump is an object of databases, a database an object
of tables, and a table an object with its column names (`_cols`), the types of columns (`_defs`) and
its rows (`_data`).

A reader is more generous than the writer: rows may be missing, members with other names are passed
over, a row may lack columns or have more, and every cell is brought into its stored form.
-/

namespace TableEngine

/-- A cell as a JSON value. -/
def Value.json : Value → Json.Token
  | null => .null
  | integer n => .integer n.toInt
  | text s => .text s

namespace Row

/-- A row as a JSON object, in column order. -/
def json (row : Row) : List Json.Token :=
  Json.object (row.toList.map fun (column, value) => (column, [value.json]))

def toJson (row : Row) : String :=
  String.ofList (Json.compact row.json)

/-- Reads a row from a JSON object of cells. -/
def reader : Json.Reader Row := do
  pure ⟨← Json.Reader.map Json.Reader.cell⟩

def ofJson? (text : String) : Option Row :=
  (reader.readText text.toList).toOption

end Row

/-- What a dump says about a table. -/
structure TableDump where
  columns : List String
  types : OrderedMap ColumnType
  records : List Row

namespace TableDump

def json (dump : TableDump) : List Json.Token :=
  Json.object [
    ("_cols", Json.texts dump.columns),
    ("_defs", Json.object (dump.types.entries.map fun (column, type) =>
      (column, [.text type.display]))),
    ("_data", Json.array (dump.records.map Row.json))]

/-- Reads the type of a column from its text. -/
def typeReader : Json.Reader ColumnType := do
  let spec ← Json.Reader.text
  match ColumnType.parse? spec with
  | some type => pure type
  | none => Json.Reader.fail (.invalidColumnType spec)

def columnsReader : Json.Reader (List String) :=
  Json.Reader.array Json.Reader.text

def typesReader : Json.Reader (OrderedMap ColumnType) :=
  Json.Reader.map typeReader

def recordsReader : Json.Reader (List Row) :=
  Json.Reader.array Row.reader

/-- The parts of a dump as far as they have been read. -/
structure Parts where
  columns : Option (List String)
  types : Option (OrderedMap ColumnType)
  records : Option (List Row)

/-- Reads one member of a dump. A part may not be given twice; a member of another name is passed
    over. -/
def memberReader (parts : Parts) (name : String) : Json.Reader Parts :=
  match name, parts with
  | "_cols", ⟨none, types, records⟩ => return ⟨← columnsReader, types, records⟩
  | "_defs", ⟨columns, none, records⟩ => return ⟨columns, ← typesReader, records⟩
  | "_data", ⟨columns, types, none⟩ => return ⟨columns, types, ← recordsReader⟩
  | "_cols", _ => Json.Reader.malformed
  | "_defs", _ => Json.Reader.malformed
  | "_data", _ => Json.Reader.malformed
  | _, parts => do
    Json.Reader.skip
    pure parts

/-- Reads a dump from a JSON object. The rows may be missing. -/
def objectReader : Json.Reader TableDump := do
  match ← Json.Reader.object memberReader ⟨none, none, none⟩ with
  | ⟨some columns, some types, records⟩ => pure ⟨columns, types, records.getD []⟩
  | _ => Json.Reader.malformed

/-- Reads a dump from a JSON array of its parts. The rows may be missing. -/
def arrayReader : Json.Reader TableDump := do
  Json.Reader.expect .openArray
  let columns ← columnsReader
  Json.Reader.expect .comma
  let types ← typesReader
  if ← Json.Reader.accept .closeArray then pure ⟨columns, types, []⟩
  else
    Json.Reader.expect .comma
    let records ← recordsReader
    Json.Reader.expect .closeArray
    pure ⟨columns, types, records⟩

def reader : Json.Reader TableDump := do
  match ← Json.Reader.peek with
  | some .openArray => arrayReader
  | _ => objectReader

/-- Adds a column, with the type that the dump gives it, to the columns before it. -/
def addColumn (types : OrderedMap ColumnType) (schema : Schema) (column : String) :
    Except ImportFault Schema :=
  match types.get? column with
  | none => .error (.untypedColumn column)
  | some type =>
    match schema.add? column type with
    | none => .error (.repeatedColumn column)
    | some schema => .ok schema

/-- The schema that a dump describes. It has a column at least. -/
def schema (dump : TableDump) : Except ImportFault Schema :=
  if dump.columns.isEmpty then .error .noColumns
  else dump.columns.foldlM (addColumn dump.types) .empty

/-- The cells that a record gives for the columns of a schema, in the order of the schema. -/
def cells (schema : Schema) (record : Row) : List (Column × Value) :=
  schema.columns.filterMap fun column =>
    (record.cells.get? column.name).map fun value => (column, value)

end TableDump

namespace Table

/-- What a dump says about the table. -/
def dump (table : Table) : TableDump where
  columns := table.schema.names
  types := .ofList table.schema.pairs
  records := table.rows

/-- The table that a dump describes, under a name. Cells that a record lacks are NULL, and those of
    unknown columns are left out. -/
def ofDump (name : String) (dump : TableDump) : Except ImportFault Table := do
  let schema ← dump.schema
  let table := new name schema
  pure { table with
    rows := dump.records.map fun record => store table.emptyRow (TableDump.cells schema record) }

def toJson (table : Table) : String :=
  String.ofList (Json.compact table.dump.json)

/-- Reads a table without a name. -/
def reader : Json.Reader Table := do
  let dump ← TableDump.reader
  match ofDump "" dump with
  | .ok table => pure table
  | .error fault => Json.Reader.fail fault

def ofJson (text : String) : Except Error Table :=
  (reader.readText text.toList).mapError .invalidImport

end Table

namespace Database

def json (database : Database) : List Json.Token :=
  Json.object (database.tables.entries.map fun (name, table) => (name, table.dump.json))

/-- Reads a database from a JSON object of tables, which are named as the members are. -/
def reader : Json.Reader Database := do
  let tables ← Json.Reader.map Table.reader
  pure ⟨tables.mapValues fun name table => { table with name }⟩

end Database

namespace Catalog

def json (catalog : Catalog) : List Json.Token :=
  Json.object (catalog.databases.entries.map fun (name, database) => (name, database.json))

/-- The dump of a catalog, indented. -/
def toJson (catalog : Catalog) : String :=
  String.ofList (Json.indented 0 catalog.json)

def reader : Json.Reader Catalog := do
  pure ⟨← Json.Reader.map Database.reader⟩

/-- Reads a dump. The names of databases are checked once all of it has been read. -/
def ofJson (text : String) : Except Error Catalog :=
  match reader.readText text.toList with
  | .error fault => .error (.invalidImport fault)
  | .ok catalog =>
    match catalog.databaseNames.find? (!isValidName ·) with
    | some name => .error (.invalidImport (.invalidDatabaseName name))
    | none => .ok catalog

end Catalog

end TableEngine
