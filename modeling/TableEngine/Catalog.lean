import TableEngine.Table

/-!
Databases and the catalog that holds them. Both remember the order in which their members were
created, and are changed in place.
-/

namespace TableEngine

/-- Whether databases, tables and columns may bear a name: it is a non-empty word of ASCII letters,
    digits and underscores. -/
def isValidName (name : String) : Bool :=
  !name.toList.isEmpty && name.toList.all Lexer.isWordChar

structure Database where
  tables : OrderedMap Table
  deriving DecidableEq, Inhabited

namespace Database

def empty : Database :=
  ⟨.empty⟩

def tableNames (database : Database) : List String :=
  database.tables.keys

def table (database : Database) (name : String) : Except Error Table :=
  match database.tables.get? name with
  | some table => .ok table
  | none => .error (.unknownTable name)

/-- The names and types of the declared columns that have a valid name and a type that can be read. -/
def usableColumns (specs : List ColumnSpec) : List (String × ColumnType) :=
  specs.filterMap fun spec =>
    match ColumnType.parse? spec.type with
    | some type => if isValidName spec.name then some (spec.name, type) else none
    | none => none

/-- Adds an empty table. Declared columns that are not usable are dropped, but one has to remain. -/
def createTable (name : String) (specs : List ColumnSpec) : Mutation Database Unit := do
  .require (isValidName name) (.syntaxError (.invalidName name))
  .require (!(← get).tables.contains name) (.tableExists name)
  let schema ← Schema.ofColumns (usableColumns specs)
  .require (!schema.columns.isEmpty) (.syntaxError (.noColumns name))
  modify fun database => ⟨database.tables.insert name (.new name schema)⟩

/-- Removes a table. Whether there was one is known only then. -/
def dropTable (name : String) : Mutation Database Unit := do
  let removed := (← get).tables.get? name
  modify fun database => ⟨database.tables.erase name⟩
  .require removed.isSome (.cannotDropTable name)

/-- Puts a table in the place of the one with the given name. -/
def replaceTable (database : Database) (name : String) (table : Table) : Database :=
  ⟨database.tables.insert name table⟩

/-- Makes a change in a table. -/
def inTable {α : Type} (name : String) (change : Mutation Table α) : Mutation Database α :=
  .onPart (·.table name) (·.replaceTable name) change

/-- Whether two databases hold the same tables, in whatever order. -/
def sameTables (a b : Database) : Bool :=
  a.tables.sameEntries (· == ·) b.tables

end Database

structure Catalog where
  databases : OrderedMap Database
  deriving DecidableEq, Inhabited

namespace Catalog

def empty : Catalog :=
  ⟨.empty⟩

def databaseNames (catalog : Catalog) : List String :=
  catalog.databases.keys

def hasDatabase (catalog : Catalog) (name : String) : Bool :=
  catalog.databases.contains name

def database (catalog : Catalog) (name : String) : Except Error Database :=
  match catalog.databases.get? name with
  | some database => .ok database
  | none => .error (.unknownDatabase name)

def createDatabase (name : String) : Mutation Catalog Unit := do
  .require (isValidName name) (.syntaxError (.invalidName name))
  .require (!(← get).hasDatabase name) (.cannotCreateDatabase name)
  modify fun catalog => ⟨catalog.databases.insert name .empty⟩

/-- Removes a database. Whether there was one is known only then. -/
def dropDatabase (name : String) : Mutation Catalog Unit := do
  let removed := (← get).databases.get? name
  modify fun catalog => ⟨catalog.databases.erase name⟩
  .require removed.isSome (.cannotDropDatabase name)

/-- Puts a database in the place of the one with the given name. -/
def replaceDatabase (catalog : Catalog) (name : String) (database : Database) : Catalog :=
  ⟨catalog.databases.insert name database⟩

/-- Makes a change in a database. -/
def inDatabase {α : Type} (name : String) (change : Mutation Database α) : Mutation Catalog α :=
  .onPart (·.database name) (·.replaceDatabase name) change

/-- Whether two catalogs hold the same databases, in whatever order these and their tables stand. -/
def sameDatabases (a b : Catalog) : Bool :=
  a.databases.sameEntries Database.sameTables b.databases

end Catalog

end TableEngine
