import TableEngine.Outcome
import TableEngine.Regex.Matcher
import TableEngine.Script
import TableEngine.Selection
import TableEngine.Statement.Parser

/-!
Sessions: a catalog, the database in use, and a log of the statements received. Statements change a
session in place, and a session that has met an error goes on from the state that it was left in.
-/

namespace TableEngine

/-- How a session starts. -/
structure SessionConfig where
  /-- Whether the session starts with an empty catalog. Without one it has to be given a dump. -/
  createStorage : Bool
  /-- How many statements the log keeps. Without a capacity it keeps all. -/
  logCapacity : Option Nat
  /-- The database to create and use from the start. -/
  defaultDatabase : Option String

/-- A session starts with an empty catalog and a log of a thousand statements. -/
def SessionConfig.standard : SessionConfig :=
  ⟨true, some 1000, none⟩

structure Session where
  catalog : Option Catalog
  /-- The name of the database in use. -/
  active : Option String
  /-- The texts of the statements received, the oldest first. -/
  log : List String
  logCapacity : Option Nat
  deriving DecidableEq

namespace Session

/-- A session without any history. -/
def fresh (config : SessionConfig) : Session :=
  ⟨if config.createStorage then some .empty else none, none, [], config.logCapacity⟩

/-- Makes a change in the catalog. It is an error if there is none. -/
def inCatalog {α : Type} (missing : Error) (change : Mutation Catalog α) : Mutation Session α :=
  .onPart (fun session => session.catalog.elim (.error missing) .ok)
    (fun session catalog => { session with catalog := some catalog }) change

/-- Starts a session. If there is a default database it is created and put to use, for which a catalog
    is needed; a session without one starts without. -/
def start (config : SessionConfig) : Except Error Session :=
  let session := fresh config
  match config.defaultDatabase, session.catalog with
  | some name, some _ => Mutation.runOk (σ := Session) (do
      inCatalog .noDatabaseSelected (Catalog.createDatabase name)
      modify fun session => { session with active := some name }) session
  | _, _ => .ok session

/-- The name and the contents of the database in use. -/
def activeDatabase (session : Session) : Except Error (String × Database) :=
  match session.active, session.catalog with
  | some name, some catalog => do pure (name, ← catalog.database name)
  | _, _ => .error .noDatabaseSelected

/-- Makes a change in the database in use. -/
def inActive {α : Type} (change : Mutation Database α) : Mutation Session α := do
  match (← get).active with
  | some name => inCatalog .noDatabaseSelected (Catalog.inDatabase name change)
  | none => .fail .noDatabaseSelected

/-- Makes a change in a table of the database in use. The outcome is the number of rows that the change
    counts. -/
def changeTable (name : String) (change : Mutation Table Nat) : Mutation Session Outcome :=
  .affected <$> inActive (Database.inTable name change)

/-- A table of the database in use. -/
def table (session : Session) (name : String) : Except Error Table := do
  let (_, database) ← session.activeDatabase
  database.table name

def createDatabase (name : String) : Mutation Session Outcome := do
  inCatalog .noDatabaseSelected (Catalog.createDatabase name)
  pure (.affected 1)

/-- Drops a database, which counts its tables. It is no longer in use afterwards. -/
def dropDatabase (name : String) : Mutation Session Outcome := do
  let tables ← inCatalog (.cannotDropDatabase name) do
    let tables := ((← get).databases.get? name).elim 0 (·.tableNames.length)
    Catalog.dropDatabase name
    pure tables
  modify fun session =>
    if session.active = some name then { session with active := none } else session
  pure (.affected tables)

def useDatabase (name : String) : Mutation Session Outcome := do
  .require ((← get).catalog.any (·.hasDatabase name)) (.unknownDatabase name)
  modify fun session => { session with active := some name }
  pure (.affected 0)

/-- Texts as rows of a single column. -/
def listing (column : String) (texts : List String) : Outcome :=
  .rowSet [column] (texts.map fun text => .ofList [(column, .text text)])

def showDatabases (session : Session) : Except Error Outcome :=
  match session.catalog with
  | none => .error .noDatabases
  | some catalog => .ok (listing "Database" catalog.databaseNames)

def showTables (session : Session) : Except Error Outcome := do
  let (name, database) ← session.activeDatabase
  if database.tables.isEmpty then throw .noTables
  pure (listing ("Tables_in_" ++ name) database.tableNames)

/-- The columns of a table and their types, as rows. -/
def describe (session : Session) (name : String) : Except Error Outcome := do
  let table ← session.table name
  pure (.rowSet ["Field", "Type"] (table.schema.columns.map fun column =>
    .ofList [("Field", .text column.name), ("Type", .text column.type.display)]))

def select (session : Session) (projection : Projection) (name : String) (clause : Clause) :
    Except Error Outcome := do
  let selection ← (← session.table name).select projection clause
  pure (.rowSet selection.columns selection.rows)

/-- Carries out a statement. Queries only read. -/
def perform : Statement → Mutation Session Outcome
  | .createDatabase name => createDatabase name
  | .dropDatabase name => dropDatabase name
  | .useDatabase name => useDatabase name
  | .showDatabases => .reading showDatabases
  | .showTables => .reading showTables
  | .createTable name columns => do
    inActive (Database.createTable name columns)
    pure (.affected 0)
  | .dropTable name => do
    inActive (Database.dropTable name)
    pure (.affected 0)
  | .describe name => .reading (·.describe name)
  | .insert name columns tuples => changeTable name (Table.insert columns tuples)
  | .select projection name clause => .reading (·.select projection name clause)
  | .update name assignments clause => changeTable name (Table.updateWhere assignments clause)
  | .delete name clause => changeTable name (Table.deleteWhere clause)

/-- The session after a statement, and what the statement gives. -/
def executeStatement (session : Session) (statement : Statement) : Session × Except Error Outcome :=
  (perform statement).run session

/-- Adds a text to the log, which then gives up its oldest texts beyond the capacity. -/
def record (session : Session) (text : String) : Session :=
  let log := session.log ++ [text]
  { session with
    log := match session.logCapacity with
      | none => log
      | some capacity => log.drop (log.length - capacity) }

/-- Logs a text, and carries out the statement it spells. -/
def execute (session : Session) (text : String) : Session × Except Error Outcome :=
  let session := session.record text
  match Statement.parse text with
  | .ok statement => session.executeStatement statement
  | .error error => (session, .error error)

/-- Executes texts one after the other, whether or not they fail. -/
def executeAll (session : Session) : List String → Session × List (Except Error Outcome)
  | [] => (session, [])
  | text :: texts =>
    let (session, result) := session.execute text
    let (session, results) := executeAll session texts
    (session, result :: results)

/-- Executes the statements of a script. -/
def executeScript (session : Session) (script : String) : Session × List (Except Error Outcome) :=
  session.executeAll (Script.statements script)

/-- Takes over the catalog of a dump, in which no database is in use. The log is kept. -/
def importCatalog (dump : String) : Mutation Session Unit := do
  let catalog ← Catalog.ofJson dump
  modify fun session => { session with catalog := some catalog }
  modify fun session => { session with active := none }

/-- The session after an import, and whether the import failed. -/
def importJson (session : Session) (dump : String) : Session × Except Error Unit :=
  (importCatalog dump).run session

def exportJson (session : Session) : Except Error String :=
  match session.catalog with
  | none => .error .noDatabases
  | some catalog => .ok catalog.toJson

end Session

end TableEngine
