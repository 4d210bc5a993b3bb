import TableEngine.Token.Lexer

/-!
Everything that can go wrong, by cause. Each error has a code that callers can rely on and a message
for people; what a faulty statement tripped over (`SyntaxFault.near`) is kept out of the message.
-/

namespace TableEngine

/-- What is wrong with a statement. -/
inductive SyntaxFault where
  /-- The text cannot be read as tokens. -/
  | unreadable (fault : LexFault)
  /-- The token is not one that may stand at its place. -/
  | unexpected (token : Token)
  /-- A database or table cannot bear the name. -/
  | invalidName (name : String)
  /-- A table declares the column twice. -/
  | repeatedColumn (column : String)
  /-- A table is declared without any usable column. -/
  | noColumns (table : String)
  /-- A pattern is matched against a column that stores no texts. -/
  | likeOnNumbers
  /-- The pattern is none that can be compiled. -/
  | refusedPattern (pattern : String)
  deriving DecidableEq

/-- The piece of the statement that a fault points at. -/
def SyntaxFault.near : SyntaxFault → String
  | unreadable fault => fault.near
  | unexpected token => token.display
  | invalidName name => name
  | repeatedColumn column => column
  | noColumns table => table
  | likeOnNumbers => Keyword.LIKE.text
  | refusedPattern pattern => pattern

/-- Why a dump cannot be read. -/
inductive ImportFault where
  /-- The text is not a JSON text of the shape that dumps have. -/
  | malformed
  | invalidDatabaseName (name : String)
  | noColumns
  | untypedColumn (column : String)
  | repeatedColumn (column : String)
  | invalidColumnType (spec : String)
  deriving DecidableEq

def ImportFault.message : ImportFault → String
  | malformed => "not a database dump"
  | invalidDatabaseName name => "invalid database name '" ++ name ++ "'"
  | noColumns => "table has no columns"
  | untypedColumn column => "column '" ++ column ++ "' has no type definition"
  | repeatedColumn column => "duplicate column '" ++ column ++ "'"
  | invalidColumnType spec => "invalid column type '" ++ spec ++ "'"

/-- Why a statement, an import or a file operation failed. -/
inductive Error where
  | syntaxError (fault : SyntaxFault)
  | unknownCommand
  | wrongValueCount
  | noDatabaseSelected
  | noDatabases
  | noTables
  | unknownDatabase (name : String)
  | unknownTable (name : String)
  | unknownColumn (column table : String)
  | cannotCreateDatabase (name : String)
  | cannotDropDatabase (name : String)
  | cannotDropTable (name : String)
  | tableExists (name : String)
  | invalidImport (fault : ImportFault)
  /-- A file could not be read or written, for the given reason. -/
  | fileAccess (reason : String)
  deriving DecidableEq

namespace Error

/-- The stable name of the kind of error. -/
def code : Error → String
  | syntaxError _ => "SYNTAX_ERROR"
  | unknownCommand => "UNKNOWN_COM"
  | wrongValueCount => "WRONG_VALUE_COUNT"
  | noDatabaseSelected => "NO_DB_SELECTED"
  | noDatabases => "NO_DB_EXIST"
  | noTables => "NO_TABLES_USED"
  | unknownDatabase _ => "UNKNOWN_DB"
  | unknownTable _ => "UNKNOWN_TABLE"
  | unknownColumn _ _ => "UNKNOWN_FIELD"
  | cannotCreateDatabase _ => "CANT_CREATE_DB"
  | cannotDropDatabase _ => "CANT_DROP_DB"
  | cannotDropTable _ => "CANT_DROP_TABLE"
  | tableExists _ => "TABLE_EXISTS"
  | invalidImport _ => "INVALID_IMPORT"
  | fileAccess _ => "IO_ERROR"

def message : Error → String
  | syntaxError _ => "You have an error in your SQL syntax"
  | unknownCommand => "Unknown command"
  | wrongValueCount => "Column count doesn't match value count"
  | noDatabaseSelected => "No database selected"
  | noDatabases => "No databases exist"
  | noTables => "No tables used"
  | unknownDatabase name => "Unknown database '" ++ name ++ "'"
  | unknownTable name => "Unknown table '" ++ name ++ "'"
  | unknownColumn column table => "Unknown column '" ++ column ++ "' in '" ++ table ++ "'"
  | cannotCreateDatabase name => "Can't create database " ++ name
  | cannotDropDatabase name => "Can't drop database '" ++ name ++ "'; database doesn't exist"
  | cannotDropTable name => "Can't drop table '" ++ name ++ "'"
  | tableExists name => "Table '" ++ name ++ "' already exists"
  | invalidImport fault => "Invalid import: " ++ fault.message
  | fileAccess reason => "I/O error: " ++ reason

end Error

end TableEngine
