import TableEngine.Statement

/-!
Statements as text: keywords in capitals, names as they are, literals in their quoted form, and commas
followed by a blank. `Statement.parse` reads the text back wherever the names are words that can stand
for themselves.
-/

namespace TableEngine

namespace Printer

/-- Items with a comma and a blank between them. -/
def commaSeparated (items : List (List Char)) : List Char :=
  List.intercalate [',', ' '] items

/-- Items with commas, between parentheses. -/
def parenthesized (items : List (List Char)) : List Char :=
  '(' :: commaSeparated items ++ [')']

end Printer

open Printer

def Value.chars (value : Value) : List Char :=
  value.literal.toList

def Condition.chars (condition : Condition) : List Char :=
  condition.column.toList ++ ' ' :: condition.comparison.display.toList ++
    ' ' :: condition.literal.chars

def ColumnSpec.chars (spec : ColumnSpec) : List Char :=
  spec.name.toList ++ ' ' :: spec.type.toList

def Assignment.chars (assignment : Assignment) : List Char :=
  assignment.column.toList ++ " = ".toList ++ assignment.value.chars

def Projection.chars : Projection → List Char
  | all => ['*']
  | columns names => commaSeparated (names.map String.toList)

namespace Clause

/-- The conditions behind a WHERE, or nothing if there are none. -/
def whereChars (clause : Clause) : List Char :=
  if clause.conditions.isEmpty then []
  else " WHERE ".toList ++ List.intercalate " AND ".toList (clause.conditions.map Condition.chars)

/-- The column behind an ORDER BY, or nothing if there is none. Only a descending order is spelled
    out. -/
def orderChars (clause : Clause) : List Char :=
  match clause.orderBy, clause.direction with
  | none, _ => []
  | some column, .ascending => " ORDER BY ".toList ++ column.toList
  | some column, .descending => " ORDER BY ".toList ++ column.toList ++ " DESC".toList

/-- The number behind a LIMIT, or nothing if there is none. -/
def limitChars (clause : Clause) : List Char :=
  match clause.limit with
  | none => []
  | some limit => " LIMIT ".toList ++ Text.natDigits limit

/-- The parts of a clause, each with a blank in front. -/
def chars (clause : Clause) : List Char :=
  clause.whereChars ++ clause.orderChars ++ clause.limitChars

end Clause

namespace Statement

/-- The columns that an insertion lists, with a blank in front, or nothing if it lists none. -/
def targetChars : Option (List String) → List Char
  | none => []
  | some columns => ' ' :: parenthesized (columns.map String.toList)

/-- The text of a statement, without a terminator. -/
def chars : Statement → List Char
  | createDatabase name => "CREATE DATABASE ".toList ++ name.toList
  | dropDatabase name => "DROP DATABASE ".toList ++ name.toList
  | useDatabase name => "USE ".toList ++ name.toList
  | showDatabases => "SHOW DATABASES".toList
  | showTables => "SHOW TABLES".toList
  | createTable table columns =>
    "CREATE TABLE ".toList ++ table.toList ++ ' ' :: parenthesized (columns.map ColumnSpec.chars)
  | dropTable table => "DROP TABLE ".toList ++ table.toList
  | describe table => "DESCRIBE ".toList ++ table.toList
  | insert table columns tuples =>
    "INSERT INTO ".toList ++ table.toList ++ targetChars columns ++ " VALUES ".toList ++
      commaSeparated (tuples.map fun tuple => parenthesized (tuple.map Value.chars))
  | select projection table clause =>
    "SELECT ".toList ++ projection.chars ++ " FROM ".toList ++ table.toList ++ clause.chars
  | update table assignments clause =>
    "UPDATE ".toList ++ table.toList ++ " SET ".toList ++
      commaSeparated (assignments.map Assignment.chars) ++ clause.chars
  | delete table clause => "DELETE FROM ".toList ++ table.toList ++ clause.chars

def print (statement : Statement) : String :=
  String.ofList statement.chars

end Statement

end TableEngine
