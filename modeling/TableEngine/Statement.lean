import TableEngine.Value

/-!
Statements as they are understood: what to do, on which table, with which values and for which rows.
-/

namespace TableEngine

/-- How a condition compares a cell with a literal. -/
inductive Comparison where
  | eq
  | ne
  | lt
  | gt
  | le
  | ge
  | like
  deriving DecidableEq, Inhabited

def Comparison.display : Comparison → String
  | eq => "="
  | ne => "!="
  | lt => "<"
  | gt => ">"
  | le => "<="
  | ge => ">="
  | like => "LIKE"

/-- One test of a WHERE clause: a column, a comparison and the literal to compare with. -/
structure Condition where
  column : String
  comparison : Comparison
  literal : Value
  deriving DecidableEq, Inhabited

/-- The direction of an ORDER BY. -/
inductive Direction where
  | ascending
  | descending
  deriving DecidableEq, Inhabited

/-- The rows a statement is about: those that meet all conditions, as many as the limit allows, in
    the order of a column. -/
structure Clause where
  conditions : List Condition
  orderBy : Option String
  direction : Direction
  limit : Option Nat
  deriving DecidableEq

/-- The clause that picks every row and keeps the stored order. -/
def Clause.everything : Clause :=
  ⟨[], none, .ascending, none⟩

instance : Inhabited Clause := ⟨Clause.everything⟩

/-- The columns a query asks for. -/
inductive Projection where
  | all
  | columns (names : List String)
  deriving DecidableEq, Inhabited

/-- A column as it is declared: its name and the text of its type. -/
structure ColumnSpec where
  name : String
  type : String
  deriving DecidableEq, Inhabited

/-- A new value for a column. -/
structure Assignment where
  column : String
  value : Value
  deriving DecidableEq, Inhabited

inductive Statement where
  | createDatabase (name : String)
  | dropDatabase (name : String)
  | useDatabase (name : String)
  | showDatabases
  | showTables
  | createTable (table : String) (columns : List ColumnSpec)
  | dropTable (table : String)
  | describe (table : String)
  | insert (table : String) (columns : Option (List String)) (tuples : List (List Value))
  | select (projection : Projection) (table : String) (clause : Clause)
  | update (table : String) (assignments : List Assignment) (clause : Clause)
  | delete (table : String) (clause : Clause)
  deriving DecidableEq, Inhabited

end TableEngine
