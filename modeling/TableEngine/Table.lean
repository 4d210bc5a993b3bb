import TableEngine.Mutation
import TableEngine.Row
import TableEngine.Schema
import TableEngine.Statement

/-!
Tables: a schema and the rows stored under it. Rows keep the order in which they were inserted and are
addressed by their place. Insertion, update and deletion change the table in place.
-/

namespace TableEngine

structure Table where
  name : String
  schema : Schema
  rows : List Row
  deriving DecidableEq, Inhabited

namespace Table

/-- A table without rows. -/
def new (name : String) (schema : Schema) : Table :=
  ⟨name, schema, []⟩

/-- The column of a name, which is an error if the table does not have it. -/
def column (table : Table) (name : String) : Except Error Column :=
  match table.schema.find? name with
  | some column => .ok column
  | none => .error (.unknownColumn name table.name)

/-- Fails for the first of the names that is not a column of the table. -/
def checkColumns (table : Table) (names : List String) : Except Error Unit :=
  match names.find? (!table.schema.contains ·) with
  | some name => .error (.unknownColumn name table.name)
  | none => .ok ()

/-- The row that has every column of the schema and holds nothing. -/
def emptyRow (table : Table) : Row :=
  .ofList (table.schema.names.map (·, .null))

/-- Sets columns of a row to the stored form of the values. -/
def store (row : Row) (cells : List (Column × Value)) : Row :=
  cells.foldl (fun row (column, value) => row.set column.name (column.type.coerce value)) row

theorem get_store_of_not_mem {cells : List (Column × Value)} {name : String}
    (hname : name ∉ cells.map fun cell => cell.1.name) (row : Row) :
    (store row cells).get name = row.get name := by
  induction cells generalizing row with
  | nil => rfl
  | cons cell cells ih =>
    simp only [List.map_cons, List.mem_cons, not_or] at hname
    have hrest := ih hname.2 (row.set cell.1.name (cell.1.type.coerce cell.2))
    rwa [Row.get_set, if_neg hname.1] at hrest

/-- If no column is set twice, each one that is set has the stored form of its value. -/
theorem get_store_of_mem {cells : List (Column × Value)}
    (hnodup : (cells.map fun cell => cell.1.name).Nodup) {column : Column} {value : Value}
    (hcell : (column, value) ∈ cells) (row : Row) :
    (store row cells).get column.name = column.type.coerce value := by
  induction cells generalizing row with
  | nil => cases hcell
  | cons cell cells ih =>
    obtain ⟨hnew, hrest⟩ := List.nodup_cons.1 hnodup
    rcases List.mem_cons.1 hcell with rfl | hmem
    · have hset := get_store_of_not_mem hnew (row.set column.name (column.type.coerce value))
      rwa [Row.get_set, if_pos rfl] at hset
    · exact ih hrest hmem _

/-- The columns that tuples give values to: the listed ones, or all columns in order if none are
    listed. -/
def targets (table : Table) (columns : Option (List String)) : Except Error (List Column) :=
  (columns.getD table.schema.names).mapM table.column

/-- The row that a tuple gives values for. It has to be as long as the list of columns that it gives
    values to; other columns are left NULL. -/
def rowOf (table : Table) (targets : List Column) (tuple : List Value) : Except Error Row :=
  if tuple.length = targets.length then .ok (store table.emptyRow (targets.zip tuple))
  else .error .wrongValueCount

/-- The rows that tuples give values for. -/
def rowsOf (table : Table) (targets : List Column) (tuples : List (List Value)) :
    Except Error (List Row) :=
  tuples.mapM (table.rowOf targets)

/-- Appends one row for each tuple, and counts them. All rows are made before the first is stored. -/
def insert (columns : Option (List String)) (tuples : List (List Value)) : Mutation Table Nat := do
  let table ← get
  let targets ← table.targets columns
  let rows ← table.rowsOf targets tuples
  set { table with rows := table.rows ++ rows }
  pure rows.length

/-- The columns that assignments set, with the new values. -/
def cellsOf (table : Table) (assignments : List Assignment) : Except Error (List (Column × Value)) :=
  assignments.mapM fun assignment => do
    pure (← table.column assignment.column, assignment.value)

/-- Sets columns in the rows at the given places. Places without a row are passed over, and a place
    that is given twice counts twice. -/
def update (handles : List Nat) (assignments : List Assignment) : Mutation Table Nat := do
  let table ← get
  let cells ← table.cellsOf assignments
  let rows := table.rows.mapIdx fun place row => if place ∈ handles then store row cells else row
  set { table with rows }
  pure (handles.countP (· < table.rows.length))

/-- Removes the rows at the given places, closes the gaps, and counts the rows removed. -/
def delete (handles : List Nat) : Mutation Table Nat := do
  let table ← get
  let rows := (table.rows.zipIdx.filter fun (_, place) => place ∉ handles).map Prod.fst
  set { table with rows }
  pure (table.rows.length - rows.length)

end Table

end TableEngine
