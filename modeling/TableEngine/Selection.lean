import TableEngine.Pattern
import TableEngine.Table

/-!
Which rows of a table a clause picks, and what a query shows of them. Queries, updates and deletions
share this one evaluation. Patterns are matched by whatever library of regular expressions there is.
-/

namespace TableEngine

open Regex (Library)

namespace Comparison

/-- Whether a comparison by order holds, given how the cell compares with the literal. Matching a
    pattern is not a comparison by order. -/
def holdsFor : Comparison → Ordering → Bool
  | eq, order => order.isEq
  | ne, order => !order.isEq
  | lt, order => order.isLT
  | gt, order => order.isGT
  | le, order => order.isLE
  | ge, order => order.isGE
  | like, _ => false

end Comparison

/-- How a cell compares with a literal, neither of them NULL: as numbers if both read as numbers, and
    as texts without regard to case otherwise. -/
def Value.compareRead (cell literal : Value) : Ordering :=
  match cell.asInteger, literal.asInteger with
  | some a, some b => Ord.compare a b
  | _, _ => Ord.compare (Text.lower cell.display.toList) (Text.lower literal.display.toList)

namespace Condition

/-- Whether a condition holds for a cell. NULL is equal to NULL alone, and neither below nor above
    nor like anything. -/
def holds [Library] (condition : Condition) (cell : Value) : Bool :=
  match condition.literal, cell with
  | .null, cell =>
    match condition.comparison with
    | .eq => cell.isNull
    | .ne => !cell.isNull
    | _ => false
  | _, .null => condition.comparison == .ne
  | literal, cell =>
    match condition.comparison with
    | .like => (Pattern.compile literal.display.toList).any fun test => test cell.display.toList
    | comparison => comparison.holdsFor (cell.compareRead literal)

/-- The pattern that a condition matches cells with. NULL is no pattern. -/
def pattern? (condition : Condition) : Option String :=
  match condition.comparison, condition.literal with
  | .like, .null => none
  | .like, literal => some literal.display
  | _, _ => none

/-- Whether a condition can be asked of a table: patterns are for columns that store texts. -/
def appliesTo (condition : Condition) (schema : Schema) : Bool :=
  condition.comparison != .like ||
    (schema.find? condition.column).any fun column => column.type.kind.holdsText

end Condition

/-- The rows that a clause picks, as a query shows them. -/
structure Selection where
  /-- The columns asked for, as often as they were asked for. -/
  columns : List String
  /-- The places of the picked rows in the table. -/
  handles : List Nat
  /-- What is shown of the picked rows, one row for each place. -/
  rows : List Row
  deriving DecidableEq

namespace Table

/-- Fails for a condition on an unknown column, and for one with a pattern that is refused. -/
def checkCondition [Library] (table : Table) (condition : Condition) : Except Error Unit := do
  table.checkColumns [condition.column]
  match condition.pattern? with
  | some pattern =>
    if (Pattern.compile pattern.toList).isSome then pure ()
    else throw (.syntaxError (.refusedPattern pattern))
  | none => pure ()

/-- Whether a row meets all conditions. They are tested in order up to the first that does not hold,
    and one that cannot be asked of the table is an error only if it is reached. -/
def meets [Library] (schema : Schema) (row : Row) : List Condition → Except Error Bool
  | [] => .ok true
  | condition :: conditions =>
    if !condition.appliesTo schema then .error (.syntaxError .likeOnNumbers)
    else if condition.holds (row.get condition.column) then meets schema row conditions
    else .ok false

/-- The rows that meet the conditions, with their places, up to the limit. No row is tested once the
    limit is reached. -/
def scan [Library] (schema : Schema) (conditions : List Condition) :
    (limit : Option Nat) → List (Row × Nat) → Except Error (List (Row × Nat))
  | some 0, _ => .ok []
  | _, [] => .ok []
  | limit, (row, place) :: rest => do
    if ← meets schema row conditions then
      let others ← scan schema conditions (limit.map (· - 1)) rest
      pure ((row, place) :: others)
    else scan schema conditions limit rest

/-- Sorts picked rows by a column, the greatest value first. Rows with equal values keep their
    order. -/
def sortDescending (column : String) (picked : List (Row × Nat)) : List (Row × Nat) :=
  picked.mergeSort fun (a, _) (b, _) => ((b.get column).compare (a.get column)).isLE

/-- Picked rows in the order that a clause asks for. An ascending order is the stored one. -/
def inOrder (clause : Clause) (picked : List (Row × Nat)) : List (Row × Nat) :=
  match clause.orderBy, clause.direction with
  | some column, .descending => sortDescending column picked
  | _, _ => picked

/-- What is shown of picked rows. -/
def shownAs (columns : List String) (picked : List (Row × Nat)) : Selection where
  columns
  handles := picked.map Prod.snd
  rows := picked.map fun (row, _) => row.project columns

/-- The columns that a query asks for, as often as it asks for them. -/
def columnsOf (table : Table) : Projection → List String
  | .all => table.schema.names
  | .columns names => names

/-- Evaluates a clause. Before any row is looked at, its parts are checked: first the columns asked
    for, then the conditions in order, then the column to order by. The limit is applied before a
    descending order; an ascending one keeps the stored order. -/
def select [Library] (table : Table) (projection : Projection) (clause : Clause) :
    Except Error Selection := do
  let columns := table.columnsOf projection
  table.checkColumns columns
  clause.conditions.forM table.checkCondition
  table.checkColumns clause.orderBy.toList
  let picked ← scan table.schema clause.conditions clause.limit table.rows.zipIdx
  pure (shownAs columns (inOrder clause picked))

/-- Updates the rows that a clause picks. The columns to set are checked before the clause is. -/
def updateWhere [Library] (assignments : List Assignment) (clause : Clause) : Mutation Table Nat := do
  let table ← get
  table.checkColumns (assignments.map Assignment.column)
  let selection ← table.select .all clause
  update selection.handles assignments

/-- Deletes the rows that a clause picks. -/
def deleteWhere [Library] (clause : Clause) : Mutation Table Nat := do
  let selection ← (← get).select .all clause
  delete selection.handles

end Table

end TableEngine
