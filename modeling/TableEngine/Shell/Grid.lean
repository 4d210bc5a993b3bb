import TableEngine.Row

/-!
Result tables as text: a frame of dashes, the column names, and a line for each row. Every cell is
padded to the width of its column and none is cut, so all lines are equally long.
-/

namespace TableEngine.Grid

/-- The width of a column: the length of its name or of its longest cell. -/
def width (rows : List Row) (column : String) : Nat :=
  (rows.map fun row => (row.get column).display.toList.length).foldl max column.toList.length

/-- A text with a blank in front and at least one behind, which fills a column of the given width. -/
def field (width : Nat) (text : String) : List Char :=
  ' ' :: text.toList ++ List.replicate (width - text.toList.length) ' ' ++ [' ']

/-- Fields between separators. -/
def line (separator : Char) (fields : List (List Char)) : List Char :=
  separator :: List.intercalate [separator] fields ++ [separator]

/-- The line that separates the parts of the table. -/
def rule (widths : List Nat) : List Char :=
  line '+' (widths.map fun width => List.replicate (width + 2) '-')

/-- The line of a row, or of the column names. -/
def textLine (widths : List Nat) (texts : List String) : List Char :=
  line '|' (List.zipWith field widths texts)

/-- The lines of a table. A table without rows ends below the column names. -/
def lines (columns : List String) (rows : List Row) : List (List Char) :=
  let widths := columns.map (width rows)
  let head := [rule widths, textLine widths columns, rule widths]
  let body := rows.map fun row => textLine widths (columns.map fun column => (row.get column).display)
  if columns.isEmpty then []
  else if rows.isEmpty then head
  else head ++ body ++ [rule widths]

/-- The text of a table, each line with its end. -/
def render (columns : List String) (rows : List Row) : String :=
  String.ofList ((lines columns rows).flatMap (· ++ ['\n']))

end TableEngine.Grid
