import TableEngine.OrderedMap
import TableEngine.Value

/-!
Rows: ordered maps from column names to values. A column that a row does not have reads as NULL.
-/

namespace TableEngine

structure Row where
  cells : OrderedMap Value
  deriving DecidableEq, Inhabited

namespace Row

/-- The row that results from setting the columns one after the other. -/
def ofList (pairs : List (String × Value)) : Row :=
  ⟨.ofList pairs⟩

/-- The columns with their values, in column order. -/
def toList (row : Row) : List (String × Value) :=
  row.cells.entries

def columns (row : Row) : List String :=
  row.cells.keys

def size (row : Row) : Nat :=
  row.cells.size

def isEmpty (row : Row) : Bool :=
  row.cells.isEmpty

def get (row : Row) (column : String) : Value :=
  (row.cells.get? column).getD .null

/-- Sets a column, which keeps its place if the row has it and comes last otherwise. -/
def set (row : Row) (column : String) (value : Value) : Row :=
  ⟨row.cells.insert column value⟩

/-- The row that holds the given columns alone, in the given order. -/
def project (row : Row) (columns : List String) : Row :=
  ofList (columns.map fun column => (column, row.get column))

theorem get_set (row : Row) (column : String) (value : Value) (name : String) :
    (row.set column value).get name = if name = column then value else row.get name := by
  unfold get set
  rw [OrderedMap.get?_insert]
  split <;> rfl

theorem columns_project (row : Row) (columns : List String) :
    (row.project columns).columns = columns.eraseDups := by
  have hkeys := OrderedMap.keys_ofList (columns.map fun column => (column, row.get column))
  rw [List.map_map, show Prod.fst ∘ (fun column => (column, row.get column)) = id from rfl,
    List.map_id] at hkeys
  exact hkeys

theorem mem_toList_project {row : Row} {columns : List String} {cell : String × Value}
    (hcell : cell ∈ (row.project columns).toList) :
    cell.1 ∈ columns ∧ cell.2 = row.get cell.1 := by
  have hpair := OrderedMap.mem_of_mem_entries_ofList hcell
  obtain ⟨column, hcolumn, rfl⟩ := List.mem_map.1 hpair
  exact ⟨hcolumn, rfl⟩

theorem mem_toList_of_mem_columns {row : Row} {column : String} (hcolumn : column ∈ row.columns) :
    (column, row.get column) ∈ row.toList := by
  obtain ⟨value, hvalue⟩ := OrderedMap.exists_get?_of_mem_keys hcolumn
  rw [get, hvalue]
  exact OrderedMap.get?_eq_some_iff.1 hvalue

theorem map_get_columns (row : Row) :
    row.columns.map (fun column => (column, row.get column)) = row.toList := by
  have hcell : ∀ cell ∈ row.toList, (cell.1, row.get cell.1) = cell := by
    intro cell hcell
    have hget : row.cells.get? cell.1 = some cell.2 := OrderedMap.get?_eq_some_iff.2 hcell
    rw [get, hget, Option.getD_some]
  calc row.columns.map (fun column => (column, row.get column))
      = row.toList.map (fun cell => (cell.1, row.get cell.1)) := List.map_map
    _ = row.toList.map id := List.map_congr_left hcell
    _ = row.toList := List.map_id _

/-- A row that is asked for all its columns is shown as it is. -/
theorem project_columns (row : Row) : row.project row.columns = row := by
  have hnodup : (row.toList.map Prod.fst).Nodup := row.cells.nodup_keys
  have hcells : (row.project row.columns).cells = row.cells := by
    apply OrderedMap.ext
    rw [project, map_get_columns]
    exact OrderedMap.entries_ofList hnodup
  cases row
  exact congrArg Row.mk hcells

/-- The order of the columns and the value of each make up a row. -/
theorem eq_of_get {a b : Row} (hcolumns : a.columns = b.columns)
    (hget : ∀ column ∈ a.columns, a.get column = b.get column) : a = b := by
  have hcells : a.cells = b.cells := by
    apply OrderedMap.eq_of_get? hcolumns
    intro column hcolumn
    have hother : column ∈ b.cells.keys := (show a.cells.keys = b.cells.keys from hcolumns) ▸ hcolumn
    have hvalue := hget column hcolumn
    obtain ⟨u, hu⟩ := OrderedMap.exists_get?_of_mem_keys hcolumn
    obtain ⟨v, hv⟩ := OrderedMap.exists_get?_of_mem_keys hother
    simp only [get, hu, hv, Option.getD_some] at hvalue
    rw [hu, hv, hvalue]
  cases a
  cases b
  simp_all

end Row

end TableEngine
