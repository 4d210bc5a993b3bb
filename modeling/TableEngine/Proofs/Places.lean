import Mathlib.Data.List.Induction
import Mathlib.Data.List.Nodup
import TableEngine.Proofs.WellFormed

/-!
What changes at given places make of the rows of a table. A deletion leaves the rows at all other
places in their order (`Table.run_delete`). An update leaves every row at its place and gives the rows
at the given places, in each column that is assigned to, the stored form of the value assigned last
(`Table.run_update`).
-/

namespace TableEngine

open Mutation

namespace Assignment

/-- The value that assignments give to a column in the end. -/
def lastFor? (assignments : List Assignment) (column : String) : Option Value :=
  (assignments.filter (·.column = column)).getLast?.map Assignment.value

/-- An assignment counts only if none to the same column comes behind it. -/
theorem lastFor?_cons (assignment : Assignment) (assignments : List Assignment) (column : String) :
    lastFor? (assignment :: assignments) column =
      (lastFor? assignments column).or
        (if assignment.column = column then some assignment.value else none) := by
  unfold lastFor?
  by_cases hcolumn : assignment.column = column
  · rw [List.filter_cons_of_pos (by simpa using hcolumn), List.getLast?_cons, if_pos hcolumn]
    cases (assignments.filter (·.column = column)).getLast? <;> rfl
  · rw [List.filter_cons_of_neg (by simpa using hcolumn), if_neg hcolumn, Option.or_none]

end Assignment

namespace Table

/-! Updates. -/

/-- A row after an update: it has the same columns, each with the stored form of the value that it is
    assigned last or, without one, with the value that it has had. -/
structure UpdatedBy (schema : Schema) (assignments : List Assignment) (old new : Row) : Prop where
  columns_eq : new.columns = old.columns
  get_eq : ∀ column ∈ schema.columns, new.get column.name =
    match Assignment.lastFor? assignments column.name with
    | some value => column.type.coerce value
    | none => old.get column.name

theorem cellsOf_eq_ok_iff {table : Table} {assignments : List Assignment}
    {cells : List (Column × Value)} :
    table.cellsOf assignments = .ok cells ↔
      assignments.map (fun assignment => do
        pure (← table.column assignment.column, assignment.value)) = cells.map .ok :=
  mapM_eq_ok_iff

/-- Cells are set one after the other, so that the value that a column has in the end is the one that
    it is assigned last. -/
theorem get_store_of_cellsOf {table : Table} {assignments : List Assignment}
    {cells : List (Column × Value)} (hcells : table.cellsOf assignments = .ok cells)
    {column : Column} (hcolumn : column ∈ table.schema.columns) (row : Row) :
    (store row cells).get column.name =
      match Assignment.lastFor? assignments column.name with
      | some value => column.type.coerce value
      | none => row.get column.name := by
  rw [cellsOf_eq_ok_iff] at hcells
  induction assignments generalizing cells row with
  | nil =>
    obtain rfl : cells = [] := List.map_eq_nil_iff.1 hcells.symm
    rfl
  | cons assignment assignments ih =>
    cases cells with
    | nil => cases hcells
    | cons cell cells =>
      obtain ⟨hfirst, hothers⟩ := List.cons.inj hcells
      obtain ⟨found, hfound, heq⟩ := bind_eq_ok_iff.1 hfirst
      obtain rfl : (found, assignment.value) = cell := Except.ok.inj heq
      obtain ⟨hmem, hname⟩ := Schema.find?_eq_some_iff.1 (column_eq_ok_iff.1 hfound)
      have hset := Row.get_set row found.name (found.type.coerce assignment.value) column.name
      have hrest := ih hothers (row.set found.name (found.type.coerce assignment.value))
      rw [Assignment.lastFor?_cons]
      change (store (row.set found.name (found.type.coerce assignment.value)) cells).get
        column.name = _
      rw [hrest]
      cases Assignment.lastFor? assignments column.name with
      | some value => rfl
      | none =>
        rw [Option.none_or]
        dsimp only
        rw [hset]
        by_cases hsame : column.name = found.name
        · obtain rfl := Schema.eq_of_name_eq hcolumn hmem hsame
          rw [if_pos rfl, if_pos hname.symm]
        · have hother : assignment.column ≠ column.name := fun heq => hsame (heq.symm.trans hname.symm)
          rw [if_neg hsame, if_neg hother]

theorem updatedBy_store {table : Table} {assignments : List Assignment}
    {cells : List (Column × Value)} (hcells : table.cellsOf assignments = .ok cells) {row : Row}
    (hrow : row.columns = table.schema.names) :
    UpdatedBy table.schema assignments row (store row cells) := by
  constructor
  · have hknown := mem_columns_of_cellsOf hcells
    clear hcells
    induction cells generalizing row with
    | nil => rfl
    | cons cell cells ih =>
      obtain ⟨hfirst, hothers⟩ := List.forall_mem_cons.1 hknown
      have hcolumn : cell.1.name ∈ row.columns := hrow ▸ Schema.mem_names_of_mem hfirst
      have hset := Row.columns_set_of_mem (cell.1.type.coerce cell.2) hcolumn
      exact (ih (hset.trans hrow) hothers).trans hset
  · exact fun column hcolumn => get_store_of_cellsOf hcells hcolumn row

theorem exists_cell_iff {table : Table} {assignment : Assignment} :
    (∃ cell, (do pure (← table.column assignment.column, assignment.value) :
      Except Error (Column × Value)) = .ok cell) ↔ assignment.column ∈ table.schema.names := by
  rw [← exists_column_eq_ok_iff]
  constructor
  · rintro ⟨cell, hcell⟩
    obtain ⟨column, hcolumn, -⟩ := bind_eq_ok_iff.1 hcell
    exact ⟨column, hcolumn⟩
  · rintro ⟨column, hcolumn⟩
    exact ⟨_, bind_eq_ok_iff.2 ⟨column, hcolumn, rfl⟩⟩

theorem exists_cellsOf_iff {table : Table} {assignments : List Assignment} :
    (∃ cells, table.cellsOf assignments = .ok cells) ↔
      ∀ assignment ∈ assignments, assignment.column ∈ table.schema.names := by
  unfold cellsOf
  simp only [exists_mapM_eq_ok_iff, exists_cell_iff]

/-- An update of known columns succeeds. It leaves every row at its place, and counts the given places
    that have a row. -/
theorem run_update {table : Table} {assignments : List Assignment}
    (hknown : ∀ assignment ∈ assignments, assignment.column ∈ table.schema.names)
    (hrows : ∀ row ∈ table.rows, row.columns = table.schema.names) (handles : List Nat) :
    ∃ rows, (update handles assignments).run table =
        ({ table with rows }, .ok (handles.countP (· < table.rows.length))) ∧
      rows.length = table.rows.length ∧
      ∀ place old, table.rows[place]? = some old → ∃ new, rows[place]? = some new ∧
        (place ∈ handles → UpdatedBy table.schema assignments old new) ∧
        (place ∉ handles → new = old) := by
  obtain ⟨cells, hcells⟩ := exists_cellsOf_iff.2 hknown
  refine ⟨_, run_update_eq_ok_iff.2 ⟨cells, hcells, rfl, rfl⟩, List.length_mapIdx, ?_⟩
  intro place old hold
  refine ⟨if place ∈ handles then store old cells else old, ?_, ?_, ?_⟩
  · rw [List.getElem?_mapIdx, hold]
    rfl
  · intro hplace
    rw [if_pos hplace]
    exact updatedBy_store hcells (hrows old (List.mem_of_getElem? hold))
  · intro hplace
    rw [if_neg hplace]

/-! Deletions. -/

/-- The rows at all places but the given ones, in their order. -/
def rowsExcept (table : Table) (handles : List Nat) : List Row :=
  ((List.range table.rows.length).filter (· ∉ handles)).filterMap (table.rows[·]?)

theorem map_fst_filter_zipIdx (rows : List Row) (keep : Nat → Bool) :
    (rows.zipIdx.filter fun (_, place) => keep place).map Prod.fst =
      ((List.range rows.length).filter keep).filterMap (rows[·]?) := by
  induction rows using List.reverseRecOn with
  | nil => rfl
  | append_singleton rows row ih =>
    have hfront : ((List.range rows.length).filter keep).filterMap ((rows ++ [row])[·]?) =
        ((List.range rows.length).filter keep).filterMap (rows[·]?) := by
      apply List.filterMap_congr
      intro place hplace
      have hlt : place < rows.length := List.mem_range.1 (List.mem_filter.1 hplace).1
      exact List.getElem?_append_left hlt
    rw [List.zipIdx_append, List.filter_append, List.map_append, ih, List.length_append,
      List.length_singleton, List.range_succ, List.filter_append, List.filterMap_append, hfront]
    by_cases hlast : keep rows.length = true
    · simp [hlast]
    · simp [hlast]

theorem length_rowsExcept (table : Table) (handles : List Nat) :
    (table.rowsExcept handles).length =
      (List.range table.rows.length).countP (· ∉ handles) := by
  have hsome : ∀ place ∈ (List.range table.rows.length).filter (· ∉ handles),
      (table.rows[place]?).isSome = true := by
    intro place hplace
    have hlt : place < table.rows.length := List.mem_range.1 (List.mem_filter.1 hplace).1
    simp [hlt]
  rw [rowsExcept, List.length_filterMap_eq_countP, List.countP_eq_length.2 hsome,
    List.countP_eq_length_filter]

/-- A deletion counts the places with a row that are given, each of them once. -/
theorem run_delete (table : Table) (handles : List Nat) :
    (delete handles).run table = ({ table with rows := table.rowsExcept handles },
      .ok ((List.range table.rows.length).countP (· ∈ handles))) := by
  have hrows := map_fst_filter_zipIdx table.rows (· ∉ handles)
  have hall := List.length_eq_countP_add_countP (· ∈ handles) (l := List.range table.rows.length)
  have hkept := length_rowsExcept table handles
  simp only [decide_eq_true_eq, List.length_range] at hall
  have hcount : table.rows.length - (table.rowsExcept handles).length =
      (List.range table.rows.length).countP (· ∈ handles) := by omega
  unfold delete
  simp only [run_get_bind, run_set_bind, run_pure]
  rw [hrows]
  exact Prod.ext rfl (congrArg Except.ok hcount)

/-- Places that are given once each, and all have a row, are counted by their number. -/
theorem countP_range_mem {handles : List Nat} (hnodup : handles.Nodup) {n : Nat}
    (hlt : ∀ place ∈ handles, place < n) :
    (List.range n).countP (· ∈ handles) = handles.length := by
  have hperm : ((List.range n).filter (· ∈ handles)).Perm handles := by
    apply (List.perm_ext_iff_of_nodup (List.nodup_range.filter _) hnodup).2
    intro place
    simp only [List.mem_filter, List.mem_range, decide_eq_true_eq]
    exact ⟨fun hplace => hplace.2, fun hplace => ⟨hlt place hplace, hplace⟩⟩
  rw [List.countP_eq_length_filter, hperm.length_eq]

end Table

end TableEngine
