import Mathlib.Data.List.Dedup
import Mathlib.Data.List.Forall2
import TableEngine.Proofs.Ledger

/-!
What becomes of the rows of a table, whatever a change is given. An insertion appends one row for each
tuple, and an update sets columns of the rows at given places; both may name columns that the table does
not have, and then blame the first of them. The relations `Table.Inserts` and `Table.Updates` tell all that
can come of a change (`Table.rows_inserted_as_listed`, `Table.rows_changed_at_places`).
-/

namespace TableEngine

open Mutation

/-! The value that a tuple gives to a column last. -/

namespace Assignment

theorem lastFor?_zipWith_of_not_mem {names : List String} {column : String} (hcolumn : column ∉ names)
    (tuple : List Value) : lastFor? (List.zipWith mk names tuple) column = none := by
  induction names generalizing tuple with
  | nil => rfl
  | cons name names ih =>
    cases tuple with
    | nil => rfl
    | cons value tuple =>
      rw [List.mem_cons, not_or] at hcolumn
      rw [List.zipWith_cons_cons, lastFor?_cons, ih hcolumn.2, if_neg (Ne.symm hcolumn.1)]
      rfl

/-- A column that is listed several times is given the value at the last of these places. -/
theorem lastFor?_zipWith_append {front back : List String} {column : String} (hback : column ∉ back)
    {tuple : List Value} {value : Value} (hvalue : tuple[front.length]? = some value) :
    lastFor? (List.zipWith mk (front ++ column :: back) tuple) column = some value := by
  induction front generalizing tuple with
  | nil =>
    cases tuple with
    | nil => cases hvalue
    | cons first tuple =>
      obtain rfl := Option.some.inj hvalue
      rw [List.nil_append, List.zipWith_cons_cons, lastFor?_cons, lastFor?_zipWith_of_not_mem hback,
        if_pos rfl]
      rfl
  | cons name front ih =>
    cases tuple with
    | nil => cases hvalue
    | cons first tuple =>
      rw [List.cons_append, List.zipWith_cons_cons, lastFor?_cons, ih (by simpa using hvalue)]
      rfl

end Assignment

/-- The row that is stored for a tuple: its columns are those of the schema in their order, each column
    that is listed holds the stored form of the value at the last place at which it is listed, and the
    other columns are NULL. -/
structure Row.StoredFor (row : Row) (schema : Schema) (names : List String) (tuple : List Value) :
    Prop where
  columns_eq : row.columns = schema.names
  get_listed : ∀ column ∈ schema.columns, ∀ front back, names = front ++ column.name :: back →
    column.name ∉ back → ∀ value, tuple[front.length]? = some value →
      row.get column.name = column.type.coerce value
  get_unlisted : ∀ column ∈ schema.columns, column.name ∉ names → row.get column.name = .null

theorem Schema.storedFor_rowFor (schema : Schema) (columns : Option (List String))
    (tuple : List Value) :
    (schema.rowFor columns tuple).StoredFor schema (columns.getD schema.names) tuple := by
  refine ⟨schema.columns_rowFor columns tuple, ?_, ?_⟩
  · intro column hcolumn front back hnames hback value hvalue
    rw [get_rowFor hcolumn, Column.valueFrom, hnames, Assignment.lastFor?_zipWith_append hback hvalue]
  · intro column hcolumn hunlisted
    rw [get_rowFor hcolumn, Column.valueFrom, Assignment.lastFor?_zipWith_of_not_mem hunlisted]

theorem Schema.storedFor_map_rowFor (schema : Schema) (columns : Option (List String))
    (tuples : List (List Value)) :
    List.Forall₂ (fun tuple row => row.StoredFor schema (columns.getD schema.names) tuple) tuples
      (tuples.map (schema.rowFor columns)) := by
  rw [List.forall₂_map_right_iff, List.forall₂_same]
  exact fun tuple _ => schema.storedFor_rowFor columns tuple

theorem exists_last_mem {α : Type} {a : α} {items : List α} (ha : a ∈ items) :
    ∃ front back, items = front ++ a :: back ∧ a ∉ back := by
  obtain ⟨before, behind, hitems, hbefore⟩ := List.eq_append_cons_of_mem (List.mem_reverse.2 ha)
  refine ⟨behind.reverse, before.reverse, ?_, fun hmem => hbefore (List.mem_reverse.1 hmem)⟩
  rw [← List.reverse_reverse items, hitems]
  simp

/-- Two rows that are stored for a tuple are equal. -/
theorem Row.StoredFor.unique {row other : Row} {schema : Schema} {names : List String}
    {tuple : List Value} (hlength : tuple.length = names.length)
    (hrow : row.StoredFor schema names tuple) (hother : other.StoredFor schema names tuple) :
    row = other := by
  refine Row.eq_of_get (hrow.columns_eq.trans hother.columns_eq.symm) fun name hname => ?_
  rw [hrow.columns_eq] at hname
  obtain ⟨column, hcolumn, rfl⟩ := List.mem_map.1 hname
  by_cases hlisted : column.name ∈ names
  · obtain ⟨front, back, hnames, hback⟩ := exists_last_mem hlisted
    have hplace : front.length < tuple.length := by
      rw [hlength, hnames, List.length_append, List.length_cons]
      omega
    have hvalue := List.getElem?_eq_getElem hplace
    rw [hrow.get_listed column hcolumn front back hnames hback _ hvalue,
      hother.get_listed column hcolumn front back hnames hback _ hvalue]
  · rw [hrow.get_unlisted column hcolumn hlisted, hother.get_unlisted column hcolumn hlisted]

namespace Table

/-! Insertions. -/

section

variable {table after : Table} {columns : Option (List String)} {names : List String}
  {tuples : List (List Value)} {result : Except Error Nat}

/-- What becomes of an insertion into the columns of some names: the table afterwards and the result. -/
inductive Inserts (table : Table) (names : List String) (tuples : List (List Value)) :
    Table → Except Error Nat → Prop
  /-- The first name that is not a column of the table is blamed, whatever the tuples are. -/
  | unknown {front back : List String} {name : String} (hnames : names = front ++ name :: back)
      (hfront : ∀ known ∈ front, known ∈ table.schema.names) (hname : name ∉ table.schema.names) :
      Inserts table names tuples table (.error (.unknownColumn name table.name))
  | miscounted (hknown : ∀ name ∈ names, name ∈ table.schema.names) {tuple : List Value}
      (htuple : tuple ∈ tuples) (hlength : tuple.length ≠ names.length) :
      Inserts table names tuples table (.error .wrongValueCount)
  /-- One row for each tuple is added behind the rows that there are. -/
  | stored (hknown : ∀ name ∈ names, name ∈ table.schema.names)
      (hlengths : ∀ tuple ∈ tuples, tuple.length = names.length) {added : List Row}
      (hadded : List.Forall₂ (fun tuple row => row.StoredFor table.schema names tuple) tuples added) :
      Inserts table names tuples { table with rows := table.rows ++ added } (.ok tuples.length)

/-- The columns are looked up before the tuples are. -/
theorem run_insert (table : Table) (columns : Option (List String)) (tuples : List (List Value)) :
    (insert columns tuples).run table =
      match table.targets columns with
      | .error error => (table, .error error)
      | .ok targets =>
        match table.rowsOf targets tuples with
        | .error error => (table, .error error)
        | .ok rows => ({ table with rows := table.rows ++ rows }, .ok rows.length) := by
  unfold insert
  rw [run_get_bind, run_bind, run_liftM]
  cases table.targets columns with
  | error error => rfl
  | ok targets =>
    dsimp only
    rw [run_bind, run_liftM]
    cases table.rowsOf targets tuples <;> rfl

theorem targets_eq_error_iff {error : Error} :
    table.targets columns = .error error ↔
      ∃ front name back, columns.getD table.schema.names = front ++ name :: back ∧
        (∀ known ∈ front, known ∈ table.schema.names) ∧ name ∉ table.schema.names ∧
        error = .unknownColumn name table.name := by
  unfold targets
  simp only [mapM_eq_error_iff, exists_column_eq_ok_iff, column_eq_error_iff]

/-- Tuples give rows if each is as long as the list of columns, and nothing else can be wrong. -/
theorem rowsOf_eq_error_iff {targets : List Column} {error : Error} :
    table.rowsOf targets tuples = .error error ↔
      (∃ tuple ∈ tuples, tuple.length ≠ targets.length) ∧ error = .wrongValueCount := by
  have hrow (tuple : List Value) (error : Error) : table.rowOf targets tuple = .error error ↔
      tuple.length ≠ targets.length ∧ error = .wrongValueCount := by
    unfold rowOf
    split <;> simp_all [eq_comm]
  constructor
  · intro hrows
    obtain ⟨front, tuple, back, rfl, -, herror⟩ := mapM_eq_error_iff.1 hrows
    rw [hrow] at herror
    exact ⟨⟨tuple, by simp, herror.1⟩, herror.2⟩
  · rintro ⟨⟨tuple, htuple, hlength⟩, rfl⟩
    cases hrows : table.rowsOf targets tuples with
    | ok rows =>
      obtain ⟨row, hok⟩ := exists_mapM_eq_ok_iff.1 ⟨rows, hrows⟩ tuple htuple
      rw [(hrow tuple _).2 ⟨hlength, rfl⟩] at hok
      cases hok
    | error error =>
      obtain ⟨front, other, back, -, -, herror⟩ := mapM_eq_error_iff.1 hrows
      rw [((hrow other error).1 herror).2]

theorem run_insert_of_miscounted
    (hknown : ∀ name ∈ columns.getD table.schema.names, name ∈ table.schema.names)
    {tuple : List Value} (htuple : tuple ∈ tuples)
    (hlength : tuple.length ≠ (columns.getD table.schema.names).length) :
    (insert columns tuples).run table = (table, .error .wrongValueCount) := by
  obtain ⟨targets, htargets⟩ := exists_targets_iff.2 hknown
  rw [← length_of_targets htargets] at hlength
  have hrows : table.rowsOf targets tuples = .error .wrongValueCount :=
    rowsOf_eq_error_iff.2 ⟨⟨tuple, htuple, hlength⟩, rfl⟩
  rw [run_insert, htargets]
  dsimp only
  rw [hrows]

theorem rows_inj (hlengths : ∀ tuple ∈ tuples, tuple.length = names.length) {rows others : List Row}
    (hrows : List.Forall₂ (fun tuple row => row.StoredFor table.schema names tuple) tuples rows)
    (hothers : List.Forall₂ (fun tuple row => row.StoredFor table.schema names tuple) tuples others) :
    rows = others := by
  induction hrows generalizing others with
  | nil =>
    cases hothers
    rfl
  | cons hrow _ ih =>
    cases hothers with
    | cons hother hrest =>
      obtain ⟨hlength, hlengths⟩ := List.forall_mem_cons.1 hlengths
      rw [hrow.unique hlength hother, ih hlengths hrest]

/-- Something becomes of every insertion. -/
theorem inserts_run (table : Table) (columns : Option (List String)) (tuples : List (List Value)) :
    table.Inserts (columns.getD table.schema.names) tuples ((insert columns tuples).run table).1
      ((insert columns tuples).run table).2 := by
  cases htargets : table.targets columns with
  | error error =>
    obtain ⟨front, name, back, hnames, hfront, hname, rfl⟩ := targets_eq_error_iff.1 htargets
    rw [run_insert, htargets]
    exact .unknown hnames hfront hname
  | ok targets =>
    have hknown := exists_targets_iff.1 ⟨targets, htargets⟩
    by_cases hlengths : ∀ tuple ∈ tuples, tuple.length = (columns.getD table.schema.names).length
    · rw [run_insert_of_lengths hknown hlengths]
      exact .stored hknown hlengths (table.schema.storedFor_map_rowFor columns tuples)
    · simp only [not_forall] at hlengths
      obtain ⟨tuple, htuple, hlength⟩ := hlengths
      rw [run_insert_of_miscounted hknown htuple hlength]
      exact .miscounted hknown htuple hlength

/-- Nothing but what the relation tells becomes of an insertion. -/
theorem Inserts.run_eq
    (hinserts : table.Inserts (columns.getD table.schema.names) tuples after result) :
    (insert columns tuples).run table = (after, result) := by
  cases hinserts with
  | unknown hnames hfront hname =>
    rw [run_insert, targets_eq_error_iff.2 ⟨_, _, _, hnames, hfront, hname, rfl⟩]
  | miscounted hknown htuple hlength => exact run_insert_of_miscounted hknown htuple hlength
  | @stored hknown hlengths added hadded =>
    suffices heq : added = tuples.map (table.schema.rowFor columns) by
      rw [run_insert_of_lengths hknown hlengths, heq]
    exact rows_inj hlengths hadded (table.schema.storedFor_map_rowFor columns tuples)

/-- An insertion of any number of tuples into any columns, of which some may be unknown, listed twice or
    left out. It fails and changes nothing, or adds the rows that are stored for the tuples. -/
theorem rows_inserted_as_listed (table after : Table) (columns : Option (List String))
    (tuples : List (List Value)) (result : Except Error Nat) :
    (insert columns tuples).run table = (after, result) ↔
      table.Inserts (columns.getD table.schema.names) tuples after result := by
  constructor
  · intro hrun
    have hinserts := inserts_run table columns tuples
    rwa [hrun] at hinserts
  · exact Inserts.run_eq

/-- A column that is listed twice has the last value, and one that is not listed is NULL. -/
example : (insert (some ["label", "label"]) [[.text "tin", .text "barrel"]]).run Session.stock =
    ({ Session.stock with
      rows := Session.stock.rows ++ [.ofList [("id", .null), ("label", .text "bar")]] }, .ok 1) :=
  rfl

end

/-! Deletions and updates at given places. -/

/-- A place counts once, however often it is given, and only if it has a row. -/
theorem countP_range_mem_eq (handles : List Nat) (count : Nat) :
    (List.range count).countP (· ∈ handles) = handles.dedup.countP (· < count) := by
  rw [List.countP_eq_length_filter, List.countP_eq_length_filter]
  apply List.Perm.length_eq
  apply (List.perm_ext_iff_of_nodup (List.nodup_range.filter _) (handles.nodup_dedup.filter _)).2
  intro place
  simp only [List.mem_filter, List.mem_range, List.mem_dedup, decide_eq_true_eq]
  exact and_comm

section

variable {table after : Table} {handles : List Nat} {assignments : List Assignment}
  {result : Except Error Nat}

/-- What becomes of an update at given places: the table afterwards and the result. -/
inductive Updates (table : Table) (handles : List Nat) (assignments : List Assignment) :
    Table → Except Error Nat → Prop
  /-- The first column that the table does not have is blamed, whatever the places are. -/
  | unknown {front back : List Assignment} {assignment : Assignment}
      (hassignments : assignments = front ++ assignment :: back)
      (hfront : ∀ earlier ∈ front, earlier.column ∈ table.schema.names)
      (hcolumn : assignment.column ∉ table.schema.names) :
      Updates table handles assignments table
        (.error (.unknownColumn assignment.column table.name))
  /-- Every row stays at its place. A place counts as often as it is given, if it has a row. -/
  | updated (hknown : ∀ assignment ∈ assignments, assignment.column ∈ table.schema.names)
      {rows : List Row} (hlength : rows.length = table.rows.length)
      (hrows : ∀ place old, table.rows[place]? = some old → ∃ new, rows[place]? = some new ∧
        (place ∈ handles → UpdatedBy table.schema assignments old new) ∧
        (place ∉ handles → new = old)) :
      Updates table handles assignments { table with rows }
        (.ok (handles.countP (· < table.rows.length)))

/-- Two rows that an update makes of a row are equal. -/
theorem UpdatedBy.unique {old new other : Row} (hold : old.columns = table.schema.names)
    (hnew : UpdatedBy table.schema assignments old new)
    (hother : UpdatedBy table.schema assignments old other) : new = other := by
  refine Row.eq_of_get (hnew.columns_eq.trans hother.columns_eq.symm) fun name hname => ?_
  rw [hnew.columns_eq, hold] at hname
  obtain ⟨column, hcolumn, rfl⟩ := List.mem_map.1 hname
  rw [hnew.get_eq column hcolumn, hother.get_eq column hcolumn]

theorem cellsOf_eq_error_iff {error : Error} :
    table.cellsOf assignments = .error error ↔
      ∃ front assignment back, assignments = front ++ assignment :: back ∧
        (∀ earlier ∈ front, earlier.column ∈ table.schema.names) ∧
        assignment.column ∉ table.schema.names ∧
        error = .unknownColumn assignment.column table.name := by
  have hcell (assignment : Assignment) : (do
      pure (← table.column assignment.column, assignment.value) : Except Error (Column × Value)) =
        .error error ↔ table.column assignment.column = .error error := by
    rw [bind_eq_error_iff]
    simp [pure, Except.pure]
  unfold cellsOf
  simp only [mapM_eq_error_iff, exists_cell_iff, hcell, column_eq_error_iff]

theorem run_update_of_error {error : Error} (hcells : table.cellsOf assignments = .error error)
    (handles : List Nat) : (update handles assignments).run table = (table, .error error) := by
  unfold update
  rw [run_get_bind, run_bind, run_liftM, hcells]

/-- Something becomes of every update. -/
theorem updates_run (hrows : ∀ row ∈ table.rows, row.columns = table.schema.names)
    (handles : List Nat) (assignments : List Assignment) :
    table.Updates handles assignments ((update handles assignments).run table).1
      ((update handles assignments).run table).2 := by
  cases hcells : table.cellsOf assignments with
  | error error =>
    obtain ⟨front, assignment, back, hassignments, hfront, hcolumn, rfl⟩ :=
      cellsOf_eq_error_iff.1 hcells
    rw [run_update_of_error hcells]
    exact .unknown hassignments hfront hcolumn
  | ok cells =>
    have hknown := exists_cellsOf_iff.1 ⟨cells, hcells⟩
    obtain ⟨rows, hrun, hlength, hplaces⟩ := run_update hknown hrows handles
    rw [hrun]
    exact .updated hknown hlength hplaces

/-- Nothing but what the relation tells becomes of an update. -/
theorem Updates.run_eq (hrows : ∀ row ∈ table.rows, row.columns = table.schema.names)
    (hupdates : table.Updates handles assignments after result) :
    (update handles assignments).run table = (after, result) := by
  cases hupdates with
  | unknown hassignments hfront hcolumn =>
    exact run_update_of_error
      (cellsOf_eq_error_iff.2 ⟨_, _, _, hassignments, hfront, hcolumn, rfl⟩) handles
  | @updated hknown rows hlength hplaces =>
    obtain ⟨others, hrun, hcount, hothers⟩ := run_update hknown hrows handles
    suffices heq : others = rows by rw [hrun, heq]
    apply List.ext_getElem?
    intro place
    cases hold : table.rows[place]? with
    | none =>
      rw [List.getElem?_eq_none_iff] at hold
      rw [List.getElem?_eq_none (hcount ▸ hold), List.getElem?_eq_none (hlength ▸ hold)]
    | some old =>
      obtain ⟨new, hnew, hat, hout⟩ := hplaces place old hold
      obtain ⟨other, hother, hotherAt, hotherOut⟩ := hothers place old hold
      rw [hnew, hother]
      by_cases hplace : place ∈ handles
      · have hcolumns := hrows old (List.mem_of_getElem? hold)
        rw [(hotherAt hplace).unique hcolumns (hat hplace)]
      · rw [hotherOut hplace, hout hplace]

end

/-- Deletions and updates at any places, in any order, of which some may be given twice or have no row.
    A deletion leaves the rows at all other places and counts each place once; what becomes of an update
    is what the relation tells. -/
theorem rows_changed_at_places {table : Table}
    (hrows : ∀ row ∈ table.rows, row.columns = table.schema.names) (handles : List Nat) :
    (delete handles).run table = ({ table with rows := table.rowsExcept handles },
      .ok (handles.dedup.countP (· < table.rows.length))) ∧
    ∀ assignments after result, (update handles assignments).run table = (after, result) ↔
      table.Updates handles assignments after result := by
  constructor
  · rw [run_delete, countP_range_mem_eq]
  · intro assignments after result
    refine ⟨fun hrun => ?_, Updates.run_eq hrows⟩
    have hupdates := updates_run hrows handles assignments
    rwa [hrun] at hupdates

end Table

namespace Session

/-- Two assignments to a column, of which the first does not count. -/
def relabel : List Assignment :=
  [⟨"label", .text "tin"⟩, ⟨"label", .text "barrel"⟩]

/-- Of the places 1, 7 and 1 one has a row. It is deleted once, but an update counts it twice. -/
theorem rows_changed_at_places_stock :
    (Table.delete [1, 7, 1]).run stock = ({ stock with rows := [box, crate] }, .ok 1) ∧
      ∃ after, (Table.update [1, 7, 1] relabel).run stock = (after, .ok 2) ∧
        stock.Updates [1, 7, 1] relabel after (.ok 2) ∧
        after.rows = [box, .ofList [("id", .integer 7), ("label", .text "bar")], crate] := by
  have hrows : ∀ row ∈ stock.rows, row.columns = stock.schema.names := by decide
  obtain ⟨hdelete, hupdate⟩ := Table.rows_changed_at_places hrows [1, 7, 1]
  exact ⟨hdelete, _, rfl, (hupdate relabel _ (.ok 2)).1 rfl, rfl⟩

end Session

end TableEngine
