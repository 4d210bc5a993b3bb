import TableEngine.Proofs.History
import TableEngine.Proofs.Selection

/-!
Clauses with a single condition. A comparison by order picks the rows for which it holds
(`Table.select_only`), and the comparisons of a column with one literal split the rows of a table among
them (`Session.Reachable.comparisons_split`).
-/

namespace TableEngine

open Regex (Library)

/-- The clause with a single condition, which leaves the rows as they are stored. -/
def Clause.only (condition : Condition) : Clause :=
  ⟨[condition], none, .ascending, none⟩

namespace Condition

theorem holds_of_ne_null {condition : Condition} {cell : Value}
    (hliteral : condition.literal ≠ .null) (hcell : cell ≠ .null)
    (hcomparison : condition.comparison ≠ .like) :
    condition.holds cell = condition.comparison.holdsFor (cell.compareRead condition.literal) := by
  unfold holds
  split
  · next hnull => exact absurd hnull hliteral
  · exact absurd rfl hcell
  · split
    · next hlike => exact absurd hlike hcomparison
    · rfl

theorem pattern?_of_ne_like {condition : Condition} (hcomparison : condition.comparison ≠ .like) :
    condition.pattern? = none := by
  unfold pattern?
  split
  · rfl
  · next hlike _ => exact absurd hlike hcomparison
  · rfl

/-- NULL is equal to NULL alone, whether it stands in the cell or in the condition. -/
theorem holds_null_literal (column : String) (comparison : Comparison) (cell : Value) :
    holds ⟨column, comparison, .null⟩ cell =
      (comparison == .eq && cell.isNull || comparison == .ne && !cell.isNull) := by
  cases comparison <;> cases cell <;> rfl

theorem holds_null_cell {condition : Condition} (hliteral : condition.literal ≠ .null) :
    condition.holds .null = (condition.comparison == .ne) := by
  unfold holds
  split
  · next hnull => exact absurd hnull hliteral
  · rfl
  · next hcell => exact absurd rfl hcell

theorem holds_ne (column : String) (literal cell : Value) :
    holds ⟨column, .ne, literal⟩ cell = !holds ⟨column, .eq, literal⟩ cell := by
  cases literal <;> cases cell <;> rfl

/-- A comparison by order other than inequality holds for no NULL, and for any other cell by how it
    compares with the literal. -/
theorem holds_iff {condition : Condition} (hliteral : condition.literal ≠ .null)
    (hlike : condition.comparison ≠ .like) (hne : condition.comparison ≠ .ne) (cell : Value) :
    condition.holds cell = true ↔
      cell ≠ .null ∧ condition.comparison.holdsFor (cell.compareRead condition.literal) = true := by
  by_cases hcell : cell = .null
  · simp [hcell, holds_null_cell hliteral, hne]
  · simp [hcell, holds_of_ne_null hliteral hcell hlike]

end Condition

/-- A value compares as equal with itself. -/
theorem Value.compareRead_self (value : Value) : value.compareRead value = .eq := by
  unfold compareRead
  cases value.asInteger <;> exact Std.ReflOrd.compare_self

/-- Every value is equal to itself, NULL included. -/
theorem Condition.holds_eq_self (column : String) (value : Value) :
    holds ⟨column, .eq, value⟩ value = true := by
  by_cases hnull : value = .null
  · simp [hnull, holds_null_literal, Value.isNull]
  · rw [holds_of_ne_null hnull hnull (Comparison.noConfusion ·), Value.compareRead_self]
    rfl

namespace Table

theorem select_only_of_appliesTo [Library] {table : Table} {condition : Condition}
    (hrows : ∀ row ∈ table.rows, row.columns = table.schema.names)
    (hcolumn : condition.column ∈ table.schema.names)
    (happlies : condition.appliesTo table.schema = true) (hpatterns : PatternsCompile (.only condition)) :
    ∃ selection, table.select .all (.only condition) = .ok selection ∧
      ∀ place, place ∈ selection.handles ↔ ∃ row, table.rows[place]? = some row ∧
        condition.holds (row.get condition.column) = true := by
  have hall : ∀ column ∈ table.columnsOf .all, column ∈ table.schema.names := fun _ hname => hname
  have hchecked : (Clause.only condition).conditions.forM table.checkCondition = .ok () := by
    rw [forM_checkCondition hpatterns]
    exact checkColumns_eq_ok_iff.2 (List.forall_mem_singleton.2 hcolumn)
  have hasked : ∀ other ∈ (Clause.only condition).conditions, other.appliesTo table.schema = true :=
    List.forall_mem_singleton.2 happlies
  obtain ⟨picked, hscan, hpicks⟩ := picks_of_scan hrows hall hasked
  refine ⟨_, select_eq_ok_iff.2 ⟨checkColumns_eq_ok_iff.2 hall, hchecked, rfl, picked, hscan, rfl⟩, ?_⟩
  intro place
  have hreaches : table.Reaches (.only condition) place := fun n hn => nomatch hn
  refine (hpicks.mem_handles_iff place).trans (exists_congr fun row => and_congr_right' ?_)
  have hholds : (Clause.only condition).holdsFor row = condition.holds (row.get condition.column) := by
    simp [Clause.holdsFor, Clause.only]
  rw [hholds, and_iff_left hreaches]

/-- A comparison by order picks every row for which it holds. -/
theorem select_only {table : Table} {condition : Condition}
    (hrows : ∀ row ∈ table.rows, row.columns = table.schema.names)
    (hcolumn : condition.column ∈ table.schema.names) (hcomparison : condition.comparison ≠ .like) :
    ∃ selection, table.select .all (.only condition) = .ok selection ∧
      ∀ place, place ∈ selection.handles ↔ ∃ row, table.rows[place]? = some row ∧
        condition.holds (row.get condition.column) = true := by
  apply select_only_of_appliesTo hrows hcolumn
  · simp [Condition.appliesTo, hcomparison]
  · intro other hother pattern hpattern
    obtain rfl := List.mem_singleton.1 hother
    rw [Condition.pattern?_of_ne_like hcomparison] at hpattern
    cases hpattern

/-- The places of a table's rows as the comparisons of a column with a literal split them. -/
structure Splits (table : Table) (column : String) (literal : Value)
    (found : Comparison → List Nat) : Prop where
  /-- No comparison is an error, and each picks the places given for it. -/
  picked : ∀ comparison, comparison ≠ .like → ∃ selection,
    table.select .all (.only ⟨column, comparison, literal⟩) = .ok selection ∧
      selection.handles = found comparison
  mem_ne_iff : ∀ place, place ∈ found .ne ↔ place < table.rows.length ∧ place ∉ found .eq
  /-- The literal of a stored cell finds the row of that cell. -/
  own : ∀ place row, table.rows[place]? = some row → row.get column = literal → place ∈ found .eq
  disjoint : literal ≠ .null → [found .lt, found .eq, found .gt].Pairwise List.Disjoint
  covered : literal ≠ .null → ∀ place,
    (place ∈ found .lt ∨ place ∈ found .eq ∨ place ∈ found .gt) ↔
      ∃ row, table.rows[place]? = some row ∧ row.get column ≠ .null
  mem_le_iff : literal ≠ .null → ∀ place,
    place ∈ found .le ↔ place ∈ found .lt ∨ place ∈ found .eq
  mem_ge_iff : literal ≠ .null → ∀ place,
    place ∈ found .ge ↔ place ∈ found .gt ∨ place ∈ found .eq
  mem_eq_null_iff : literal = .null → ∀ place,
    place ∈ found .eq ↔ ∃ row, table.rows[place]? = some row ∧ row.get column = .null
  unordered : literal = .null →
    ∀ comparison ∈ [Comparison.lt, .gt, .le, .ge], found comparison = []

/-- Every comparison by order finds the rows for which it holds. -/
def Finds (table : Table) (column : String) (literal : Value) (found : Comparison → List Nat) : Prop :=
  ∀ comparison, comparison ≠ .like → ∀ place, place ∈ found comparison ↔
    ∃ row, table.rows[place]? = some row ∧
      Condition.holds ⟨column, comparison, literal⟩ (row.get column) = true

namespace Finds

variable {table : Table} {column : String} {literal : Value} {found : Comparison → List Nat}

theorem mem_iff (hfinds : table.Finds column literal found) (hliteral : literal ≠ .null)
    (comparison : Comparison) (hlike : comparison ≠ .like) (hne : comparison ≠ .ne) (place : Nat) :
    place ∈ found comparison ↔ ∃ row, table.rows[place]? = some row ∧ row.get column ≠ .null ∧
      comparison.holdsFor ((row.get column).compareRead literal) = true := by
  rw [hfinds comparison hlike]
  exact exists_congr fun row => and_congr_right' (Condition.holds_iff hliteral hlike hne _)

theorem disjoint (hfinds : table.Finds column literal found) (hliteral : literal ≠ .null)
    {first second : Comparison} (hfirst : first ≠ .like ∧ first ≠ .ne)
    (hsecond : second ≠ .like ∧ second ≠ .ne)
    (hexclude : ∀ order, first.holdsFor order = true → second.holdsFor order = false) :
    (found first).Disjoint (found second) := by
  intro place hplace hplace'
  obtain ⟨row, hrow, -, hholds⟩ := (hfinds.mem_iff hliteral _ hfirst.1 hfirst.2 _).1 hplace
  obtain ⟨other, hother, -, hholds'⟩ := (hfinds.mem_iff hliteral _ hsecond.1 hsecond.2 _).1 hplace'
  obtain rfl := Option.some.inj (hrow.symm.trans hother)
  rw [hexclude _ hholds] at hholds'
  cases hholds'

/-- A comparison that allows what either of two others allows finds what either of them finds. -/
theorem mem_iff_or (hfinds : table.Finds column literal found) (hliteral : literal ≠ .null)
    {either first second : Comparison} (heither : either ≠ .like ∧ either ≠ .ne)
    (hfirst : first ≠ .like ∧ first ≠ .ne) (hsecond : second ≠ .like ∧ second ≠ .ne)
    (hallows : ∀ order, either.holdsFor order = (first.holdsFor order || second.holdsFor order))
    (place : Nat) : place ∈ found either ↔ place ∈ found first ∨ place ∈ found second := by
  rw [hfinds.mem_iff hliteral _ heither.1 heither.2, hfinds.mem_iff hliteral _ hfirst.1 hfirst.2,
    hfinds.mem_iff hliteral _ hsecond.1 hsecond.2, ← exists_or]
  refine exists_congr fun row => ?_
  rw [hallows, Bool.or_eq_true, ← and_or_left, ← and_or_left]

theorem mem_ne_iff (hfinds : table.Finds column literal found) (place : Nat) :
    place ∈ found .ne ↔ place < table.rows.length ∧ place ∉ found .eq := by
  rw [hfinds .ne nofun, hfinds .eq nofun]
  simp only [Condition.holds_ne]
  cases hrow : table.rows[place]? with
  | none => simpa using hrow
  | some row =>
    obtain ⟨hplace, -⟩ := List.getElem?_eq_some_iff.1 hrow
    simp [hplace]

theorem splits (hfinds : table.Finds column literal found)
    (hpicked : ∀ comparison, comparison ≠ .like → ∃ selection,
      table.select .all (.only ⟨column, comparison, literal⟩) = .ok selection ∧
        selection.handles = found comparison) :
    table.Splits column literal found := by
  constructor
  case picked => exact hpicked
  case mem_ne_iff => exact hfinds.mem_ne_iff
  case own =>
    rintro place row hrow rfl
    exact (hfinds .eq nofun place).2 ⟨row, hrow, Condition.holds_eq_self column _⟩
  case disjoint =>
    intro hliteral
    have hbelow : (found .lt).Disjoint (found .eq) := by
      refine hfinds.disjoint hliteral ⟨nofun, nofun⟩ ⟨nofun, nofun⟩ ?_
      rintro (_ | _ | _) <;> simp [Comparison.holdsFor]
    have hends : (found .lt).Disjoint (found .gt) := by
      refine hfinds.disjoint hliteral ⟨nofun, nofun⟩ ⟨nofun, nofun⟩ ?_
      rintro (_ | _ | _) <;> simp [Comparison.holdsFor]
    have habove : (found .eq).Disjoint (found .gt) := by
      refine hfinds.disjoint hliteral ⟨nofun, nofun⟩ ⟨nofun, nofun⟩ ?_
      rintro (_ | _ | _) <;> simp [Comparison.holdsFor]
    simp [hbelow, hends, habove]
  case covered =>
    intro hliteral place
    rw [hfinds.mem_iff hliteral .lt nofun nofun, hfinds.mem_iff hliteral .eq nofun nofun,
      hfinds.mem_iff hliteral .gt nofun nofun, ← exists_or, ← exists_or]
    refine exists_congr fun row => ?_
    cases (row.get column).compareRead literal <;> simp [Comparison.holdsFor]
  case mem_le_iff =>
    intro hliteral
    exact hfinds.mem_iff_or hliteral ⟨nofun, nofun⟩ ⟨nofun, nofun⟩ ⟨nofun, nofun⟩
      fun order => by cases order <;> rfl
  case mem_ge_iff =>
    intro hliteral
    exact hfinds.mem_iff_or hliteral ⟨nofun, nofun⟩ ⟨nofun, nofun⟩ ⟨nofun, nofun⟩
      fun order => by cases order <;> rfl
  case mem_eq_null_iff =>
    rintro rfl place
    rw [hfinds .eq nofun]
    refine exists_congr fun row => and_congr_right' ?_
    cases row.get column <;> simp [Condition.holds_null_literal, Value.isNull]
  case unordered =>
    rintro rfl comparison hcomparison
    have hother : comparison ≠ .like ∧ comparison ≠ .eq ∧ comparison ≠ .ne := by
      refine ⟨?_, ?_, ?_⟩ <;> rintro rfl <;> simp at hcomparison
    apply List.eq_nil_iff_forall_not_mem.2
    intro place hplace
    obtain ⟨row, -, hholds⟩ := (hfinds comparison hother.1 place).1 hplace
    simp [Condition.holds_null_literal, hother] at hholds

end Finds

/-- The comparisons with a literal split the rows of a table if these have the columns of its schema. -/
theorem exists_splits {table : Table} (hrows : ∀ row ∈ table.rows, row.columns = table.schema.names)
    {column : String} (hcolumn : column ∈ table.schema.names) (literal : Value) :
    ∃ found, table.Splits column literal found := by
  have hselect (comparison : Comparison) : ∃ places : List Nat, comparison ≠ .like →
      (∃ selection, table.select .all (.only ⟨column, comparison, literal⟩) = .ok selection ∧
        selection.handles = places) ∧
      ∀ place, place ∈ places ↔ ∃ row, table.rows[place]? = some row ∧
        Condition.holds ⟨column, comparison, literal⟩ (row.get column) = true := by
    by_cases hlike : comparison = .like
    · exact ⟨[], fun hother => absurd hlike hother⟩
    · let condition : Condition := ⟨column, comparison, literal⟩
      have hknown : condition.column ∈ table.schema.names := hcolumn
      obtain ⟨selection, hselect, hmem⟩ := select_only hrows hknown hlike
      exact ⟨selection.handles, fun _ => ⟨⟨selection, hselect, rfl⟩, hmem⟩⟩
  choose found hfound using hselect
  have hfinds : table.Finds column literal found := fun comparison hlike => (hfound comparison hlike).2
  exact ⟨found, hfinds.splits fun comparison hlike => (hfound comparison hlike).1⟩

end Table

namespace Session

/-- The comparisons of a column with a literal split the rows of every table that can come about. -/
theorem Reachable.comparisons_split {session : Session} (hreachable : session.Reachable)
    {databaseName name : String} {table : Table}
    (htable : session.tableIn databaseName name = some table) {column : String}
    (hcolumn : column ∈ table.schema.names) (literal : Value) :
    ∃ found, table.Splits column literal found := by
  obtain ⟨-, hwell⟩ := hreachable.storedAs htable
  exact Table.exists_splits (fun row hrow => (hwell.fits row hrow).columns_eq) hcolumn literal

/-- The first label of the stocked session is found by its letters in other letter case, and the second
    one comes before it. -/
theorem comparisons_split_stocked :
    ∃ table found, stocked.tableIn "shop" "stock" = some table ∧ "label" ∈ table.schema.names ∧
      [Comparison.lt, .eq, .gt, .le, .ge, .ne].map found = [[1], [0], [], [0, 1], [0], [1]] ∧
      table.Splits "label" (.text "CRA") found := by
  obtain ⟨table, htable, hnames⟩ : ∃ table : Table, stocked.tableIn "shop" "stock" = some table ∧
      table.schema.names = ["id", "label"] := ⟨_, rfl, rfl⟩
  have hcolumn : "label" ∈ table.schema.names := by simp [hnames]
  obtain ⟨found, hsplits⟩ := reachable_stocked.comparisons_split htable hcolumn (.text "CRA")
  have hpicked (comparison : Comparison) (hlike : comparison ≠ .like) :
      (stocked.tableIn "shop" "stock").map (fun table =>
        (table.select .all (.only ⟨"label", comparison, .text "CRA"⟩)).map Selection.handles) =
          some (.ok (found comparison)) := by
    obtain ⟨selection, hselect, hhandles⟩ := hsplits.picked comparison hlike
    rw [htable, Option.map_some, hselect, ← hhandles]
    rfl
  have hruns : [Comparison.lt, .eq, .gt, .le, .ge, .ne].map (fun comparison =>
      (stocked.tableIn "shop" "stock").map fun table =>
        (table.select .all (.only ⟨"label", comparison, .text "CRA"⟩)).map Selection.handles) =
      [[1], [0], [], [0, 1], [0], [1]].map fun places => some (.ok places) := by
    decide +kernel
  exact ⟨table, found, htable, hcolumn, by simpa [hpicked] using hruns, hsplits⟩

end Session

end TableEngine
