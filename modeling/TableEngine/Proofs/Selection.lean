import Mathlib.Data.List.Forall2
import TableEngine.Proofs.Steps

/-!
What a clause picks, said without going through the rows in order. The rows picked are those for which
all conditions hold and in front of which the limit is not yet reached (`Table.Picks`). A pattern asked
of integers is an error only if a row is reached that meets the conditions in front of it
(`Table.AsksNumbers`).
-/

namespace TableEngine

open Regex (Library)

/-- A number of rows that the limit allows to add one to. -/
def WithinLimit (limit : Option Nat) (count : Nat) : Prop :=
  ∀ n, limit = some n → count < n

theorem not_withinLimit_zero (count : Nat) : ¬WithinLimit (some 0) count :=
  fun hlimit => absurd (hlimit 0 rfl) (Nat.not_lt_zero count)

theorem withinLimit_zero_iff {limit : Option Nat} : WithinLimit limit 0 ↔ limit ≠ some 0 := by
  constructor
  · rintro hlimit rfl
    exact not_withinLimit_zero 0 hlimit
  · intro hlimit n hn
    exact Nat.pos_of_ne_zero fun hzero => hlimit (hzero ▸ hn)

theorem withinLimit_pred {limit : Option Nat} {count : Nat} (hlimit : limit ≠ some 0) :
    WithinLimit (limit.map (· - 1)) count ↔ WithinLimit limit (count + 1) := by
  cases limit with
  | none => simp [WithinLimit]
  | some n =>
    have hn : n ≠ 0 := fun hzero => hlimit (by rw [hzero])
    simp only [WithinLimit, Option.map_some, Option.some.injEq, forall_eq']
    omega

namespace Condition

/-- Whether a condition asks for a pattern in a column that stores integers. -/
def likesNumbers (condition : Condition) (schema : Schema) : Bool :=
  condition.comparison == .like &&
    schema.columns.any fun column =>
      column.name == condition.column && !column.type.kind.holdsText

theorem appliesTo_eq_not_likesNumbers {condition : Condition} {schema : Schema}
    (hcolumn : condition.column ∈ schema.names) :
    condition.appliesTo schema = !condition.likesNumbers schema := by
  obtain ⟨column, hmem, hname⟩ := List.mem_map.1 hcolumn
  have hfind : schema.find? condition.column = some column :=
    Schema.find?_eq_some_iff.2 ⟨hmem, hname⟩
  have hany : (schema.columns.any fun other =>
      other.name == condition.column && !other.type.kind.holdsText) =
        !column.type.kind.holdsText := by
    rw [Bool.eq_iff_iff, List.any_eq_true]
    constructor
    · rintro ⟨other, hother, htext⟩
      simp only [Bool.and_eq_true, beq_iff_eq] at htext
      have hsame := Schema.find?_eq_some_iff.2 ⟨hother, htext.1⟩
      obtain rfl := Option.some.inj (hfind.symm.trans hsame)
      exact htext.2
    · intro htext
      exact ⟨column, hmem, by simp [hname, htext]⟩
  rw [appliesTo, likesNumbers, hfind, hany, Option.any_some, Bool.not_and, Bool.not_not]
  rfl

end Condition

/-- Whether all conditions of a clause hold for a row. -/
def Clause.holdsFor [Library] (clause : Clause) (row : Row) : Bool :=
  clause.conditions.all fun condition => condition.holds (row.get condition.column)

namespace Table

theorem not_mem_of_sublist_zipIdx {picked : List (Row × Nat)} {rows : List Row} {start : Nat}
    (hsublist : picked.Sublist (rows.zipIdx (start + 1))) (row : Row) : (row, start) ∉ picked := by
  intro hmem
  have hle := List.le_snd_of_mem_zipIdx (hsublist.subset hmem)
  exact Nat.not_succ_le_self start hle

/-- Items that are picked out of a list stand at ever greater places of the list. -/
theorem pairwise_of_sublist_zipIdx {α : Type} {picked : List (α × Nat)} {items : List α}
    (hsublist : picked.Sublist items.zipIdx) : picked.Pairwise fun a b => a.2 < b.2 := by
  have hplaces := hsublist.map Prod.snd
  rw [List.zipIdx_map_snd] at hplaces
  exact List.pairwise_map.1 ((List.pairwise_lt_range' 1).sublist hplaces)

/-! Testing a single row. -/

section

variable [Library]

theorem meets_of_applies {schema : Schema} {conditions : List Condition}
    (happlies : ∀ condition ∈ conditions, condition.appliesTo schema = true) (row : Row) :
    meets schema row conditions =
      .ok (conditions.all fun condition => condition.holds (row.get condition.column)) := by
  induction conditions with
  | nil => rfl
  | cons condition conditions ih =>
    obtain ⟨hfirst, hothers⟩ := List.forall_mem_cons.1 happlies
    rw [meets, hfirst, List.all_cons]
    cases hholds : condition.holds (row.get condition.column) with
    | true => simpa using ih hothers
    | false => simp

/-- A row is an error if it gets as far as the first condition that cannot be asked. -/
theorem meets_of_not_applies {schema : Schema} {conditions : List Condition}
    (hexists : ∃ condition ∈ conditions, condition.appliesTo schema = false) (row : Row) :
    meets schema row conditions =
      if (conditions.takeWhile (·.appliesTo schema)).all
          fun condition => condition.holds (row.get condition.column)
      then .error (.syntaxError .likeOnNumbers) else .ok false := by
  induction conditions with
  | nil => simp at hexists
  | cons condition conditions ih =>
    cases hfirst : condition.appliesTo schema with
    | false => simp [meets, hfirst]
    | true =>
      have hothers : ∃ condition ∈ conditions, condition.appliesTo schema = false := by
        obtain ⟨other, hother, happlies⟩ := hexists
        rcases List.mem_cons.1 hother with rfl | hmem
        · rw [hfirst] at happlies
          cases happlies
        · exact ⟨other, hmem, happlies⟩
      cases hholds : condition.holds (row.get condition.column) with
      | true => simp [meets, hfirst, hholds, ih hothers]
      | false => simp [meets, hfirst, hholds]

/-! Going through the rows. -/

theorem scan_zero (schema : Schema) (conditions : List Condition) (rows : List (Row × Nat)) :
    scan schema conditions (some 0) rows = .ok [] := by
  unfold scan
  rfl

theorem scan_nil (schema : Schema) (conditions : List Condition) (limit : Option Nat) :
    scan schema conditions limit [] = .ok [] := by
  unfold scan
  split
  · rfl
  · rfl
  · next heq => cases heq

theorem scan_cons {limit : Option Nat} (hlimit : limit ≠ some 0) (schema : Schema)
    (conditions : List Condition) (row : Row) (place : Nat) (rest : List (Row × Nat)) :
    scan schema conditions limit ((row, place) :: rest) = (do
      if ← meets schema row conditions then
        let others ← scan schema conditions (limit.map (· - 1)) rest
        pure ((row, place) :: others)
      else scan schema conditions limit rest) := by
  rw [scan]
  exact fun hzero => hlimit hzero

variable {schema : Schema} {conditions : List Condition} {holdsFor : Row → Bool}

/-- If every row can be tested, the rows picked are those that meet the conditions, as long as the
    limit is not reached in front of them. -/
theorem scan_of_meets_eq_ok (hmeets : ∀ row, meets schema row conditions = .ok (holdsFor row))
    (limit : Option Nat) (rows : List Row) (start : Nat) :
    ∃ picked, scan schema conditions limit (rows.zipIdx start) = .ok picked ∧
      picked.Sublist (rows.zipIdx start) ∧
      ∀ row place, (row, start + place) ∈ picked ↔
        rows[place]? = some row ∧ holdsFor row = true ∧
          WithinLimit limit ((rows.take place).countP holdsFor) := by
  induction rows generalizing limit start with
  | nil => exact ⟨[], scan_nil schema conditions limit, List.Sublist.refl _, by simp⟩
  | cons first rows ih =>
    by_cases hlimit : limit = some 0
    · subst hlimit
      refine ⟨[], scan_zero schema conditions _, List.nil_sublist _, ?_⟩
      simp [not_withinLimit_zero]
    · rw [List.zipIdx_cons, scan_cons hlimit, hmeets]
      cases hfirst : holdsFor first with
      | true =>
        obtain ⟨others, hscan, hsublist, hmem⟩ := ih (limit.map (· - 1)) (start + 1)
        refine ⟨(first, start) :: others, ?_, hsublist.cons_cons _, ?_⟩
        · simp [bind, Except.bind, hscan, pure, Except.pure]
        · intro row place
          cases place with
          | zero =>
            have hbehind := not_mem_of_sublist_zipIdx hsublist row
            simp only [Nat.add_zero, List.mem_cons, Prod.mk.injEq, and_true, hbehind, or_false,
              List.getElem?_cons_zero, Option.some.injEq, List.take_zero, List.countP_nil,
              withinLimit_zero_iff]
            exact ⟨fun hrow => ⟨hrow.symm, hrow ▸ hfirst, hlimit⟩, fun hrow => hrow.1.symm⟩
          | succ place =>
            have hother := hmem row place
            rw [withinLimit_pred hlimit, Nat.add_right_comm, Nat.add_assoc] at hother
            simp only [List.mem_cons, Prod.mk.injEq, Nat.add_eq_left, Nat.add_one_ne_zero, and_false,
              false_or, hother, List.getElem?_cons_succ, List.take_succ_cons, List.countP_cons, hfirst,
              if_true]
      | false =>
        obtain ⟨others, hscan, hsublist, hmem⟩ := ih limit (start + 1)
        refine ⟨others, ?_, hsublist.cons _, ?_⟩
        · simp [bind, Except.bind, hscan]
        · intro row place
          cases place with
          | zero =>
            have hbehind := not_mem_of_sublist_zipIdx hsublist row
            simp only [Nat.add_zero, hbehind, List.getElem?_cons_zero, Option.some.injEq, false_iff]
            rintro ⟨rfl, hrow, -⟩
            rw [hfirst] at hrow
            cases hrow
          | succ place =>
            have hother := hmem row place
            rw [Nat.add_right_comm, Nat.add_assoc] at hother
            simp only [hother, List.getElem?_cons_succ, List.take_succ_cons, List.countP_cons, hfirst,
              Bool.false_eq_true, if_false, Nat.add_zero]

/-- If some rows are errors and all others fail to meet the conditions, going through the rows ends at
    the first error, unless the limit is zero. -/
theorem scan_of_meets_eq_error {reaches : Row → Bool} {error : Error}
    (hmeets : ∀ row, meets schema row conditions =
      if reaches row then .error error else .ok false)
    {limit : Option Nat} (hlimit : limit ≠ some 0) (rows : List (Row × Nat)) :
    scan schema conditions limit rows =
      if rows.any (reaches ·.1) then .error error else .ok [] := by
  induction rows with
  | nil => exact scan_nil schema conditions limit
  | cons entry rows ih =>
    obtain ⟨row, place⟩ := entry
    rw [scan_cons hlimit, hmeets, List.any_cons]
    cases hrow : reaches row with
    | true => rfl
    | false =>
      rw [Bool.false_or]
      exact ih

end

/-! The checks before the first row. -/

theorem checkColumns_eq (table : Table) (names : List String) :
    table.checkColumns names =
      match names.find? (· ∉ table.schema.names) with
      | some name => .error (.unknownColumn name table.name)
      | none => .ok () := by
  have hunknown : (fun name => !table.schema.contains name) =
      fun name => decide (name ∉ table.schema.names) := by
    funext name
    rw [Bool.eq_iff_iff]
    simp [← Schema.contains_iff]
  rw [← hunknown]
  rfl

theorem checkColumns_eq_ok_iff {table : Table} {names : List String} :
    table.checkColumns names = .ok () ↔ ∀ name ∈ names, name ∈ table.schema.names := by
  rw [checkColumns_eq]
  cases hfind : names.find? (· ∉ table.schema.names) with
  | none =>
    simp only [List.find?_eq_none, decide_not, Bool.not_eq_true', decide_eq_false_iff_not,
      Classical.not_not] at hfind
    exact ⟨fun _ => hfind, fun _ => rfl⟩
  | some name =>
    have hname := List.mem_of_find?_eq_some hfind
    have hunknown : name ∉ table.schema.names := by simpa using List.find?_some hfind
    constructor
    · intro heq
      cases heq
    · exact fun hknown => absurd (hknown name hname) hunknown

theorem checkColumns_eq_error {table : Table} {names : List String} {name : String}
    (hfind : names.find? (· ∉ table.schema.names) = some name) :
    table.checkColumns names = .error (.unknownColumn name table.name) := by
  rw [checkColumns_eq, hfind]

theorem checkColumns_append (table : Table) (front back : List String) :
    table.checkColumns (front ++ back) = (do
      table.checkColumns front
      table.checkColumns back) := by
  simp only [checkColumns_eq, List.find?_append]
  cases front.find? (· ∉ table.schema.names) <;> rfl

/-- The columns that a query names: those it asks for, those of its conditions and the one it orders
    by. -/
def namedColumns (table : Table) (projection : Projection) (clause : Clause) : List String :=
  table.columnsOf projection ++ clause.conditions.map Condition.column ++ clause.orderBy.toList

theorem inOrder_of_not_descending {clause : Clause}
    (horder : clause.orderBy = none ∨ clause.direction = .ascending) (picked : List (Row × Nat)) :
    inOrder clause picked = picked := by
  unfold inOrder
  split
  · next hcolumn hdirection => simp [hcolumn, hdirection] at horder
  · rfl

theorem takeWhile_appliesTo {schema : Schema} {conditions : List Condition}
    (hknown : ∀ condition ∈ conditions, condition.column ∈ schema.names) :
    conditions.takeWhile (·.appliesTo schema) =
      conditions.takeWhile (!·.likesNumbers schema) := by
  induction conditions with
  | nil => rfl
  | cons condition conditions ih =>
    obtain ⟨hfirst, hothers⟩ := List.forall_mem_cons.1 hknown
    rw [List.takeWhile_cons, List.takeWhile_cons, ih hothers,
      Condition.appliesTo_eq_not_likesNumbers hfirst]

theorem known_of_namedColumns {table : Table} {projection : Projection} {clause : Clause}
    (hknown : ∀ name ∈ table.namedColumns projection clause, name ∈ table.schema.names) :
    (∀ name ∈ table.columnsOf projection, name ∈ table.schema.names) ∧
      ∀ condition ∈ clause.conditions, condition.column ∈ table.schema.names := by
  simp only [namedColumns, List.mem_append, List.mem_map] at hknown
  constructor
  · exact fun name hname => hknown name (.inl (.inl hname))
  · exact fun condition hcondition => hknown _ (.inl (.inr ⟨condition, hcondition, rfl⟩))

/-- What is shown of the rows that were picked. -/
theorem forall₂_shownAs {table : Table} {columns : List String}
    (hrows : ∀ row ∈ table.rows, row.columns = table.schema.names)
    (hcolumns : ∀ name ∈ columns, name ∈ table.schema.names) {picked : List (Row × Nat)}
    (hpicked : ∀ entry ∈ picked, table.rows[entry.2]? = some entry.1) :
    List.Forall₂ (fun place shown => ∃ row, table.rows[place]? = some row ∧
      shown.columns = columns.eraseDups ∧ ∀ cell ∈ shown.toList, cell ∈ row.toList)
      (shownAs columns picked).handles (shownAs columns picked).rows := by
  rw [shownAs, List.forall₂_map_left_iff, List.forall₂_map_right_iff, List.forall₂_same]
  intro entry hentry
  have hplace := hpicked entry hentry
  refine ⟨entry.1, hplace, entry.1.columns_project columns, ?_⟩
  intro cell hcell
  obtain ⟨hcolumn, hvalue⟩ := Row.mem_toList_project hcell
  have hname : cell.1 ∈ entry.1.columns := by
    rw [hrows entry.1 (List.mem_of_getElem? hplace)]
    exact hcolumns _ hcolumn
  have hmem := Row.mem_toList_of_mem_columns hname
  rwa [← hvalue] at hmem

section

variable [Library]

/-- No pattern is refused. -/
def PatternsCompile (clause : Clause) : Prop :=
  ∀ condition ∈ clause.conditions, ∀ pattern, condition.pattern? = some pattern →
    (Pattern.compile pattern.toList).isSome = true

instance (clause : Clause) : Decidable (PatternsCompile clause) :=
  inferInstanceAs (Decidable (∀ condition ∈ clause.conditions, ∀ pattern ∈ condition.pattern?,
    (Pattern.compile pattern.toList).isSome = true))

theorem forM_checkCondition {table : Table} {conditions : List Condition}
    (hpatterns : ∀ condition ∈ conditions, ∀ pattern, condition.pattern? = some pattern →
      (Pattern.compile pattern.toList).isSome = true) :
    conditions.forM table.checkCondition = table.checkColumns (conditions.map Condition.column) := by
  induction conditions with
  | nil => rfl
  | cons condition conditions ih =>
    obtain ⟨hfirst, hothers⟩ := List.forall_mem_cons.1 hpatterns
    have hcheck : table.checkCondition condition = table.checkColumns [condition.column] := by
      unfold checkCondition
      cases hpattern : condition.pattern? with
      | none => cases table.checkColumns [condition.column] <;> rfl
      | some pattern =>
        simp only [hfirst pattern hpattern, if_true]
        cases table.checkColumns [condition.column] <;> rfl
    change (do
      table.checkCondition condition
      conditions.forM table.checkCondition) = _
    rw [hcheck, ih hothers]
    exact (table.checkColumns_append [condition.column] _).symm

theorem select_eq (table : Table) (projection : Projection) {clause : Clause}
    (hpatterns : PatternsCompile clause)
    (horder : clause.orderBy = none ∨ clause.direction = .ascending) :
    table.select projection clause = (do
      table.checkColumns (table.namedColumns projection clause)
      let picked ← scan table.schema clause.conditions clause.limit table.rows.zipIdx
      pure (shownAs (table.columnsOf projection) picked)) := by
  unfold select
  simp only [forM_checkCondition hpatterns, inOrder_of_not_descending horder, namedColumns,
    checkColumns_append]
  cases table.checkColumns (table.columnsOf projection) with
  | error error => rfl
  | ok u => cases table.checkColumns (clause.conditions.map Condition.column) <;> rfl

theorem select_eq_ok_iff {table : Table} {projection : Projection} {clause : Clause}
    {selection : Selection} :
    table.select projection clause = .ok selection ↔
      table.checkColumns (table.columnsOf projection) = .ok () ∧
        clause.conditions.forM table.checkCondition = .ok () ∧
        table.checkColumns clause.orderBy.toList = .ok () ∧
        ∃ picked, scan table.schema clause.conditions clause.limit table.rows.zipIdx = .ok picked ∧
          shownAs (table.columnsOf projection) (inOrder clause picked) = selection := by
  simp only [select, bind_eq_ok_iff, pure, Except.pure, Except.ok.injEq]
  constructor
  · rintro ⟨_, hcolumns, _, hconditions, _, horder, hpicked⟩
    exact ⟨hcolumns, hconditions, horder, hpicked⟩
  · rintro ⟨hcolumns, hconditions, horder, hpicked⟩
    exact ⟨_, hcolumns, _, hconditions, _, horder, hpicked⟩

/-! What is picked. -/

/-- Fewer rows in front of a place meet all conditions than the limit allows. -/
def Reaches (table : Table) (clause : Clause) (place : Nat) : Prop :=
  WithinLimit clause.limit ((table.rows.take place).countP clause.holdsFor)

/-- Whether a row meets all conditions in front of the first that asks for a pattern in a column of
    integers. -/
def passesToNumbers (table : Table) (clause : Clause) (row : Row) : Bool :=
  (clause.conditions.takeWhile (!·.likesNumbers table.schema)).all fun condition =>
    condition.holds (row.get condition.column)

/-- A pattern is asked of integers: there is a condition that does so, and a row that gets that far. -/
def AsksNumbers (table : Table) (clause : Clause) : Prop :=
  (∃ condition ∈ clause.conditions, condition.likesNumbers table.schema = true) ∧
    ∃ place row, table.rows[place]? = some row ∧ table.passesToNumbers clause row = true ∧
      table.Reaches clause place

/-- A selection as it has to be: it names the columns asked for; its handles are the places, in order,
    of the rows that meet all conditions and in front of which the limit is not reached; and it shows
    of each of these rows the columns asked for, each once and at its first place. -/
structure Picks (table : Table) (projection : Projection) (clause : Clause) (selection : Selection) :
    Prop where
  columns_eq : selection.columns = table.columnsOf projection
  increasing : selection.handles.Pairwise (· < ·)
  mem_handles_iff : ∀ place, place ∈ selection.handles ↔ ∃ row, table.rows[place]? = some row ∧
    clause.holdsFor row = true ∧ table.Reaches clause place
  shown : List.Forall₂ (fun place shown => ∃ row, table.rows[place]? = some row ∧
    shown.columns = (table.columnsOf projection).eraseDups ∧ ∀ cell ∈ shown.toList, cell ∈ row.toList)
    selection.handles selection.rows

theorem passesToNumbers_of_holdsFor {table : Table} {clause : Clause} {row : Row}
    (hholds : clause.holdsFor row = true) : table.passesToNumbers clause row = true := by
  apply List.all_eq_true.2
  intro condition hcondition
  exact List.all_eq_true.1 hholds condition ((List.takeWhile_prefix _).subset hcondition)

/-- The first of the rows that get as far as the pattern is reached if there is one, as no row in front
    of it meets all conditions. -/
theorem asksNumbers_iff {table : Table} {clause : Clause}
    (hlikes : ∃ condition ∈ clause.conditions, condition.likesNumbers table.schema = true) :
    table.AsksNumbers clause ↔
      clause.limit ≠ some 0 ∧ table.rows.any (table.passesToNumbers clause) = true := by
  constructor
  · rintro ⟨-, place, row, hrow, hpasses, hreaches⟩
    refine ⟨?_, List.any_eq_true.2 ⟨row, List.mem_of_getElem? hrow, hpasses⟩⟩
    intro hlimit
    rw [Reaches, hlimit] at hreaches
    exact not_withinLimit_zero _ hreaches
  · rintro ⟨hlimit, hany⟩
    obtain ⟨row, hrow, hpasses⟩ := List.any_eq_true.1 hany
    have hfind := List.findIdx?_eq_some_of_exists ⟨row, hrow, hpasses⟩
    obtain ⟨hplace, hfirst, hearlier⟩ := List.findIdx?_eq_some_iff_getElem.1 hfind
    refine ⟨hlikes, _, _, List.getElem?_eq_getElem hplace, hfirst, ?_⟩
    have hcount : (table.rows.take (table.rows.findIdx (table.passesToNumbers clause))).countP
        clause.holdsFor = 0 := by
      apply List.countP_eq_zero.2
      intro other hother hholds
      obtain ⟨i, hi, rfl⟩ := List.getElem_of_mem hother
      rw [List.length_take] at hi
      rw [List.getElem_take] at hholds
      exact hearlier i (by omega) (passesToNumbers_of_holdsFor hholds)
    rw [Reaches, hcount]
    exact withinLimit_zero_iff.2 hlimit

/-- Nothing is picked if no row that meets all conditions is reached. -/
theorem picks_nil {table : Table} {projection : Projection} {clause : Clause}
    (hnone : ∀ place row, table.rows[place]? = some row → clause.holdsFor row = true →
      ¬table.Reaches clause place) :
    table.Picks projection clause (shownAs (table.columnsOf projection) []) := by
  refine ⟨rfl, List.Pairwise.nil, ?_, List.Forall₂.nil⟩
  intro place
  constructor
  · intro hplace
    cases hplace
  · rintro ⟨row, hrow, hholds, hreaches⟩
    exact absurd hreaches (hnone place row hrow hholds)

/-- If no pattern is asked of integers by any condition, going through the rows picks them. -/
theorem picks_of_scan {table : Table} {projection : Projection} {clause : Clause}
    (hrows : ∀ row ∈ table.rows, row.columns = table.schema.names)
    (hcolumns : ∀ name ∈ table.columnsOf projection, name ∈ table.schema.names)
    (happlies : ∀ condition ∈ clause.conditions, condition.appliesTo table.schema = true) :
    ∃ picked, scan table.schema clause.conditions clause.limit table.rows.zipIdx = .ok picked ∧
      table.Picks projection clause (shownAs (table.columnsOf projection) picked) := by
  have hmeets (row : Row) : meets table.schema row clause.conditions = .ok (clause.holdsFor row) :=
    meets_of_applies happlies row
  obtain ⟨picked, hscan, hsublist, hmem⟩ := scan_of_meets_eq_ok hmeets clause.limit table.rows 0
  simp only [Nat.zero_add] at hmem
  refine ⟨picked, hscan, rfl, ?_, ?_, ?_⟩
  · exact List.pairwise_map.2 (pairwise_of_sublist_zipIdx hsublist)
  · intro place
    simp only [shownAs, List.mem_map, Prod.exists, exists_eq_right, hmem]
    rfl
  · apply forall₂_shownAs hrows hcolumns
    intro entry hentry
    exact ((hmem entry.1 entry.2).1 hentry).1

/-- If some condition asks for a pattern in a column of integers, no row is ever picked: going through
    the rows either meets an error or finds none. -/
theorem scan_of_likesNumbers {table : Table} {clause : Clause}
    (hconditions : ∀ condition ∈ clause.conditions, condition.column ∈ table.schema.names)
    (hlikes : ∃ condition ∈ clause.conditions, condition.likesNumbers table.schema = true) :
    (table.AsksNumbers clause →
        scan table.schema clause.conditions clause.limit table.rows.zipIdx =
          .error (.syntaxError .likeOnNumbers)) ∧
      (¬table.AsksNumbers clause →
        scan table.schema clause.conditions clause.limit table.rows.zipIdx = .ok []) := by
  have hnotApplies : ∃ condition ∈ clause.conditions, condition.appliesTo table.schema = false := by
    obtain ⟨condition, hcondition, hasks⟩ := hlikes
    refine ⟨condition, hcondition, ?_⟩
    rw [Condition.appliesTo_eq_not_likesNumbers (hconditions condition hcondition), hasks]
    rfl
  have hmeets (row : Row) : meets table.schema row clause.conditions =
      if table.passesToNumbers clause row then .error (.syntaxError .likeOnNumbers)
      else .ok false := by
    rw [meets_of_not_applies hnotApplies, takeWhile_appliesTo hconditions]
    rfl
  have hrows : (table.rows.zipIdx.any fun entry => table.passesToNumbers clause entry.1) =
      table.rows.any (table.passesToNumbers clause) := by
    rw [show (fun entry : Row × Nat => table.passesToNumbers clause entry.1) =
      table.passesToNumbers clause ∘ Prod.fst from rfl, ← List.any_map, List.zipIdx_map_fst]
  rw [asksNumbers_iff hlikes]
  by_cases hlimit : clause.limit = some 0
  · rw [hlimit, scan_zero]
    simp
  · rw [scan_of_meets_eq_error hmeets hlimit, hrows]
    constructor
    · rintro ⟨-, hany⟩
      rw [if_pos hany]
    · intro hnone
      rw [if_neg fun hany => hnone ⟨hlimit, hany⟩]

/-- A clause is evaluated as it is defined. The first column that is named but not known is an error.
    If all are known, a pattern asked of integers is one. Otherwise the rows are picked that have to
    be. -/
theorem select_finds (table : Table) (projection : Projection) (clause : Clause)
    (hrows : ∀ row ∈ table.rows, row.columns = table.schema.names)
    (hpatterns : PatternsCompile clause)
    (horder : clause.orderBy = none ∨ clause.direction = .ascending) :
    (∀ name, (table.namedColumns projection clause).find? (· ∉ table.schema.names) = some name →
        table.select projection clause = .error (.unknownColumn name table.name)) ∧
      ((∀ name ∈ table.namedColumns projection clause, name ∈ table.schema.names) →
        (table.select projection clause = .error (.syntaxError .likeOnNumbers) ↔
          table.AsksNumbers clause) ∧
        (¬table.AsksNumbers clause → ∃ selection, table.select projection clause = .ok selection ∧
          table.Picks projection clause selection)) := by
  have hselect := select_eq table projection hpatterns horder
  constructor
  · intro name hname
    rw [hselect, checkColumns_eq_error hname]
    rfl
  · intro hknown
    obtain ⟨hcolumns, hconditions⟩ := known_of_namedColumns hknown
    rw [checkColumns_eq_ok_iff.2 hknown] at hselect
    by_cases hlikes : ∃ condition ∈ clause.conditions, condition.likesNumbers table.schema = true
    · obtain ⟨herror, hempty⟩ := scan_of_likesNumbers hconditions hlikes
      by_cases hasks : table.AsksNumbers clause
      · rw [herror hasks] at hselect
        exact ⟨⟨fun _ => hasks, fun _ => hselect⟩, fun hnever => absurd hasks hnever⟩
      · rw [hempty hasks] at hselect
        have hnone : table.Picks projection clause (shownAs (table.columnsOf projection) []) := by
          apply picks_nil
          intro place row hrow hholds hreaches
          exact hasks ⟨hlikes, place, row, hrow, passesToNumbers_of_holdsFor hholds, hreaches⟩
        have hfound : table.select projection clause =
            .ok (shownAs (table.columnsOf projection) []) := hselect
        exact ⟨by simp [hfound, hasks], fun _ => ⟨_, hfound, hnone⟩⟩
    · have happlies : ∀ condition ∈ clause.conditions, condition.appliesTo table.schema = true := by
        intro condition hcondition
        rw [Condition.appliesTo_eq_not_likesNumbers (hconditions condition hcondition)]
        cases hasks : condition.likesNumbers table.schema with
        | false => rfl
        | true => exact absurd ⟨condition, hcondition, hasks⟩ hlikes
      obtain ⟨picked, hscan, hpicks⟩ := picks_of_scan hrows hcolumns happlies
      have hfound : table.select projection clause =
          .ok (shownAs (table.columnsOf projection) picked) := by
        rw [hselect]
        simp only [bind, Except.bind, hscan]
        rfl
      have hnever : ¬table.AsksNumbers clause := fun hasks => hlikes hasks.1
      exact ⟨by simp [hfound, hnever], fun _ => ⟨_, hfound, hpicks⟩⟩

end

/-- A table with a column of integers and a column of texts. -/
def shelf : Table where
  name := "shelf"
  schema := {
    columns := [⟨"id", ⟨.int, none⟩, 0⟩, ⟨"label", ⟨.varchar, some 6⟩, 1⟩]
    index := .ofList [("id", 0), ("label", 1)]
    index_entries := rfl
    positions := rfl }
  rows := [
    .ofList [("id", .integer 3), ("label", .text "crates")],
    .ofList [("id", .integer 1), ("label", .null)],
    .ofList [("id", .integer 2), ("label", .text "cans")]]

/-- Rows whose label starts with a letter, at most one of them. -/
def startingWithC : Clause :=
  ⟨[⟨"label", .like, .text "c%"⟩], some "id", .ascending, some 1⟩

/-- The label of the second row is NULL, and the third row comes too late for the limit. -/
theorem select_finds_on_shelf :
    PatternsCompile startingWithC ∧ shelf.rows.map startingWithC.holdsFor = [true, false, true] ∧
      ∃ selection, shelf.select (.columns ["label", "label"]) startingWithC = .ok selection ∧
        selection.handles = [0] ∧ selection.rows.map Row.toList = [[("label", .text "crates")]] ∧
        shelf.Picks (.columns ["label", "label"]) startingWithC selection := by
  have hpatterns : PatternsCompile startingWithC := by decide +kernel
  have hnever : ¬shelf.AsksNumbers startingWithC := fun hasks => absurd hasks.1 (by decide)
  obtain ⟨-, hknown⟩ := select_finds shelf (.columns ["label", "label"]) startingWithC (by decide)
    hpatterns (.inr rfl)
  obtain ⟨selection, hselect, hpicks⟩ := (hknown (by decide)).2 hnever
  have hrun : (shelf.select (.columns ["label", "label"]) startingWithC).map
      (fun selection => (selection.handles, selection.rows.map Row.toList)) =
        .ok ([0], [[("label", .text "crates")]]) := by
    decide +kernel
  rw [hselect] at hrun
  obtain ⟨hhandles, hrows⟩ := Prod.mk.inj (Except.ok.inj hrun)
  exact ⟨hpatterns, by decide +kernel, selection, hselect, hhandles, hrows, hpicks⟩

end Table

end TableEngine
