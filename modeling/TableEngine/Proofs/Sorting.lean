import TableEngine.Proofs.Agreement
import TableEngine.Proofs.SortOrder

/-!
Descending order. The limit is applied first, in the stored order (`Table.length_scan`). The rows that it
leaves are then sorted by one column, the greatest value first, and rows with equal values keep their
order (`Table.pairwise_sortDescending`).
-/

namespace TableEngine

/-- Sorting keeps a relation between the items of a list where the order does not decide. -/
theorem pairwise_mergeSort_of_pairwise {α : Type} {le : α → α → Bool} {R : α → α → Prop}
    (htrans : ∀ a b c, le a b = true → le b c = true → le a c = true)
    (htotal : ∀ a b, (le a b || le b a) = true) {items : List α} (hitems : items.Pairwise R) :
    (items.mergeSort le).Pairwise fun a b => le a b = true ∧ (le b a = true → R a b) := by
  -- Sorting is stable: it sorts as if the places in the list settled what the order leaves open.
  rw [← List.mergeSort_zipIdx, List.pairwise_map]
  have hsorted := List.pairwise_mergeSort (List.zipIdxLE_trans htrans)
    (List.zipIdxLE_total htotal) items.zipIdx
  have hperm := List.mergeSort_perm items.zipIdx (List.zipIdxLE le)
  have hplaces : (items.zipIdx.mergeSort (List.zipIdxLE le)).Pairwise fun a b => a.2 ≠ b.2 :=
    (hperm.pairwise_iff Ne.symm).2
      ((Table.pairwise_of_sublist_zipIdx (List.Sublist.refl _)).imp Nat.ne_of_lt)
  refine (hsorted.and hplaces).imp_of_mem ?_
  intro a b ha hb ⟨hle, hne⟩
  have ha := List.mem_zipIdx_iff_getElem?.1 (hperm.mem_iff.1 ha)
  have hb := List.mem_zipIdx_iff_getElem?.1 (hperm.mem_iff.1 hb)
  obtain ⟨haPlace, haItem⟩ := List.getElem?_eq_some_iff.1 ha
  obtain ⟨hbPlace, hbItem⟩ := List.getElem?_eq_some_iff.1 hb
  unfold List.zipIdxLE at hle
  split at hle
  · next hab =>
    refine ⟨hab, fun hba => ?_⟩
    rw [if_pos hba, decide_eq_true_eq] at hle
    have hlt : a.2 < b.2 := Nat.lt_of_le_of_ne hle hne
    rw [← haItem, ← hbItem]
    exact List.pairwise_iff_getElem.1 hitems _ _ haPlace hbPlace hlt
  · cases hle

namespace Table

/-! The rows that a descending order starts from. -/

theorem meets_eq_ok {schema : Schema} {row : Row} {conditions : List Condition} {met : Bool}
    (hmeets : meets schema row conditions = .ok met) :
    met = conditions.all fun condition => condition.holds (row.get condition.column) := by
  induction conditions with
  | nil => exact (Except.ok.inj hmeets).symm
  | cons condition conditions ih =>
    rw [meets] at hmeets
    split at hmeets
    · cases hmeets
    · split at hmeets
      · next hholds => rw [List.all_cons, hholds, Bool.true_and, ih hmeets]
      · next hholds =>
        rw [Bool.not_eq_true] at hholds
        rw [List.all_cons, hholds, Bool.false_and]
        exact (Except.ok.inj hmeets).symm

/-- How many of a number of rows a limit lets through. -/
def limited (limit : Option Nat) (count : Nat) : Nat :=
  match limit with
  | none => count
  | some n => min n count

/-- Going through the rows picks as many of those that meet all conditions as the limit allows. -/
theorem length_scan {schema : Schema} {clause : Clause} {limit : Option Nat}
    {rows picked : List (Row × Nat)}
    (hscan : scan schema clause.conditions limit rows = .ok picked) :
    picked.length = limited limit (rows.countP fun entry => clause.holdsFor entry.1) := by
  induction rows generalizing limit picked with
  | nil =>
    rw [scan_nil] at hscan
    obtain rfl := Except.ok.inj hscan
    cases limit <;> simp [limited]
  | cons entry rows ih =>
    by_cases hlimit : limit = some 0
    · subst hlimit
      rw [scan_zero] at hscan
      obtain rfl := Except.ok.inj hscan
      simp [limited]
    · rw [scan_cons hlimit, bind_eq_ok_iff] at hscan
      obtain ⟨met, hmeets, hrest⟩ := hscan
      have hholds : met = clause.holdsFor entry.1 := meets_eq_ok hmeets
      cases met with
      | true =>
        obtain ⟨others, hothers, heq⟩ := bind_eq_ok_iff.1 hrest
        obtain rfl := Except.ok.inj heq
        simp only [List.length_cons, ih hothers, List.countP_cons, ← hholds, if_true]
        cases limit with
        | none => rfl
        | some n =>
          have hn : n ≠ 0 := fun hzero => hlimit (by rw [hzero])
          simp only [limited, Option.map_some]
          omega
      | false =>
        simp only [ih hrest, List.countP_cons, ← hholds, Bool.false_eq_true, if_false, Nat.add_zero]

/-! Sorting them. -/

/-- The row at the first place may stand before the row at the second place in a descending order: its
    value is greater, or they are equal and it is stored in front. -/
def Descends (table : Table) (column : String) (front back : Nat) : Prop :=
  ∃ first second, table.rows[front]? = some first ∧ table.rows[back]? = some second ∧
    ((first.get column).compare (second.get column)).isGE = true ∧
    ((first.get column).compare (second.get column) = .eq → front < back)

/-- Rows that are sorted descend, and those with equal values keep their order. -/
theorem pairwise_sortDescending (column : String) {picked : List (Row × Nat)}
    (hplaces : picked.Pairwise fun a b => a.2 < b.2) :
    (sortDescending column picked).Pairwise fun a b =>
      ((a.1.get column).compare (b.1.get column)).isGE = true ∧
        ((a.1.get column).compare (b.1.get column) = .eq → a.2 < b.2) := by
  refine (pairwise_mergeSort_of_pairwise ?_ ?_ hplaces).imp ?_
  · exact fun a b c hab hbc => Std.TransCmp.isLE_trans hbc hab
  · intro a b
    dsimp only
    rw [Value.compare_eq_swap, Ordering.isLE_swap]
    cases (a.1.get column).compare (b.1.get column) <;> rfl
  · intro a b ⟨hle, hties⟩
    dsimp only at hle hties
    rw [Value.compare_eq_swap, Ordering.isLE_swap] at hle
    refine ⟨hle, fun heq => hties ?_⟩
    rw [heq]
    rfl

/-- Rows are picked in the order in which they are stored. -/
theorem pairwise_of_scan {table : Table} {conditions : List Condition} {limit : Option Nat}
    {picked : List (Row × Nat)}
    (hscan : scan table.schema conditions limit table.rows.zipIdx = .ok picked) :
    picked.Pairwise fun a b => a.2 < b.2 :=
  pairwise_of_sublist_zipIdx (scan_sublist hscan)

theorem inOrder_of_descending {clause : Clause} {column : String}
    (horder : clause.orderBy = some column) (hdirection : clause.direction = .descending)
    (picked : List (Row × Nat)) : inOrder clause picked = sortDescending column picked := by
  unfold inOrder
  rw [horder, hdirection]

/-- The rows that a query in descending order shows descend. -/
theorem pairwise_descends_of_select {table : Table} {projection : Projection} {clause : Clause}
    {column : String} {selection : Selection}
    (horder : clause.orderBy = some column) (hdirection : clause.direction = .descending)
    (hselect : table.select projection clause = .ok selection) :
    selection.handles.Pairwise (table.Descends column) := by
  obtain ⟨-, -, -, picked, hscan, rfl⟩ := select_eq_ok_iff.1 hselect
  rw [inOrder_of_descending horder hdirection]
  have hplaces : ∀ entry ∈ sortDescending column picked, table.rows[entry.2]? = some entry.1 := by
    intro entry hentry
    have hpicked := (List.mergeSort_perm _ _).mem_iff.1 hentry
    exact List.mem_zipIdx_iff_getElem?.1 ((scan_sublist hscan).subset hpicked)
  have hsorted := pairwise_sortDescending column (pairwise_of_scan hscan)
  refine List.pairwise_map.2 (hsorted.imp_of_mem ?_)
  intro front back hfront hback hdescends
  exact ⟨front.1, back.1, hplaces front hfront, hplaces back hback, hdescends⟩

/-- A query in descending order shows the rows that the clause picks in the stored order, as many as the
    limit lets through. They descend by their stored values, whatever columns are shown, and rows with
    equal values keep their order. -/
theorem select_descending_sorts {table : Table} {projection : Projection} {clause : Clause}
    {column : String} {selection : Selection}
    (hrows : ∀ row ∈ table.rows, row.columns = table.schema.names)
    (horder : clause.orderBy = some column) (hdirection : clause.direction = .descending)
    (hselect : table.select projection clause = .ok selection) :
    ∃ stored, table.select projection { clause with direction := .ascending } = .ok stored ∧
      stored.handles.Pairwise (· < ·) ∧ selection.handles.Perm stored.handles ∧
      selection.handles.length = limited clause.limit (table.rows.countP clause.holdsFor) ∧
      selection.handles.Pairwise (table.Descends column) ∧
      selection.columns = table.columnsOf projection ∧
      List.Forall₂ (fun place shown => ∃ row, table.rows[place]? = some row ∧
        shown.columns = (table.columnsOf projection).eraseDups ∧
        ∀ cell ∈ shown.toList, cell ∈ row.toList) selection.handles selection.rows := by
  have hdescends := pairwise_descends_of_select horder hdirection hselect
  obtain ⟨hcolumns, hconditions, horderBy, picked, hscan, rfl⟩ := select_eq_ok_iff.1 hselect
  rw [inOrder_of_descending horder hdirection] at hdescends ⊢
  have hperm : (sortDescending column picked).Perm picked := List.mergeSort_perm _ _
  have hcount : (table.rows.zipIdx.countP fun entry => clause.holdsFor entry.1) =
      table.rows.countP clause.holdsFor := by
    rw [show (fun entry : Row × Nat => clause.holdsFor entry.1) = clause.holdsFor ∘ Prod.fst from rfl,
      ← List.countP_map, List.zipIdx_map_fst]
  have hstored : table.select projection { clause with direction := .ascending } =
      .ok (shownAs (table.columnsOf projection) picked) := by
    refine select_eq_ok_iff.2 ⟨hcolumns, hconditions, horderBy, picked, hscan, ?_⟩
    rw [inOrder_of_not_descending (.inr rfl)]
  refine ⟨_, hstored, List.pairwise_map.2 (pairwise_of_scan hscan), hperm.map _, ?_, hdescends, rfl, ?_⟩
  · rw [shownAs, List.length_map, hperm.length_eq, length_scan hscan, hcount]
  · refine forall₂_shownAs hrows (checkColumns_eq_ok_iff.1 hcolumns) ?_
    intro entry hentry
    exact List.mem_zipIdx_iff_getElem?.1 ((scan_sublist hscan).subset (hperm.mem_iff.1 hentry))

/-- All labels but one, by the number of the row, the greatest first. -/
def labelsByNumber : Clause :=
  ⟨[⟨"label", .ne, .text "bag"⟩], some "id", .descending, none⟩

/-- Of the rows with the greatest number, which are equal, the one that is stored in front stays in
    front. -/
theorem select_descending_sorts_doubled :
    ∃ selection stored, Session.stock.select (.columns ["label"]) labelsByNumber = .ok selection ∧
      Session.stock.select (.columns ["label"]) { labelsByNumber with direction := .ascending } =
        .ok stored ∧
      selection.handles = [1, 2, 0] ∧ selection.handles.Perm stored.handles ∧
      selection.handles.Pairwise (Session.stock.Descends "id") := by
  have hsorted : sortDescending "id" [(Session.box, 0), (Session.crate, 1), (Session.crate, 2)] =
      [(Session.crate, 1), (Session.crate, 2), (Session.box, 0)] := by
    have hless : ((Session.crate.get "id").compare (Session.box.get "id")).isLE = false := by decide
    have hequal : ((Session.crate.get "id").compare (Session.crate.get "id")).isLE = true := by decide
    simp [sortDescending, List.mergeSort, hless, hequal]
  have hselect : Session.stock.select (.columns ["label"]) labelsByNumber = .ok (shownAs ["label"]
      (sortDescending "id" [(Session.box, 0), (Session.crate, 1), (Session.crate, 2)])) := rfl
  obtain ⟨stored, hstored, -, hperm, -, hdescends, -⟩ :=
    select_descending_sorts (by decide) rfl rfl hselect
  refine ⟨_, stored, hselect, hstored, ?_, hperm, hdescends⟩
  rw [hsorted]
  rfl

end Table

end TableEngine
