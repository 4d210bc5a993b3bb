import TableEngine.Proofs.Conditions
import TableEngine.Proofs.Sorting

/-!
Sorting against conditions. Both order the values of a column, and they agree on any two of them that are
not both texts that read as numbers (`Session.Reachable.sorting_agrees_iff`): conditions compare such
texts as numbers, sorting compares them as texts like any others.
-/

namespace TableEngine

open OrderedMap

/-- A row has no value but NULL outside of its schema. -/
theorem Row.Fits.mem_names_of_get {row : Row} {schema : Schema} (hfits : row.Fits schema)
    {column : String} (hcell : row.get column ≠ .null) : column ∈ schema.names := by
  by_contra hcolumn
  rw [← hfits.columns_eq] at hcolumn
  have hnone : row.cells.get? column = none := get?_eq_none_iff.2 hcolumn
  exact hcell (by rw [Row.get, hnone]; rfl)

namespace Table

/-- Two values of a column, neither of them NULL, are of one kind. -/
theorem WellFormed.alike {table : Table} (hwell : table.WellFormed) {first second : Row}
    (hfirst : first ∈ table.rows) (hsecond : second ∈ table.rows) {column : String}
    (hfirstCell : first.get column ≠ .null) (hsecondCell : second.get column ≠ .null) :
    (first.get column).Alike (second.get column) := by
  have hfits := hwell.fits first hfirst
  obtain ⟨stored, hstored, rfl⟩ := List.mem_map.1 (hfits.mem_names_of_get hfirstCell)
  exact Value.alike_of_admits (hfits.admits stored hstored)
    ((hwell.fits second hsecond).admits stored hstored) hfirstCell hsecondCell

end Table

namespace Session

/-- Sorting and conditions agree on the values of a column, but for texts that read as numbers. If a row
    comes before another one in descending order, its value is found to be at least the other one,
    unless both values are such texts and the number of the first is smaller. Two stored values are
    ordered oppositely exactly if they are such texts and their numbers are. -/
theorem Reachable.sorting_agrees_iff {session : Session} (hreachable : session.Reachable)
    {databaseName name : String} {table : Table}
    (htable : session.tableIn databaseName name = some table) (column : String) :
    (∀ projection clause selection, clause.orderBy = some column → clause.direction = .descending →
      table.select projection clause = .ok selection →
      selection.handles.Pairwise fun front back => ∀ first second,
        table.rows[front]? = some first → table.rows[back]? = some second →
        first.get column ≠ .null → second.get column ≠ .null →
        ∃ found, table.select .all (.only ⟨column, .ge, second.get column⟩) = .ok found ∧
          (front ∈ found.handles ↔ ¬(first.get column).ReadsBelow (second.get column))) ∧
      ∀ first ∈ table.rows, ∀ second ∈ table.rows,
        first.get column ≠ .null → second.get column ≠ .null →
        ((first.get column).OrderedOppositely (second.get column) ↔
          (first.get column).compare (second.get column) = .gt ∧
              (first.get column).ReadsBelow (second.get column) ∨
            (first.get column).compare (second.get column) = .lt ∧
              (second.get column).ReadsBelow (first.get column)) := by
  obtain ⟨-, hwell⟩ := hreachable.storedAs htable
  have hrows : ∀ row ∈ table.rows, row.columns = table.schema.names :=
    fun row hrow => (hwell.fits row hrow).columns_eq
  constructor
  · intro projection clause selection horder hdirection hselect
    refine (Table.pairwise_descends_of_select horder hdirection hselect).imp ?_
    rintro front back ⟨first, second, hfront, hback, hge, -⟩ _ _ hfront' hback' hfirstCell hsecondCell
    obtain rfl := Option.some.inj (hfront.symm.trans hfront')
    obtain rfl := Option.some.inj (hback.symm.trans hback')
    have hfirst := List.mem_of_getElem? hfront
    have hcolumn := (hwell.fits first hfirst).mem_names_of_get hfirstCell
    have halike := hwell.alike hfirst (List.mem_of_getElem? hback) hfirstCell hsecondCell
    let condition : Condition := ⟨column, .ge, second.get column⟩
    have hcomparison : condition.comparison ≠ .like := nofun
    obtain ⟨found, hfound, hmem⟩ := Table.select_only hrows hcolumn hcomparison
    refine ⟨found, hfound, (hmem front).trans ?_⟩
    rw [← halike.isGE_compareRead_iff hge]
    have hholds : condition.holds (first.get column) =
        ((first.get column).compareRead (second.get column)).isGE :=
      Condition.holds_of_ne_null hsecondCell hfirstCell hcomparison
    constructor
    · rintro ⟨row, hrow, hrowHolds⟩
      obtain rfl := Option.some.inj (hfront.symm.trans hrow)
      rwa [hholds] at hrowHolds
    · intro hread
      exact ⟨first, hfront, hholds.trans hread⟩
  · intro first hfirst second hsecond hfirstCell hsecondCell
    exact (hwell.alike hfirst hsecond hfirstCell hsecondCell).orderedOppositely_iff

/-- A session with a table of texts, two of which read as numbers. -/
def sized : Session :=
  (fresh .standard).run [
    .executeStatement (.createDatabase "shop"),
    .executeStatement (.useDatabase "shop"),
    .executeStatement (.createTable "sizes" [⟨"label", "VARCHAR(3)"⟩]),
    .executeStatement (.insert "sizes" none [[.text "9"], [.text "10"], [.text "XL"]])]

theorem reachable_sized : sized.Reachable :=
  Reachable.run (.start (show start .standard = .ok (fresh .standard) from rfl)) _

/-- The row of a label. -/
def labelled (label : String) : Row :=
  .ofList [("label", .text label)]

/-- The table of the session. -/
def sizes : Table where
  name := "sizes"
  schema := {
    columns := [⟨"label", ⟨.varchar, some 3⟩, 0⟩]
    index := .ofList [("label", 0)]
    index_entries := by decide
    positions := rfl }
  rows := [labelled "9", labelled "10", labelled "XL"]

theorem tableIn_sized : sized.tableIn "shop" "sizes" = some sizes :=
  rfl

/-- All rows by their labels, the greatest first. -/
def byLabel : Clause :=
  ⟨[], some "label", .descending, none⟩

/-- The greatest label is the one that is no number, and the greatest number comes last. -/
theorem select_sized : sizes.select .all byLabel =
    .ok ⟨["label"], [2, 0, 1], [labelled "XL", labelled "9", labelled "10"]⟩ := by
  have hnine : (((labelled "10").get "label").compare ((labelled "9").get "label")).isLE = true :=
    rfl
  have hletters : (((labelled "XL").get "label").compare ((labelled "9").get "label")).isLE = false :=
    rfl
  have hsorted :
      Table.sortDescending "label" [(labelled "9", 0), (labelled "10", 1), (labelled "XL", 2)] =
        [(labelled "XL", 2), (labelled "9", 0), (labelled "10", 1)] := by
    simp [Table.sortDescending, List.mergeSort, hnine, hletters]
  have hscanned : sizes.select .all byLabel = .ok (Table.shownAs ["label"]
      (Table.sortDescending "label" [(labelled "9", 0), (labelled "10", 1), (labelled "XL", 2)])) := rfl
  rw [hscanned, hsorted]
  rfl

/-- Letters come before a number, and are found to be at least the number. -/
theorem sorting_agrees_sized :
    sized.tableIn "shop" "sizes" = some sizes ∧
      ∃ found, sizes.select .all (.only ⟨"label", .ge, .text "9"⟩) = .ok found ∧ 2 ∈ found.handles := by
  obtain ⟨hagrees, -⟩ := reachable_sized.sorting_agrees_iff tableIn_sized "label"
  have hpairs := hagrees .all byLabel _ rfl rfl select_sized
  have hnumber : ¬Value.ReadsBelow (.text "XL") (.text "9") := by
    rintro ⟨s, t, m, n, hs, -, hm, -⟩
    have hletters : (Value.text "XL").asInteger = none := by decide +kernel
    cases hletters.symm.trans hm
  obtain ⟨found, hfound, hmem⟩ := (List.pairwise_cons.1 hpairs).1 0 (by decide)
    (labelled "XL") (labelled "9") rfl rfl (by decide) (by decide)
  exact ⟨tableIn_sized, found, hfound, hmem.2 hnumber⟩

/-- The row of 9 comes before the row of 10, and is not found to be at least 10. -/
theorem sorting_disagrees_sized :
    sized.Reachable ∧ sized.tableIn "shop" "sizes" = some sizes ∧
      sizes.rows[0]? = some (labelled "9") ∧ sizes.rows[1]? = some (labelled "10") ∧
      ∃ selection found, sizes.select .all byLabel = .ok selection ∧
        selection.handles = [2, 0, 1] ∧
        sizes.select .all (.only ⟨"label", .ge, .text "10"⟩) = .ok found ∧ 0 ∉ found.handles := by
  have hfound : sizes.select .all (.only ⟨"label", .ge, .text "10"⟩) =
      .ok (Table.shownAs ["label"] [(labelled "10", 1), (labelled "XL", 2)]) := by
    decide +kernel
  exact ⟨reachable_sized, tableIn_sized, rfl, rfl, _, _, select_sized, rfl, hfound, by decide⟩

end Session

end TableEngine
