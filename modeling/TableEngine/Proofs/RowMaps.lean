import Mathlib.Data.Finset.Card
import TableEngine.Proofs.RoundTrip
import TableEngine.Proofs.RowChanges

/-!
Rows as ordered maps (`Row.columns_keep_places`). Whatever is written to a row, its columns stand in the
order in which their names came up first, and each holds what it was given last. A projection orders its
columns in the same way by the names that are asked for, and the JSON text of a row holds all of it.
-/

namespace TableEngine

/-- The distinct names of a list, in the order in which they come up first. -/
structure FirstPlaces (names columns : List String) : Prop where
  mem_iff : ∀ name, name ∈ columns ↔ name ∈ names
  ordered : columns.Pairwise fun a b => names.idxOf a < names.idxOf b

theorem FirstPlaces.nodup {names columns : List String} (hplaces : FirstPlaces names columns) :
    columns.Nodup :=
  hplaces.ordered.imp fun hlt heq => Nat.ne_of_lt hlt (congrArg names.idxOf heq)

theorem FirstPlaces.length_eq {names columns : List String} (hplaces : FirstPlaces names columns) :
    columns.length = names.toFinset.card := by
  have hsame : columns.toFinset = names.toFinset := by
    ext name
    rw [List.mem_toFinset, List.mem_toFinset, hplaces.mem_iff]
  rw [← hsame, List.toFinset_card_of_nodup hplaces.nodup]

theorem firstPlaces_eraseDups (names : List String) : FirstPlaces names names.eraseDups := by
  refine ⟨fun _ => List.mem_eraseDups, ?_⟩
  -- Names are added at the end, where they do not move those in front.
  induction names using List.reverseRecOn with
  | nil => exact .nil
  | append_singleton names name ih =>
    have hkept : names.eraseDups.Pairwise fun a b =>
        (names ++ [name]).idxOf a < (names ++ [name]).idxOf b := by
      refine ih.imp_of_mem fun ha hb hlt => ?_
      rwa [List.idxOf_append_of_mem (List.mem_eraseDups.1 ha),
        List.idxOf_append_of_mem (List.mem_eraseDups.1 hb)]
    rw [List.eraseDups_append]
    by_cases hname : name ∈ names
    · simpa [List.removeAll, hname] using hkept
    · have hnew : ([name].removeAll names).eraseDups = [name] := by
        simp [List.removeAll, hname, List.eraseDups_cons]
      rw [hnew, List.pairwise_append]
      refine ⟨hkept, List.pairwise_singleton _ _, fun a ha b hb => ?_⟩
      have hold : a ∈ names := List.mem_eraseDups.1 ha
      obtain rfl := List.mem_singleton.1 hb
      rw [List.idxOf_append_of_mem hold, List.idxOf_append_of_notMem hname]
      have hlt := List.idxOf_lt_length_of_mem hold
      omega

namespace OrderedMap

variable {α : Type}

theorem lastFor?_of_not_mem {pairs : List (String × α)} {key : String}
    (hkey : key ∉ pairs.map Prod.fst) : lastFor? pairs key = none := by
  rw [lastFor?, List.lookup_eq_none_iff]
  intro pair hpair
  refine bne_iff_ne.2 fun heq => hkey (List.mem_map.2 ⟨pair, List.mem_reverse.1 hpair, heq.symm⟩)

theorem lastFor?_append_cons (front : List (String × α)) {key : String} (value : α)
    {back : List (String × α)} (hback : key ∉ back.map Prod.fst) :
    lastFor? (front ++ (key, value) :: back) key = some value := by
  have hnone : back.reverse.lookup key = none := lastFor?_of_not_mem hback
  rw [lastFor?, List.reverse_append, List.reverse_cons, List.lookup_append, List.lookup_append, hnone,
    List.lookup_cons_self]
  rfl

end OrderedMap

namespace Row

/-- The row after columns have been set one after the other. -/
def setAll (row : Row) (settings : List (String × Value)) : Row :=
  settings.foldl (fun row (column, value) => row.set column value) row

theorem cells_setAll (row : Row) (settings : List (String × Value)) :
    (row.setAll settings).cells =
      settings.foldl (fun cells (column, value) => cells.insert column value) row.cells := by
  induction settings generalizing row with
  | nil => rfl
  | cons setting settings ih => exact ih (row.set setting.1 setting.2)

theorem setAll_ofList (pairs settings : List (String × Value)) :
    (ofList pairs).setAll settings = ofList (pairs ++ settings) := by
  have hcells : ((ofList pairs).setAll settings).cells = (ofList (pairs ++ settings)).cells := by
    rw [cells_setAll]
    exact List.foldl_append.symm
  exact congrArg Row.mk hcells

/-- A row that holds what has been written: each name has the place at which it came up first and the
    value that it was given last, and all other columns are NULL. -/
structure Holds (row : Row) (pairs : List (String × Value)) : Prop where
  columns_first : FirstPlaces (pairs.map Prod.fst) row.columns
  get_last : ∀ front column value back, pairs = front ++ (column, value) :: back →
    column ∉ back.map Prod.fst → row.get column = value
  get_other : ∀ column, column ∉ pairs.map Prod.fst → row.get column = .null
  size_eq : row.size = (pairs.map Prod.fst).toFinset.card

theorem get_ofList (pairs : List (String × Value)) (column : String) :
    (ofList pairs).get column = (OrderedMap.lastFor? pairs column).getD .null := by
  rw [get, ofList, OrderedMap.get?_ofList]

theorem holds_ofList (pairs : List (String × Value)) : (ofList pairs).Holds pairs := by
  have hplaces : FirstPlaces (pairs.map Prod.fst) (ofList pairs).columns := by
    have hcolumns : (ofList pairs).columns = (pairs.map Prod.fst).eraseDups :=
      OrderedMap.keys_ofList pairs
    rw [hcolumns]
    exact firstPlaces_eraseDups _
  refine ⟨hplaces, ?_, ?_, ?_⟩
  · rintro front column value back rfl hback
    rw [get_ofList, OrderedMap.lastFor?_append_cons front value hback]
    rfl
  · intro column hcolumn
    rw [get_ofList, OrderedMap.lastFor?_of_not_mem hcolumn]
    rfl
  · rw [← hplaces.length_eq]
    exact (List.length_map _).symm

/-! Projections. -/

theorem get_project (row : Row) (names : List String) (column : String) :
    (row.project names).get column = if column ∈ names then row.get column else .null := by
  have hnames : (names.map fun name => (name, row.get name)).map Prod.fst = names := by
    simp [Function.comp_def]
  have hholds := holds_ofList (names.map fun name => (name, row.get name))
  split
  · next hcolumn =>
    obtain ⟨front, back, rfl, hback⟩ := exists_last_mem hcolumn
    exact hholds.get_last (front.map fun name => (name, row.get name)) column (row.get column)
      (back.map fun name => (name, row.get name)) (by simp) (by simpa [Function.comp_def] using hback)
  · next hcolumn => exact hholds.get_other column (by rwa [hnames])

theorem firstPlaces_project (row : Row) (names : List String) :
    FirstPlaces names (row.project names).columns := by
  rw [columns_project]
  exact firstPlaces_eraseDups names

/-! The text of a row. -/

theorem readable_json (row : Row) : Json.Readable row.json :=
  readable_jsonOf row.toList

/-- A row is what is read from its text. -/
theorem ofJson?_toJson (row : Row) : ofJson? row.toJson = some row := by
  have htokens : Json.Lexer.readAll row.toJson.toList = row.json := by
    rw [toJson, String.toList_ofList, Json.readAll_compact row.readable_json]
  have hrun := row.reads_reader []
  rw [List.append_nil] at hrun
  rw [ofJson?, Json.Reader.readText, htokens, hrun]
  rfl

/-- A row that is made of pairs, and is then set column by column, holds all that has been written, in
    the order of the first places. A projection of a row has the names that are asked for in the order of
    their first places, with the values of the row; asked for its own columns, a row is left as it is. The
    text of a row is read back as the same row. -/
theorem columns_keep_places (pairs settings : List (String × Value)) :
    ((ofList pairs).setAll settings).Holds (pairs ++ settings) ∧
      ∀ row : Row,
        (∀ names, FirstPlaces names (row.project names).columns ∧
          ∀ column, (row.project names).get column =
            if column ∈ names then row.get column else .null) ∧
        row.project row.columns = row ∧
        ofJson? row.toJson = some row := by
  constructor
  · rw [setAll_ofList]
    exact holds_ofList _
  · intro row
    exact ⟨fun names => ⟨row.firstPlaces_project names, row.get_project names⟩, row.project_columns,
      row.ofJson?_toJson⟩

end Row

end TableEngine
