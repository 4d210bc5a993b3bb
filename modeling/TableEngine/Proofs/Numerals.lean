import TableEngine.Proofs.Coercion
import TableEngine.Proofs.Conditions
import TableEngine.Proofs.Ledger

/-!
Numbers that are written as texts. An integer column stores such a text as the number that conditions
read it as, and a condition on the column does not tell the text from the number
(`Table.ComparesAlike`), so that a row is found by the text that it was inserted with and by the number
that it holds (`Session.FindsInserted`).
-/

namespace TableEngine

namespace Text

/-- A text that is a number between blanks starts with that number. -/
theorem leadsWith_of_readInt64?_trim {text : List Char} {n : Int64}
    (hread : readInt64? (trim text) = some n) : LeadsWith text n.toInt := by
  obtain ⟨front, back, hfront, hback, htext⟩ := exists_trim_append text
  obtain ⟨sign, hsign, hnumber⟩ := exists_sign_append (trim text)
  unfold readInt64? at hread
  generalize splitSign (trim text) = split at hsign hnumber hread
  obtain ⟨negative, digits⟩ := split
  dsimp only at hread
  split at hread
  · cases hread
  · next hdigits =>
    rw [toInt64?_eq_some_iff] at hread
    simp only [Bool.or_eq_true, List.isEmpty_iff, Bool.not_eq_true', not_or, Bool.not_eq_false,
      List.all_eq_true] at hdigits
    refine ⟨front, sign, negative, digits, back, ?_, hfront, hsign, hdigits.1, hdigits.2, ?_,
      hread.symm⟩
    · rw [hnumber, List.append_assoc] at htext
      exact htext
    · intro c hc
      by_contra hdigit
      have hblank := hback c (List.mem_of_head? hc)
      rw [isBlank_of_isDigit (by simpa using hdigit)] at hblank
      cases hblank

/-- The decimal text of a number starts with that number. -/
theorem leadsWith_intDigits (n : Int) : LeadsWith (intDigits n) n := by
  obtain ⟨digits, hne, hdigits, ⟨htext, hvalue⟩ | ⟨htext, hvalue⟩⟩ := exists_digits_of_intDigits n
  · rw [htext]
    exact ⟨[], [], false, digits, [], by simp, nofun, .none, hne, hdigits, nofun, hvalue⟩
  · rw [htext]
    exact ⟨[], ['-'], true, digits, [], by simp, nofun, .minus, hne, hdigits, nofun, hvalue⟩

end Text

namespace ColumnType

/-- An integer column reads a text as conditions do, if these read it as a number. -/
theorem coerce_of_asInteger {type : ColumnType} (hkind : type.kind = .int) {s : String} {n : Int64}
    (hnumeral : (Value.text s).asInteger = some n) : type.coerce (.text s) = .integer n :=
  (Stores.number hkind (Text.leadsWith_of_readInt64?_trim hnumeral)).coerce_eq

/-- A text column without a size has room for every number. -/
theorem coerce_coerce_integer {textType type : ColumnType} (hkind : textType.kind.holdsText = true)
    (hsize : textType.size = none) (hint : type.kind = .int) (n : Int64) :
    type.coerce (textType.coerce (.integer n)) = .integer n := by
  have hleads := Text.leadsWith_intDigits n.toInt
  have hne : Text.intDigits n.toInt ≠ [] := by
    intro hnil
    rw [hnil] at hleads
    obtain ⟨blanks, sign, negative, digits, rest, heq, -, -, hdigits, -⟩ := hleads
    simp [hdigits] at heq
  have hvalue : Value.integer n ≠ .null := nofun
  have hstored : textType.coerce (.integer n) = .text (String.ofList (Text.intDigits n.toInt)) := by
    rw [coerce_of_holdsText hkind hvalue, hsize]
    simp [truncate, clip, Value.display, hne]
  rw [hstored]
  refine (Stores.number hint ?_).coerce_eq
  rw [String.toList_ofList]
  exact hleads

end ColumnType

namespace Condition

/-- A text that reads as a number is compared as that number with a cell that reads as a number. -/
theorem holds_text_eq_holds_integer {type : ColumnType} (hkind : type.kind = .int) {cell : Value}
    (hcell : type.Admits cell) {s : String} {n : Int64}
    (hnumeral : (Value.text s).asInteger = some n) (column : String) {comparison : Comparison}
    (hlike : comparison ≠ .like) :
    holds ⟨column, comparison, .text s⟩ cell = holds ⟨column, comparison, .integer n⟩ cell := by
  let asText : Condition := ⟨column, comparison, .text s⟩
  let asNumber : Condition := ⟨column, comparison, .integer n⟩
  have htext : asText.literal ≠ .null := nofun
  have hnumber : asNumber.literal ≠ .null := nofun
  cases cell with
  | null =>
    calc asText.holds .null
        = (comparison == .ne) := holds_null_cell htext
      _ = asNumber.holds .null := (holds_null_cell hnumber).symm
  | integer m =>
    have hcell : Value.integer m ≠ .null := nofun
    calc asText.holds (.integer m)
        = comparison.holdsFor ((Value.integer m).compareRead (.text s)) :=
          holds_of_ne_null htext hcell hlike
      _ = comparison.holdsFor ((Value.integer m).compareRead (.integer n)) := by
          simp only [Value.compareRead, hnumeral]
          rfl
      _ = asNumber.holds (.integer m) := (holds_of_ne_null hnumber hcell hlike).symm
  | text t => exact absurd hkind hcell.1

end Condition

namespace Table

/-- No row of the table tells two literals apart, whatever comparison by order is made of the column with
    them and whatever conditions follow. -/
def ComparesAlike (table : Table) (column : String) (a b : Value) : Prop :=
  ∀ row ∈ table.rows, ∀ comparison, comparison ≠ .like → ∀ conditions : List Condition,
    meets table.schema row (⟨column, comparison, a⟩ :: conditions) =
      meets table.schema row (⟨column, comparison, b⟩ :: conditions)

theorem comparesAlike_of_asInteger {table : Table}
    (hfits : ∀ row ∈ table.rows, row.Fits table.schema) {column : Column}
    (hcolumn : column ∈ table.schema.columns) (hkind : column.type.kind = .int) {s : String}
    {n : Int64} (hnumeral : (Value.text s).asInteger = some n) :
    table.ComparesAlike column.name (.text s) (.integer n) := by
  intro row hrow comparison hlike conditions
  have hadmits := (hfits row hrow).admits column hcolumn
  have hholds := Condition.holds_text_eq_holds_integer hkind hadmits hnumeral column.name hlike
  simp only [meets, hholds]
  rfl

end Table

namespace Session

/-- The query of all columns for the rows that meet a condition shows a row, which is stored at the given
    place of the table. -/
def ShowsAt (session : Session) (name : String) (condition : Condition) (place : Nat) (row : Row) :
    Prop :=
  ∃ (table : Table) (selection : Selection) (shown : Nat),
    session.table name = .ok table ∧ table.rows[place]? = some row ∧
    (session.executeStatement (.select .all name (.only condition))).2 =
      .ok (.rowSet table.schema.names selection.rows) ∧
    table.select .all (.only condition) = .ok selection ∧
    selection.handles[shown]? = some place ∧ selection.rows[shown]? = some row

theorem showsAt_of_holds {session : Session} {name : String} {table : Table}
    (htable : session.table name = .ok table)
    (hrows : ∀ row ∈ table.rows, row.columns = table.schema.names) {condition : Condition}
    (hcolumn : condition.column ∈ table.schema.names) (hlike : condition.comparison ≠ .like)
    {place : Nat} {row : Row} (hrow : table.rows[place]? = some row)
    (hholds : condition.holds (row.get condition.column) = true) :
    session.ShowsAt name condition place row := by
  obtain ⟨selection, hselect, hmem⟩ := Table.select_only hrows hcolumn hlike
  obtain ⟨shown, hshown⟩ := List.mem_iff_getElem?.1 ((hmem place).2 ⟨row, hrow, hholds⟩)
  refine ⟨table, selection, shown, htable, hrow, ?_, hselect, hshown, ?_⟩
  · rw [result_select]
    refine bind_eq_ok_iff.2 ⟨table, htable, bind_eq_ok_iff.2 ⟨selection, hselect, ?_⟩⟩
    obtain ⟨picked, rfl, -, -⟩ := Table.exists_picked_of_select hselect
    rfl
  · have hstored := congrArg (·[shown]?) (Table.rows_of_select hrows hselect).2
    simp only [List.getElem?_map, hshown, Option.map_some, hrow] at hstored
    obtain ⟨found, hfound, heq⟩ := Option.map_eq_some_iff.1 hstored
    rw [hfound, heq]

/-- Insertions into the table succeed if their columns are known and their tuples as long as the list of
    columns. A row that gets the text in the column holds the number there, and is found again by the
    text as well as by the number. -/
def FindsInserted (session : Session) (name : String) (table : Table) (column s : String) (n : Int64) :
    Prop :=
  ∀ (columns : Option (List String)) (tuples : List (List Value)),
    (∀ name ∈ columns.getD table.schema.names, name ∈ table.schema.names) →
    (∀ tuple ∈ tuples, tuple.length = (columns.getD table.schema.names).length) →
    ∃ after, session.executeStatement (.insert name columns tuples) =
        (after, .ok (.affected tuples.length)) ∧
      ∀ (place : Nat) (tuple : List Value), tuples[place]? = some tuple →
        Assignment.lastFor? (List.zipWith Assignment.mk (columns.getD table.schema.names) tuple) column =
          some (.text s) →
        ∃ row : Row, row.get column = .integer n ∧ ∀ literal ∈ [Value.text s, .integer n],
          after.ShowsAt name ⟨column, .eq, literal⟩ (table.rows.length + place) row

theorem findsInserted_of_asInteger {session : Session} {name : String} {table : Table}
    (htable : session.table name = .ok table)
    (hrows : ∀ row ∈ table.rows, row.columns = table.schema.names) {column : Column}
    (hcolumn : column ∈ table.schema.columns) (hkind : column.type.kind = .int) {s : String}
    {n : Int64} (hnumeral : (Value.text s).asInteger = some n) :
    session.FindsInserted name table column.name s n := by
  intro columns tuples hknown hlengths
  obtain ⟨after, hinsert, hafter⟩ :=
    run_changeTable_of_ok htable (Table.run_insert_of_lengths hknown hlengths)
  refine ⟨after, hinsert, fun place tuple htuple hgiven => ?_⟩
  have hstored : (table.schema.rowFor columns tuple).get column.name = .integer n := by
    rw [Schema.get_rowFor hcolumn, Column.valueFrom, hgiven]
    exact ColumnType.coerce_of_asInteger hkind hnumeral
  refine ⟨table.schema.rowFor columns tuple, hstored, fun literal hliteral => ?_⟩
  apply showsAt_of_holds hafter
  case hcolumn => exact Schema.mem_names_of_mem hcolumn
  case hlike => exact nofun
  case hrows =>
    intro row hrow
    rcases List.mem_append.1 hrow with hold | hnew
    · exact hrows row hold
    · obtain ⟨_, -, rfl⟩ := List.mem_map.1 hnew
      exact table.schema.columns_rowFor columns _
  case hrow => simp [List.getElem?_append_right, htuple]
  case hholds =>
    have hown := Condition.holds_eq_self column.name (.integer n)
    simp only [List.mem_cons, List.not_mem_nil, or_false] at hliteral
    rw [hstored]
    rcases hliteral with rfl | rfl
    · have hadmits : column.type.Admits (.integer n) := hkind
      have hlike : Comparison.eq ≠ .like := nofun
      rw [Condition.holds_text_eq_holds_integer hkind hadmits hnumeral column.name hlike, hown]
    · exact hown

end Session

/-- A text that is a whole number between blanks is the same as that number for an integer column: it is
    stored as the number, no comparison by order tells it from the number, and a row that is inserted
    with it is found by both. Every number comes back from a text column without a size. -/
theorem integer_readers_agree :
    (∀ (s : String) (n : Int64), (Value.text s).asInteger = some n →
      (∀ type : ColumnType, type.kind = .int → type.coerce (.text s) = .integer n) ∧
      ∀ session : Session, session.Reachable → ∀ (database name : String) (table : Table),
        session.tableIn database name = some table →
        ∀ column ∈ table.schema.columns, column.type.kind = .int →
          table.ComparesAlike column.name (.text s) (.integer n) ∧
          (session.active = some database →
            session.FindsInserted name table column.name s n)) ∧
    ∀ (n : Int64) (kind : ColumnKind), kind.holdsText = true →
      ∀ type : ColumnType, type.kind = .int →
        type.coerce (ColumnType.coerce ⟨kind, none⟩ (.integer n)) = .integer n := by
  constructor
  · intro s n hnumeral
    refine ⟨fun type hkind => ColumnType.coerce_of_asInteger hkind hnumeral, ?_⟩
    intro session hreachable database name table htable column hcolumn hkind
    obtain ⟨-, hwell⟩ := hreachable.storedAs htable
    refine ⟨Table.comparesAlike_of_asInteger hwell.fits hcolumn hkind hnumeral, fun hactive => ?_⟩
    have hopen := Session.table_eq_ok_of_tableIn htable hactive
    have hrows := fun row hrow => (hwell.fits row hrow).columns_eq
    exact Session.findsInserted_of_asInteger hopen hrows hcolumn hkind hnumeral
  · exact fun n kind hkind type hint => ColumnType.coerce_coerce_integer hkind rfl hint n

/-- The stocked session takes a number with a sign between blanks, and the least number comes back. -/
theorem integer_readers_agree_stocked :
    ∃ (after : Session) (row : Row), (Value.text " +7\u00a0").asInteger = some 7 ∧
      Session.stocked.executeStatement
          (.insert "stock" none [[.text " +7\u00a0", .text "new"]]) = (after, .ok (.affected 1)) ∧
      row.get "id" = .integer 7 ∧
      after.ShowsAt "stock" ⟨"id", .eq, .text " +7\u00a0"⟩ 2 row ∧
      after.ShowsAt "stock" ⟨"id", .eq, .integer 7⟩ 2 row ∧
      ColumnType.coerce ⟨.int, none⟩ (ColumnType.coerce ⟨.char, none⟩ (.integer Int64.minValue)) =
        .integer Int64.minValue := by
  have hnumeral : (Value.text " +7\u00a0").asInteger = some 7 := rfl
  obtain ⟨hagree, hback⟩ := integer_readers_agree
  obtain ⟨-, htables⟩ := hagree _ _ hnumeral
  obtain ⟨table, htable, hcolumns, hlength⟩ : ∃ table : Table,
      Session.stocked.tableIn "shop" "stock" = some table ∧
        table.schema.columns = [⟨"id", ⟨.int, none⟩, 0⟩, ⟨"label", ⟨.varchar, some 3⟩, 1⟩] ∧
        table.rows.length = 2 := ⟨_, rfl, rfl, rfl⟩
  have hnames : table.schema.names = ["id", "label"] := by rw [Schema.names, hcolumns]; rfl
  have hcolumn : ⟨"id", ⟨.int, none⟩, 0⟩ ∈ table.schema.columns := hcolumns ▸ List.mem_cons_self
  obtain ⟨-, hfinds⟩ :=
    htables _ Session.reachable_stocked "shop" "stock" table htable _ hcolumn rfl
  obtain ⟨after, hinsert, hshows⟩ :=
    hfinds rfl none [[.text " +7\u00a0", .text "new"]] (by simp) (by simp [hnames])
  obtain ⟨row, hrow, hfound⟩ := hshows 0 _ rfl (by rw [hnames]; rfl)
  rw [hlength] at hfound
  exact ⟨after, row, hnumeral, hinsert, hrow, hfound _ List.mem_cons_self,
    hfound _ (List.mem_cons_of_mem _ List.mem_cons_self), hback _ .char rfl _ rfl⟩

end TableEngine
