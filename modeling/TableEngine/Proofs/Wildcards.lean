import TableEngine.Proofs.Conditions
import TableEngine.Proofs.Expressions

/-!
What patterns mean. A text matches a pattern if it falls into parts, one for each sign of the pattern in
order, that the signs read (`Pattern.Matches`). The expression that is written for a pattern has an item
for each sign (`Pattern.spelled_source`) and occurs in the texts that match
(`Pattern.occurs_iff_matches`). With any library of which the usual is documented, LIKE thus picks exactly
the rows whose text matches (`Table.like_picks_matches`).
-/

namespace TableEngine

open Regex (Library)

namespace Pattern

/-- What a sign of a pattern reads: the percent sign any text, every other sign one character that is
    the same but for letter case. -/
inductive Reads : Char → List Char → Prop
  | run (part : List Char) : Reads wildcard part
  | character {sign c : Char} (hsign : sign ≠ wildcard) (hsame : Text.fold c = Text.fold sign) :
      Reads sign [c]

/-- The text falls into parts that the signs of the pattern read one after the other. -/
def Matches (pattern text : List Char) : Prop :=
  ∃ parts, List.Forall₂ Reads pattern parts ∧ text = parts.flatten

theorem matches_nil_iff {text : List Char} : Matches [] text ↔ text = [] := by
  simp [Matches, List.forall₂_nil_left_iff]

theorem matches_cons_iff {sign : Char} {pattern text : List Char} :
    Matches (sign :: pattern) text ↔
      ∃ part rest, text = part ++ rest ∧ Reads sign part ∧ Matches pattern rest := by
  constructor
  · rintro ⟨parts, hparts, rfl⟩
    obtain ⟨part, others, hpart, hothers, rfl⟩ := List.forall₂_cons_left_iff.1 hparts
    exact ⟨part, others.flatten, List.flatten_cons, hpart, others, hothers, rfl⟩
  · rintro ⟨part, rest, rfl, hpart, parts, hparts, rfl⟩
    exact ⟨part :: parts, .cons hpart hparts, List.flatten_cons.symm⟩

theorem reads_iff_of_ne {sign : Char} (hsign : sign ≠ wildcard) {part : List Char} :
    Reads sign part ↔ ∃ c, part = [c] ∧ Text.fold c = Text.fold sign := by
  constructor
  · intro hreads
    cases hreads with
    | run => exact absurd rfl hsign
    | character _ hsame => exact ⟨_, rfl, hsame⟩
  · rintro ⟨c, rfl, hsame⟩
    exact .character hsign hsame

/-! Patterns as expressions. -/

/-- The item that stands for a sign of a pattern. -/
def item (sign : Char) : Regex.Item :=
  if sign = wildcard then .many .dot else .one (.character sign)

/-- The expression that stands for a pattern. -/
def expression (pattern : List Char) : Regex.Expression :=
  ⟨⟨true, true⟩, .start :: (pattern.map item ++ [.finish])⟩

/-- Joined by the item for the percent sign, the pieces of a pattern have an item for each of its signs. -/
theorem intercalate_literally (pattern : List Char) :
    [Regex.Item.many .dot].intercalate ((pattern.splitOn wildcard).map Regex.literally) =
      pattern.map item := by
  induction pattern with
  | nil => rfl
  | cons sign pattern ih =>
    obtain ⟨piece, others, hpieces⟩ := List.exists_cons_of_ne_nil (List.splitOn_ne_nil wildcard pattern)
    rw [List.splitOn_cons_eq_if_modifyHead, List.map_cons, ← ih, hpieces]
    by_cases hsign : sign = wildcard
    · simp [hsign, item, List.intercalate_cons_cons, Regex.literally]
    · cases others <;> simp [hsign, item, List.intercalate_cons_cons, Regex.literally]

theorem spelled_intercalate [Library] (hlibrary : Library.Documented) (pieces : List (List Char)) :
    Regex.Spelled ([Regex.Item.many .dot].intercalate (pieces.map Regex.literally))
      (['.', '*'].intercalate (pieces.map Library.escape)) := by
  induction pieces with
  | nil => exact .nil
  | cons piece pieces ih =>
    have hpiece := hlibrary.escape_spelled piece
    cases pieces with
    | nil => simpa using hpiece
    | cons next pieces =>
      simp only [List.map_cons, List.intercalate_cons_cons, List.append_assoc] at ih ⊢
      exact hpiece.append (.cons (.many .dot) ih)

/-- What is written for a pattern is its expression. -/
theorem spelled_source [Library] (hlibrary : Library.Documented) (pattern : List Char) :
    (expression pattern).Spelled (source pattern) := by
  have hbody : Regex.Spelled (pattern.map item) (body pattern) := by
    rw [← intercalate_literally]
    exact spelled_intercalate hlibrary _
  have hfinish : Regex.Spelled [.finish] ['$'] := .cons .finish .nil
  exact ⟨_, .cons .start (hbody.append hfinish), by simp [source, expression, Regex.Flags.source]⟩

theorem reads_item_iff {sign : Char} {before part after : List Char} :
    (item sign).Reads ⟨true, true⟩ before part after ↔ Reads sign part := by
  unfold item
  split
  · next hsign =>
    subst hsign
    have hdot (c : Char) : Regex.Atom.reads ⟨true, true⟩ .dot c = true := rfl
    exact ⟨fun _ => .run part, fun _ c _ => hdot c⟩
  · next hsign =>
    simp [reads_iff_of_ne hsign, Regex.Item.Reads, Regex.Atom.reads, Regex.Flags.letter]

theorem readsFrom_iff_matches {pattern before rest : List Char} :
    Regex.ReadsFrom ⟨true, true⟩ (pattern.map item ++ [.finish]) before rest ↔ Matches pattern rest := by
  induction pattern generalizing before rest with
  | nil => simp [matches_nil_iff, Regex.ReadsFrom, Regex.Item.Reads]
  | cons sign pattern ih =>
    simp only [matches_cons_iff, List.map_cons, List.cons_append, Regex.ReadsFrom, reads_item_iff, ih]

/-- The expression for a pattern occurs in the texts that match, as a whole. -/
theorem occurs_iff_matches {pattern text : List Char} :
    (expression pattern).Occurs text ↔ Matches pattern text := by
  constructor
  · rintro ⟨before, rest, rfl, part, after, rfl, ⟨rfl, rfl⟩, hafter⟩
    exact readsFrom_iff_matches.1 hafter
  · intro hmatches
    exact ⟨[], text, rfl, [], text, rfl, ⟨rfl, rfl⟩, readsFrom_iff_matches.2 hmatches⟩

/-- A text passes the test for a pattern if it matches. -/
theorem test_iff_matches [Library] (hlibrary : Library.Documented) {pattern : List Char}
    {test : List Char → Bool} (htest : compile pattern = some test) (text : List Char) :
    test text = true ↔ Matches pattern text :=
  (hlibrary.test_iff (spelled_source hlibrary pattern) htest text).trans occurs_iff_matches

end Pattern

namespace Condition

theorem pattern?_like (column : String) {literal : Value} (hliteral : literal ≠ .null) :
    pattern? ⟨column, .like, literal⟩ = some literal.display := by
  cases literal with
  | null => exact absurd rfl hliteral
  | _ => rfl

theorem holds_like [Library] (column : String) {literal : Value} (hliteral : literal ≠ .null) (s : String) :
    holds ⟨column, .like, literal⟩ (.text s) =
      (Pattern.compile literal.display.toList).any fun test => test s.toList := by
  cases literal with
  | null => exact absurd rfl hliteral
  | _ => rfl

theorem holds_like_text [Library] (hlibrary : Library.Documented) {column : String} {literal : Value}
    (hpatterns : ∀ pattern, pattern? ⟨column, .like, literal⟩ = some pattern →
      (Pattern.compile pattern.toList).isSome = true) (s : String) :
    holds ⟨column, .like, literal⟩ (.text s) = true ↔
      literal ≠ .null ∧ Pattern.Matches literal.display.toList s.toList := by
  by_cases hnull : literal = .null
  · simp [hnull, holds]
  · have hcompiles := hpatterns _ (pattern?_like column hnull)
    obtain ⟨test, htest⟩ := Option.isSome_iff_exists.1 hcompiles
    rw [holds_like column hnull, htest, Option.any_some, Pattern.test_iff_matches hlibrary htest,
      and_iff_right hnull]

theorem not_holds_like_null [Library] (column : String) (literal : Value) :
    holds ⟨column, .like, literal⟩ .null = false := by
  cases literal <;> rfl

end Condition

namespace Table

theorem appliesTo_of_holdsText {table : Table} {column : Column}
    (hcolumn : column ∈ table.schema.columns) (htext : column.type.kind.holdsText = true)
    {condition : Condition} (hname : condition.column = column.name) :
    condition.appliesTo table.schema = true := by
  have hfind : table.schema.find? column.name = some column :=
    Schema.find?_eq_some_iff.2 ⟨hcolumn, rfl⟩
  simp [Condition.appliesTo, hname, hfind, htext]

/-- In a column of texts, LIKE picks the rows whose text falls into parts as the pattern says, whatever
    library it is that does what is documented and compiles the pattern. It picks no row with NULL there,
    and NULL as the pattern picks no row at all. -/
theorem like_picks_matches [Library] (hlibrary : Library.Documented) {table : Table}
    (hrows : ∀ row ∈ table.rows, row.columns = table.schema.names) {column : Column}
    (hcolumn : column ∈ table.schema.columns) (htext : column.type.kind.holdsText = true)
    {literal : Value} (hpatterns : PatternsCompile (.only ⟨column.name, .like, literal⟩)) :
    ∃ selection, table.select .all (.only ⟨column.name, .like, literal⟩) = .ok selection ∧
      ∀ place row, table.rows[place]? = some row →
        (∀ s, row.get column.name = .text s → (place ∈ selection.handles ↔
          literal ≠ .null ∧ Pattern.Matches literal.display.toList s.toList)) ∧
        (row.get column.name = .null → place ∉ selection.handles) := by
  let condition : Condition := ⟨column.name, .like, literal⟩
  have hname : condition.column ∈ table.schema.names := Schema.mem_names_of_mem hcolumn
  have happlies : condition.appliesTo table.schema = true :=
    appliesTo_of_holdsText hcolumn htext rfl
  obtain ⟨selection, hselect, hmem⟩ := select_only_of_appliesTo hrows hname happlies hpatterns
  refine ⟨selection, hselect, fun place row hrow => ?_⟩
  have hplace : place ∈ selection.handles ↔ condition.holds (row.get column.name) = true := by
    rw [hmem]
    constructor
    · rintro ⟨other, hother, hholds⟩
      obtain rfl := Option.some.inj (hrow.symm.trans hother)
      exact hholds
    · exact fun hholds => ⟨row, hrow, hholds⟩
  constructor
  · intro s hcell
    rw [hplace, hcell]
    exact Condition.holds_like_text hlibrary (hpatterns condition List.mem_cons_self) s
  · intro hcell hpicked
    rw [hplace, hcell, Condition.not_holds_like_null] at hpicked
    cases hpicked

/-- The label of the first row has the letters of the pattern, in other letter case. That of the last
    row lacks one of them, and the second row has no label. -/
theorem like_picks_matches_on_shelf :
    Library.Documented ∧ PatternsCompile (.only ⟨"label", .like, .text "C%T%"⟩) ∧
      ∃ selection, shelf.select .all (.only ⟨"label", .like, .text "C%T%"⟩) = .ok selection ∧
        selection.handles = [0] ∧ Pattern.Matches "C%T%".toList "crates".toList ∧
        ¬Pattern.Matches "C%T%".toList "cans".toList := by
  have hpatterns : PatternsCompile (.only ⟨"label", .like, .text "C%T%"⟩) := by decide +kernel
  have hrun : (shelf.select .all (.only ⟨"label", .like, .text "C%T%"⟩)).map Selection.handles =
      .ok [0] := by
    decide +kernel
  have hcolumn : (⟨"label", ⟨.varchar, some 6⟩, 1⟩ : Column) ∈ shelf.schema.columns :=
    List.mem_cons_of_mem _ List.mem_cons_self
  obtain ⟨selection, hselect, hplaces⟩ :=
    like_picks_matches Regex.documented (by decide) hcolumn rfl hpatterns
  have hhandles : selection.handles = [0] := by
    rw [hselect] at hrun
    exact Except.ok.inj hrun
  have hfirst := (hplaces 0 _ rfl).1 "crates" rfl
  have hlast := (hplaces 2 _ rfl).1 "cans" rfl
  rw [hhandles] at hfirst hlast
  refine ⟨Regex.documented, hpatterns, selection, hselect, hhandles, ?_, ?_⟩
  · exact (hfirst.1 List.mem_cons_self).2
  · intro hmatches
    exact absurd (hlast.2 ⟨nofun, hmatches⟩) (by decide)

end Table

end TableEngine
