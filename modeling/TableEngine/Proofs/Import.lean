import TableEngine.Dump
import TableEngine.Proofs.WellFormed

/-!
Imported data has the form of stored data. A dump may say anything: its tables are made from it column
by column and cell by cell, so that whatever is read from a dump is well formed
(`Catalog.wellFormed_of_ofJson`).
-/

namespace TableEngine

namespace Json.Reader

variable {α β σ : Type}

/-- Whatever the reader gives has a property. -/
def Yields (reader : Reader α) (P : α → Prop) : Prop :=
  ∀ ⦃tokens a rest⦄, reader.run tokens = .ok (a, rest) → P a

theorem yields_true (reader : Reader α) : reader.Yields fun _ => True :=
  fun _ _ _ _ => trivial

theorem yields_pure {P : α → Prop} {a : α} (ha : P a) : (pure a : Reader α).Yields P := by
  intro tokens b rest hrun
  cases hrun
  exact ha

theorem yields_fail (P : α → Prop) (fault : ImportFault) : (fail fault : Reader α).Yields P := by
  intro tokens a rest hrun
  cases hrun

theorem Yields.bind {P : α → Prop} {Q : β → Prop} {reader : Reader α} {next : α → Reader β}
    (hreader : reader.Yields P) (hnext : ∀ a, P a → (next a).Yields Q) :
    (reader >>= next).Yields Q := by
  intro tokens b rest hrun
  rw [run_bind] at hrun
  split at hrun
  · next a behind hfirst => exact hnext a (hreader hfirst) hrun
  · cases hrun

/-- What every member of an object keeps, the object keeps. -/
theorem yields_object {P : σ → Prop} {member : σ → String → Reader σ} {state : σ} (hstate : P state)
    (hmember : ∀ state name, P state → (member state name).Yields P) :
    (object member state).Yields P := by
  refine (yields_true _).bind ?_
  intro _ _
  refine (yields_true _).bind ?_
  intro closed _
  split
  · exact yields_pure hstate
  · intro tokens final rest hrun
    change runMembers text? member state tokens = .ok (final, rest) at hrun
    fun_induction runMembers text? member state tokens with
    | case2 state key value name hname after behind hvalue =>
      cases hrun
      exact hmember state name hstate hvalue
    | case3 state key value name hname after behind hvalue ih =>
      exact ih (hmember state name hstate hvalue) hrun
    | case1 => cases hrun
    | case4 => cases hrun
    | case5 => cases hrun
    | case6 => cases hrun

theorem yields_map {P : α → Prop} {value : Reader α} (hvalue : value.Yields P) :
    (map value).Yields fun m => ∀ entry ∈ m.entries, P entry.2 := by
  apply yields_object
  · intro entry hentry
    cases hentry
  · intro entries name hentries
    refine hvalue.bind ?_
    intro a ha
    apply yields_pure
    intro entry hentry
    rcases OrderedMap.mem_entries_insert.1 hentry with rfl | ⟨-, hold⟩
    · exact ha
    · exact hentries entry hold

theorem Yields.of_readText {P : α → Prop} {reader : Reader α} (hreader : reader.Yields P)
    {text : List Char} {a : α} (hread : reader.readText text = .ok a) : P a := by
  unfold readText at hread
  split at hread
  · next hrun =>
    cases hread
    exact hreader hrun
  · cases hread
  · cases hread

end Json.Reader

open Json.Reader

namespace TableDump

theorem yields_typeReader : typeReader.Yields ColumnType.IsProper := by
  refine (yields_true _).bind ?_
  intro spec _
  split
  · next type htype => exact yields_pure (ColumnType.isProper_of_parse? htype)
  · exact yields_fail _ _

/-- All sizes that are given are proper. -/
def ProperTypes (types : OrderedMap ColumnType) : Prop :=
  ∀ entry ∈ types.entries, entry.2.IsProper

theorem yields_typesReader : typesReader.Yields ProperTypes :=
  yields_map yields_typeReader

theorem yields_memberReader {parts : Parts} (hparts : ∀ types ∈ parts.types, ProperTypes types)
    (name : String) :
    (memberReader parts name).Yields fun parts => ∀ types ∈ parts.types, ProperTypes types := by
  unfold memberReader
  split
  · exact (yields_true _).bind fun _ _ => yields_pure hparts
  · refine yields_typesReader.bind fun read hread => yields_pure ?_
    intro types htypes
    cases htypes
    exact hread
  · exact (yields_true _).bind fun _ _ => yields_pure hparts
  · exact yields_fail _ _
  · exact yields_fail _ _
  · exact yields_fail _ _
  · exact (yields_true _).bind fun _ _ => yields_pure hparts

theorem yields_reader : reader.Yields fun dump => ProperTypes dump.types := by
  refine (yields_true _).bind ?_
  intro first _
  split
  · refine (yields_true _).bind fun _ _ => (yields_true _).bind fun columns _ => ?_
    refine (yields_true _).bind fun _ _ => yields_typesReader.bind fun types htypes => ?_
    refine (yields_true _).bind fun closed _ => ?_
    split
    · exact yields_pure htypes
    · refine (yields_true _).bind fun _ _ => (yields_true _).bind fun records _ => ?_
      exact (yields_true _).bind fun _ _ => yields_pure htypes
  · refine (yields_object (P := fun parts => ∀ types ∈ parts.types, ProperTypes types) ?_ ?_).bind ?_
    · intro types htypes
      cases htypes
    · exact fun parts name hparts => yields_memberReader hparts name
    · intro parts hparts
      split
      · next types _ => exact yields_pure (hparts types rfl)
      · exact yields_fail _ _

theorem addColumn_eq_ok_iff {types : OrderedMap ColumnType} {schema extended : Schema}
    {column : String} :
    addColumn types schema column = .ok extended ↔
      ∃ type, types.get? column = some type ∧ schema.add? column type = some extended := by
  unfold addColumn
  cases types.get? column with
  | none => simp
  | some type => cases hadd : schema.add? column type <;> simp [hadd]

theorem foldlM_addColumn_eq_ok_iff {types : OrderedMap ColumnType} {names : List String}
    {start schema : Schema} :
    names.foldlM (addColumn types) start = .ok schema ↔
      ∃ pairs, schema.pairs = start.pairs ++ pairs ∧ pairs.map Prod.fst = names ∧
        ∀ pair ∈ pairs, types.get? pair.1 = some pair.2 := by
  induction names generalizing start with
  | nil =>
    constructor
    · intro hfold
      cases hfold
      exact ⟨[], by simp, rfl, by simp⟩
    · rintro ⟨pairs, hschema, hnames, -⟩
      rw [List.map_eq_nil_iff.1 hnames, List.append_nil] at hschema
      rw [Schema.eq_of_pairs_eq hschema]
      rfl
  | cons name names ih =>
    simp only [List.foldlM_cons, bind_eq_ok_iff, addColumn_eq_ok_iff, ih]
    constructor
    · rintro ⟨extended, ⟨type, htype, hadd⟩, pairs, hschema, hnames, htypes⟩
      refine ⟨(name, type) :: pairs, ?_, by simp [hnames], ?_⟩
      · rw [hschema, Schema.pairs_of_add? hadd, List.append_assoc]
        rfl
      · exact List.forall_mem_cons.2 ⟨htype, htypes⟩
    · rintro ⟨pairs, hschema, hnames, htypes⟩
      cases pairs with
      | nil => cases hnames
      | cons pair pairs =>
        obtain ⟨column, type⟩ := pair
        obtain ⟨rfl, hrest⟩ := List.cons.inj hnames
        obtain ⟨htype, htypes⟩ := List.forall_mem_cons.1 htypes
        have hnodup := schema.nodup_names
        rw [← Schema.map_fst_pairs, hschema, List.map_append, List.nodup_append] at hnodup
        have hnew : column ∉ start.names := by
          intro hold
          rw [← Schema.map_fst_pairs] at hold
          exact hnodup.2.2 column hold column (by simp) rfl
        obtain ⟨extended, hadd⟩ := Schema.exists_add? type hnew
        refine ⟨extended, ⟨type, htype, hadd⟩, pairs, ?_, hrest, htypes⟩
        rw [hschema, Schema.pairs_of_add? hadd, List.append_assoc]
        rfl

/-- A dump describes the schema that has the columns of the dump, each with the type that the dump
    gives it, if there are any. -/
theorem schema_eq_ok_iff {dump : TableDump} {schema : Schema} :
    dump.schema = .ok schema ↔
      dump.columns ≠ [] ∧ schema.names = dump.columns ∧
        ∀ column ∈ schema.columns, dump.types.get? column.name = some column.type := by
  unfold TableDump.schema
  split
  · next hempty => simp [List.isEmpty_iff.1 hempty]
  · next hcolumns =>
    rw [foldlM_addColumn_eq_ok_iff]
    constructor
    · rintro ⟨pairs, hschema, hnames, htypes⟩
      obtain rfl : schema.pairs = pairs := hschema
      refine ⟨by simpa using hcolumns, by rw [← hnames, Schema.map_fst_pairs], ?_⟩
      exact fun column hcolumn => htypes _ (Schema.mem_pairs_of_mem hcolumn)
    · rintro ⟨-, hnames, htypes⟩
      refine ⟨schema.pairs, rfl, by rw [Schema.map_fst_pairs, hnames], ?_⟩
      intro pair hpair
      obtain ⟨column, hcolumn, rfl⟩ := List.mem_map.1 hpair
      exact htypes column hcolumn

theorem mem_columns_of_mem_cells {schema : Schema} {record : Row} {cell : Column × Value}
    (hcell : cell ∈ cells schema record) : cell.1 ∈ schema.columns := by
  obtain ⟨column, hcolumn, hvalue⟩ := List.mem_filterMap.1 hcell
  obtain ⟨value, -, rfl⟩ := Option.map_eq_some_iff.1 hvalue
  exact hcolumn

end TableDump

namespace Table

theorem ofDump_eq_ok_iff {name : String} {dump : TableDump} {table : Table} :
    ofDump name dump = .ok table ↔
      ∃ schema, dump.schema = .ok schema ∧
        table = ⟨name, schema, dump.records.map fun record =>
          store (new name schema).emptyRow (TableDump.cells schema record)⟩ := by
  unfold ofDump
  rw [bind_eq_ok_iff]
  constructor
  · rintro ⟨schema, hschema, heq⟩
    exact ⟨schema, hschema, (Except.ok.inj heq).symm⟩
  · rintro ⟨schema, hschema, rfl⟩
    exact ⟨schema, hschema, rfl⟩

theorem wellFormed_of_ofDump {name : String} {dump : TableDump} {table : Table}
    (hdump : ofDump name dump = .ok table) (htypes : TableDump.ProperTypes dump.types) :
    table.WellFormed := by
  obtain ⟨schema, hschema, rfl⟩ := ofDump_eq_ok_iff.1 hdump
  obtain ⟨hcolumns, hnames, hdeclared⟩ := TableDump.schema_eq_ok_iff.1 hschema
  refine ⟨?_, ?_, ?_⟩
  · intro hempty
    apply hcolumns
    rw [← hnames, Schema.names, show schema.columns = [] from hempty, List.map_nil]
  · intro column hcolumn
    exact htypes _ (OrderedMap.get?_eq_some_iff.1 (hdeclared column hcolumn))
  · intro row hrow
    obtain ⟨record, -, rfl⟩ := List.mem_map.1 hrow
    apply ((new name schema).fits_emptyRow).store
    exact fun cell hcell => TableDump.mem_columns_of_mem_cells hcell

theorem yields_reader : reader.Yields WellFormed := by
  refine TableDump.yields_reader.bind ?_
  intro dump htypes
  split
  · next table htable => exact yields_pure (wellFormed_of_ofDump htable htypes)
  · exact yields_fail _ _

end Table

/-- Tables get the names that they are read under. -/
theorem Database.yields_reader : reader.Yields WellFormed := by
  refine (yields_map Table.yields_reader).bind ?_
  intro tables htables
  apply yields_pure
  intro entry hentry
  obtain ⟨⟨name, table⟩, htable, rfl⟩ := List.mem_map.1 hentry
  have hwell : table.WellFormed := htables (name, table) htable
  exact ⟨rfl, hwell.columns_ne_nil, hwell.proper, hwell.fits⟩

namespace Catalog

/-- Whatever a dump says, the catalog that is read from it is well formed. -/
theorem wellFormed_of_ofJson {dump : String} {catalog : Catalog} (hread : ofJson dump = .ok catalog) :
    catalog.WellFormed := by
  unfold ofJson at hread
  split at hread
  · cases hread
  · next read hdump =>
    split at hread
    · cases hread
    · next hnames =>
      cases hread
      have hyields : reader.Yields fun catalog =>
          ∀ entry ∈ catalog.databases.entries, entry.2.WellFormed :=
        (yields_map Database.yields_reader).bind fun databases hdatabases => yields_pure hdatabases
      intro entry hentry
      refine ⟨?_, hyields.of_readText hdump entry hentry⟩
      have hname := List.find?_eq_none.1 hnames entry.1 (OrderedMap.mem_keys_of_mem_entries hentry)
      simpa using hname

end Catalog

end TableEngine
