import TableEngine.Proofs.Import
import TableEngine.Proofs.TableReading

/-!
Which descriptions of a table are accepted, and what becomes of them (`Table.description_accepted_iff`). The
columns decide on the order; the records may name them in any order, leave some out and name others.
-/

namespace TableEngine

open Json.Reader

/-- What a column keeps of a record: the stored form of the value that the record gives it last, and NULL
    if it gives none. -/
def Column.recorded (column : Column) (record : List (String × Value)) : Value :=
  match OrderedMap.lastFor? record column.name with
  | some value => column.type.coerce value
  | none => .null

namespace TableDump

theorem named_typeOf_eq_ok_iff {definition : String × String} {pair : String × ColumnType} :
    named typeOf definition = .ok pair ↔
      (definition.1, ColumnType.parse? definition.2) = (pair.1, some pair.2) := by
  obtain ⟨name, type⟩ := pair
  unfold named typeOf
  cases ColumnType.parse? definition.2 <;> simp [Except.map]

theorem typesOf_eq_ok_iff {definitions : List (String × String)} {types : OrderedMap ColumnType} :
    typesOf definitions = .ok types ↔ ∃ pairs : List (String × ColumnType), .ofList pairs = types ∧
      (definitions.map fun (name, spec) => (name, ColumnType.parse? spec)) =
        pairs.map fun (name, type) => (name, some type) := by
  have hread (pairs : List (String × ColumnType)) : definitions.mapM (named typeOf) = .ok pairs ↔
      (definitions.map fun (name, spec) => (name, ColumnType.parse? spec)) =
        pairs.map fun (name, type) => (name, some type) := by
    rw [mapM_eq_ok_iff]
    induction definitions generalizing pairs with
    | nil => cases pairs <;> simp
    | cons definition definitions ih =>
      cases pairs with
      | nil => simp
      | cons pair pairs =>
        simp only [List.map_cons, List.cons.injEq, named_typeOf_eq_ok_iff, ih]
  unfold typesOf
  simp only [← hread]
  cases definitions.mapM (named typeOf) <;> simp [Except.map]

theorem exists_typesOf_iff {definitions : List (String × String)} :
    (∃ types, typesOf definitions = .ok types) ↔
      ∀ definition ∈ definitions, (ColumnType.parse? definition.2).isSome = true := by
  have hmap : (∃ types, typesOf definitions = .ok types) ↔
      ∃ pairs, definitions.mapM (named typeOf) = .ok pairs := by
    unfold typesOf
    cases definitions.mapM (named typeOf) <;> simp [Except.map]
  have hdefinition (definition : String × String) : (∃ pair, named typeOf definition = .ok pair) ↔
      (ColumnType.parse? definition.2).isSome = true := by
    simp [named_typeOf_eq_ok_iff, Option.isSome_iff_exists, Prod.exists]
  rw [hmap, exists_mapM_eq_ok_iff]
  exact forall₂_congr fun definition _ => hdefinition definition

/-- The type of a column is the one that is given last. -/
theorem get?_of_typesOf {definitions : List (String × String)} {types : OrderedMap ColumnType}
    (htypes : typesOf definitions = .ok types) (name : String) :
    types.get? name = (OrderedMap.lastFor? definitions name).bind ColumnType.parse? := by
  obtain ⟨pairs, rfl, hpairs⟩ := typesOf_eq_ok_iff.1 htypes
  have hlast := congrArg (OrderedMap.lastFor? · name) hpairs
  simp only [OrderedMap.lastFor?_map] at hlast
  rw [OrderedMap.get?_ofList]
  cases hpair : OrderedMap.lastFor? pairs name <;>
    cases hdefinition : OrderedMap.lastFor? definitions name <;> simp_all

theorem keys_of_typesOf {definitions : List (String × String)} {types : OrderedMap ColumnType}
    (htypes : typesOf definitions = .ok types) :
    types.keys = (definitions.map Prod.fst).eraseDups := by
  obtain ⟨pairs, rfl, hpairs⟩ := typesOf_eq_ok_iff.1 htypes
  have hnames := congrArg (List.map Prod.fst) hpairs
  rw [List.map_map, List.map_map] at hnames
  rw [OrderedMap.keys_ofList]
  exact congrArg List.eraseDups hnames.symm

/-- The columns and the definitions of a description are accepted: there are columns, none twice, each of
    them is given a type, and all types can be read, also those of names that are no columns. -/
structure Allows (columns : List String) (definitions : List (String × String)) : Prop where
  columns_ne_nil : columns ≠ []
  nodup : columns.Nodup
  defined : ∀ column ∈ columns, column ∈ definitions.map Prod.fst
  readable : ∀ definition ∈ definitions, (ColumnType.parse? definition.2).isSome = true

theorem exists_schema_iff {columns : List String} {types : OrderedMap ColumnType} {records : List Row} :
    (∃ schema, TableDump.schema ⟨columns, types, records⟩ = .ok schema) ↔
      columns ≠ [] ∧ columns.Nodup ∧ ∀ column ∈ columns, column ∈ types.keys := by
  simp only [schema_eq_ok_iff]
  constructor
  · rintro ⟨schema, hne, rfl, htypes⟩
    refine ⟨hne, schema.nodup_names, fun name hname => ?_⟩
    obtain ⟨column, hcolumn, rfl⟩ := List.mem_map.1 hname
    have hentry := OrderedMap.get?_eq_some_iff.1 (htypes column hcolumn)
    exact OrderedMap.mem_keys_of_mem_entries hentry
  · rintro ⟨hne, hnodup, hdefined⟩
    let pairs := columns.map fun column => (column, (types.get? column).getD default)
    have hnames : pairs.map Prod.fst = columns := by simp [pairs, Function.comp_def]
    obtain ⟨schema, hschema⟩ := Schema.exists_ofColumns (hnames.symm ▸ hnodup)
    have hpairs := Schema.pairs_of_ofColumns hschema
    refine ⟨schema, hne, by rw [← Schema.map_fst_pairs, hpairs, hnames], fun column hcolumn => ?_⟩
    have hpair := Schema.mem_pairs_of_mem hcolumn
    rw [hpairs] at hpair
    obtain ⟨name, hname, heq⟩ := List.mem_map.1 hpair
    obtain ⟨rfl, htype⟩ := Prod.mk.inj heq
    obtain ⟨type, hget⟩ := OrderedMap.exists_get?_of_mem_keys (hdefined _ hname)
    rw [← htype, hget, Option.getD_some]

/-- A record gives cells for some of the columns, each of them once. -/
theorem nodup_cells (schema : Schema) (record : Row) :
    ((cells schema record).map fun cell => cell.1.name).Nodup := by
  have hsublist : ((cells schema record).map Prod.fst).Sublist schema.columns := by
    unfold cells
    induction schema.columns with
    | nil => exact List.Sublist.refl []
    | cons column columns ih =>
      rw [List.filterMap_cons]
      cases record.cells.get? column.name with
      | none => exact ih.cons column
      | some value => exact ih.cons_cons column
  have hnames := hsublist.map Column.name
  rw [List.map_map] at hnames
  exact schema.nodup_names.sublist hnames

/-- The rows that a schema keeps of a record. -/
theorem toList_store_cells (table : Table) (record : List (String × Value)) :
    (Table.store table.emptyRow (cells table.schema (.ofList record))).toList =
      table.schema.columns.map fun column => (column.name, column.recorded record) := by
  have hstored : (Table.store table.emptyRow (cells table.schema (.ofList record))).Fits table.schema :=
    table.fits_emptyRow.store fun cell hcell => mem_columns_of_mem_cells hcell
  have hget : ∀ column ∈ table.schema.columns,
      (Table.store table.emptyRow (cells table.schema (.ofList record))).get column.name =
        column.recorded record := by
    intro column hcolumn
    have hgiven : (Row.ofList record).cells.get? column.name = _ := OrderedMap.get?_ofList record _
    unfold Column.recorded
    cases hlast : OrderedMap.lastFor? record column.name with
    | some value =>
      rw [hlast] at hgiven
      have hcell : (column, value) ∈ cells table.schema (.ofList record) :=
        List.mem_filterMap.2 ⟨column, hcolumn, Option.map_eq_some_iff.2 ⟨value, hgiven, rfl⟩⟩
      exact Table.get_store_of_mem (nodup_cells _ _) hcell _
    | none =>
      rw [hlast] at hgiven
      have hmissing : column.name ∉ (cells table.schema (.ofList record)).map fun cell => cell.1.name := by
        intro hmem
        obtain ⟨cell, hcell, hname⟩ := List.mem_map.1 hmem
        obtain ⟨found, -, hvalue⟩ := List.mem_filterMap.1 hcell
        obtain ⟨value, hget, rfl⟩ := Option.map_eq_some_iff.1 hvalue
        rw [show found.name = column.name from hname, hgiven] at hget
        cases hget
      rw [Table.get_store_of_not_mem hmissing, Table.get_emptyRow]
  rw [← Row.map_get_columns, hstored.columns_eq, Schema.names, List.map_map]
  exact List.map_congr_left fun column hcolumn => congrArg (Prod.mk column.name) (hget column hcolumn)

end TableDump

namespace Table

theorem exists_ofMembers_iff {members : List TableDump.Member} {columns : List String}
    {definitions : List (String × String)} {records : Option (List (List (String × Value)))}
    (hdescribes : TableDump.Describes members columns definitions records) :
    (∃ table, (TableDump.ofMembers members >>= ofDump "") = .ok table) ↔
      TableDump.Allows columns definitions := by
  simp only [bind_eq_ok_iff, ofDump_eq_ok_iff, TableDump.ofMembers_eq_ok_iff hdescribes]
  constructor
  · rintro ⟨_, _, ⟨types, htypes, rfl⟩, schema, hschema, -⟩
    obtain ⟨hne, hnodup, hdefined⟩ := TableDump.exists_schema_iff.1 ⟨schema, hschema⟩
    refine ⟨hne, hnodup, fun column hcolumn => ?_, TableDump.exists_typesOf_iff.1 ⟨types, htypes⟩⟩
    have hkey := hdefined column hcolumn
    rwa [TableDump.keys_of_typesOf htypes, List.mem_eraseDups] at hkey
  · rintro ⟨hne, hnodup, hdefined, hreadable⟩
    obtain ⟨types, htypes⟩ := TableDump.exists_typesOf_iff.2 hreadable
    have hkeys : ∀ column ∈ columns, column ∈ types.keys := by
      intro column hcolumn
      rw [TableDump.keys_of_typesOf htypes, List.mem_eraseDups]
      exact hdefined column hcolumn
    obtain ⟨schema, hschema⟩ := TableDump.exists_schema_iff.2 ⟨hne, hnodup, hkeys⟩
    exact ⟨_, _, ⟨types, htypes, rfl⟩, schema, hschema, rfl⟩

theorem makes_reader {members : List TableDump.Member}
    (hproper : ∀ member ∈ members, member.IsProper) :
    reader.Makes (Json.object (members.map TableDump.Member.json))
      (TableDump.ofMembers members >>= ofDump "") := by
  rw [← List.append_nil (Json.object _)]
  refine (TableDump.makes_reader hproper).bind fun dump => ?_
  cases ofDump "" dump <;> exact fun _ => rfl

/-- A description of a table is read alike wherever it stands. It is accepted exactly if its columns and its
    definitions allow it, and describes the table that has these columns in order, each with the type
    that is defined for it last, and one row for each record, with what the columns keep of the
    record. -/
theorem description_accepted_iff {members : List TableDump.Member} {columns : List String}
    {definitions : List (String × String)} {records : Option (List (List (String × Value)))}
    (hdescribes : TableDump.Describes members columns definitions records) :
    ∃ result : Except ImportFault Table,
      reader.Makes (Json.object (members.map TableDump.Member.json)) result ∧
      (∀ text : String,
        Json.Lexer.readAll text.toList = Json.object (members.map TableDump.Member.json) →
          ofJson text = result.mapError .invalidImport) ∧
      ((∃ table, result = .ok table) ↔ TableDump.Allows columns definitions) ∧
      ∀ table, result = .ok table →
        table.schema.names = columns ∧
        (∀ column ∈ table.schema.columns,
          (OrderedMap.lastFor? definitions column.name).bind ColumnType.parse? = some column.type) ∧
        table.rows.map Row.toList = (records.getD []).map fun record =>
          table.schema.columns.map fun column => (column.name, column.recorded record) := by
  have hmakes := makes_reader hdescribes.proper
  refine ⟨_, hmakes, ?_, exists_ofMembers_iff hdescribes, ?_⟩
  · intro text htext
    rw [← htext] at hmakes
    rw [ofJson, hmakes.readText]
  · intro table htable
    obtain ⟨dump, hdump, hmade⟩ := bind_eq_ok_iff.1 htable
    obtain ⟨types, htypes, rfl⟩ := (TableDump.ofMembers_eq_ok_iff hdescribes).1 hdump
    obtain ⟨schema, hschema, rfl⟩ := ofDump_eq_ok_iff.1 hmade
    obtain ⟨-, hnames, hdeclared⟩ := TableDump.schema_eq_ok_iff.1 hschema
    refine ⟨hnames, fun column hcolumn => ?_, ?_⟩
    · rw [← TableDump.get?_of_typesOf htypes, hdeclared column hcolumn]
    · dsimp only
      rw [List.map_map, List.map_map]
      exact List.map_congr_left fun record _ => TableDump.toList_store_cells (new "" schema) record

/-- A description that starts with a note and with its records, and gives a type to a name that is no
    column. -/
def describing (spare : String) : List TableDump.Member := [
  .other "note" (Json.array [[.boolean true], Json.object [("size", [.null])]]),
  .records [
    [("name", .text "Jackson"), ("id", .integer 1), ("age", .integer 2)],
    [("name", .text "Al"), ("name", .text "Bob")]],
  .columns ["id", "name"],
  .definitions [("name", "VARCHAR(3)"), ("spare", spare), ("id", "int (10)")]]

/-- The description is accepted if the type of the other name can be read, and only then. -/
theorem description_accepted_spare :
    (∃ text table, ofJson text = .ok table ∧
      Json.Lexer.readAll text.toList = Json.object ((describing "CHAR").map TableDump.Member.json) ∧
      table.schema.names = ["id", "name"] ∧ table.rows.map Row.toList =
        [[("id", .integer 1), ("name", .text "Jac")], [("id", .null), ("name", .text "Bob")]]) ∧
    ∃ text fault, ofJson text = .error (.invalidImport fault) ∧
      Json.Lexer.readAll text.toList =
        Json.object ((describing "TEXT").map TableDump.Member.json) := by
  have hvalue : Json.IsValue (Json.array [[.boolean true], Json.object [("size", [.null])]]) := by
    refine .array (List.forall_mem_cons.2 ⟨.scalar rfl, List.forall_mem_singleton.2 ?_⟩)
    exact .object (List.forall_mem_singleton.2 (.scalar rfl))
  have hdescribes (spare : String) : TableDump.Describes (describing spare) ["id", "name"]
      [("name", "VARCHAR(3)"), ("spare", spare), ("id", "int (10)")]
      (some [[("name", .text "Jackson"), ("id", .integer 1), ("age", .integer 2)],
        [("name", .text "Al"), ("name", .text "Bob")]]) :=
    ⟨rfl, rfl, rfl, by simp [describing, TableDump.Member.IsProper, hvalue]⟩
  have htext (spare : String) : ∃ text : String, Json.Lexer.readAll text.toList =
      Json.object ((describing spare).map TableDump.Member.json) := by
    apply TableDump.exists_text
    intro name value hother
    obtain ⟨-, rfl⟩ : name = "note" ∧ value = _ := by simpa [describing] using hother
    refine Json.readable_array (List.forall_mem_cons.2 ⟨Json.readable_singleton rfl, ?_⟩)
    refine List.forall_mem_singleton.2 (Json.readable_object (List.forall_mem_singleton.2 ?_))
    exact Json.readable_singleton rfl
  constructor
  · obtain ⟨result, -, htexts, haccepted, hmade⟩ := description_accepted_iff (hdescribes "CHAR")
    obtain ⟨table, rfl⟩ := haccepted.2 ⟨by decide, by decide, by decide, by decide⟩
    obtain ⟨hnames, htypes, hrows⟩ := hmade table rfl
    obtain ⟨text, hread⟩ := htext "CHAR"
    refine ⟨text, table, htexts text hread, hread, hnames, ?_⟩
    obtain ⟨⟨_, first, _⟩, _, hcolumns, rfl, hothers⟩ := List.map_eq_cons_iff.1 hnames
    obtain ⟨⟨_, second, _⟩, _, rfl, rfl, hnone⟩ := List.map_eq_cons_iff.1 hothers
    obtain rfl := List.map_eq_nil_iff.1 hnone
    rw [hcolumns] at hrows htypes
    have hid : ColumnType.parse? "int (10)" = some ⟨.int, some 10⟩ := rfl
    have hname : ColumnType.parse? "VARCHAR(3)" = some ⟨.varchar, some 3⟩ := rfl
    obtain rfl := Option.some.inj (hid.symm.trans (htypes _ List.mem_cons_self))
    obtain rfl := Option.some.inj
      (hname.symm.trans (htypes _ (List.mem_cons_of_mem _ List.mem_cons_self)))
    rw [hrows]
    rfl
  · obtain ⟨result, -, htexts, haccepted, -⟩ := description_accepted_iff (hdescribes "TEXT")
    obtain ⟨text, hread⟩ := htext "TEXT"
    cases result with
    | error fault => exact ⟨text, fault, htexts text hread, hread⟩
    | ok table =>
      obtain ⟨-, -, -, hreadable⟩ := haccepted.1 ⟨table, rfl⟩
      have htype : (ColumnType.parse? "TEXT").isSome = true := hreadable ("spare", "TEXT") (by simp)
      exact absurd htype (by decide)

end Table

end TableEngine
