import Mathlib.Data.List.Forall2
import Mathlib.Data.List.Induction
import TableEngine.Proofs.Agreement
import TableEngine.Proofs.TypeText

/-!
What becomes of a declared table. A table keeps the declared columns that are usable, in their order; the
relation `Database.Declares` tells this for every list of columns, together with what is wrong where no
table comes of it (`Database.run_createTable_iff`). What is shown of a table declares an equal one
(`Database.tables_made_as_declared`).
-/

namespace TableEngine

open Mutation

namespace ColumnSpec

/-- The declared column is kept: its name is valid and its type can be read. -/
def IsUsable (spec : ColumnSpec) : Prop :=
  isValidName spec.name = true ∧ (ColumnType.parse? spec.type).isSome = true

instance : DecidablePred IsUsable :=
  fun spec => inferInstanceAs (Decidable (isValidName spec.name = true ∧ _))

/-- The declared columns that are kept. -/
def usable (specs : List ColumnSpec) : List ColumnSpec :=
  specs.filter IsUsable

/-- The row that shows a declared column. -/
def row (spec : ColumnSpec) : Row :=
  .ofList [("Field", .text spec.name), ("Type", .text spec.type)]

/-- A name and a type are what the column is declared with. -/
def Names (spec : ColumnSpec) (pair : String × ColumnType) : Prop :=
  pair.1 = spec.name ∧ ColumnType.parse? spec.type = some pair.2

end ColumnSpec

namespace Schema

/-- The schema has the declared columns in their order, each with the type that its text names and at
    its place. -/
structure MadeOf (schema : Schema) (specs : List ColumnSpec) : Prop where
  columns : List.Forall₂ (fun (spec : ColumnSpec) (column : Column) =>
    column.name = spec.name ∧ ColumnType.parse? spec.type = some column.type) specs schema.columns
  positions : schema.columns.map Column.position = List.range specs.length

theorem madeOf_iff {schema : Schema} {specs : List ColumnSpec} :
    schema.MadeOf specs ↔ List.Forall₂ ColumnSpec.Names specs schema.pairs := by
  rw [pairs, List.forall₂_map_right_iff]
  constructor
  · exact fun hmade => hmade.columns
  · intro hcolumns
    exact ⟨hcolumns, by rw [schema.positions, hcolumns.length_eq]⟩

/-- The columns of a schema as they would be declared. -/
def specs (schema : Schema) : List ColumnSpec :=
  schema.columns.map fun column => ⟨column.name, column.type.display⟩

theorem madeOf_specs {schema : Schema} (hproper : ∀ column ∈ schema.columns, column.type.IsProper) :
    schema.MadeOf schema.specs := by
  refine ⟨?_, by rw [schema.positions, specs, List.length_map]⟩
  rw [specs, List.forall₂_map_left_iff, List.forall₂_same]
  exact fun column hcolumn => ⟨rfl, ColumnType.parse?_display (hproper column hcolumn)⟩

/-- A schema cannot have a name twice: the first column whose name has come up before is blamed. -/
theorem ofColumns_of_repeated {front back : List (String × ColumnType)} {pair : String × ColumnType}
    (hfront : (front.map Prod.fst).Nodup) (hrepeated : pair.1 ∈ front.map Prod.fst) :
    ofColumns (front ++ pair :: back) = .error (.syntaxError (.repeatedColumn pair.1)) := by
  obtain ⟨schema, hschema⟩ := exists_ofColumns hfront
  have hpairs := pairs_of_ofColumns hschema
  have htaken : schema.add? pair.1 pair.2 = none := by
    rw [← hpairs, map_fst_pairs] at hrepeated
    rw [Option.eq_none_iff_forall_ne_some]
    exact fun extended hadd => (add?_eq_some_iff.1 hadd).1 hrepeated
  unfold ofColumns at hschema ⊢
  rw [List.foldlM_append, hschema]
  change (do List.foldlM _ (← schema.add pair.1 pair.2) back) = _
  simp only [add, htaken]
  rfl

end Schema

/-- A list in which something comes up twice has a first item that repeats an earlier one. -/
theorem exists_first_repeated {α β : Type} (f : α → β) {items : List α}
    (hrepeated : ¬(items.map f).Nodup) :
    ∃ front item back, items = front ++ item :: back ∧ (front.map f).Nodup ∧
      f item ∈ front.map f := by
  induction items using List.reverseRecOn with
  | nil => exact absurd List.nodup_nil hrepeated
  | append_singleton items last ih =>
    by_cases hnodup : (items.map f).Nodup
    · refine ⟨items, last, [], rfl, hnodup, ?_⟩
      by_contra hnew
      rw [List.map_append, List.map_singleton] at hrepeated
      exact hrepeated (hnodup.append (List.nodup_singleton _) (List.disjoint_singleton.2 hnew))
    · obtain ⟨front, item, back, rfl, hfront⟩ := ih hnodup
      exact ⟨front, item, back ++ [last], by simp, hfront⟩

namespace Database

/-- What becomes of a declared table: the database afterwards and the result. -/
inductive Declares (database : Database) (name : String) (specs : List ColumnSpec) :
    Database → Except Error Unit → Prop
  | invalidName (hname : isValidName name = false) :
      Declares database name specs database (.error (.syntaxError (.invalidName name)))
  | taken (hname : isValidName name = true) (htaken : name ∈ database.tableNames) :
      Declares database name specs database (.error (.tableExists name))
  /-- No column is usable. -/
  | noColumns (hname : isValidName name = true) (hnew : name ∉ database.tableNames)
      (hnone : ColumnSpec.usable specs = []) :
      Declares database name specs database (.error (.syntaxError (.noColumns name)))
  /-- Two usable columns have the same name. What the others are called does not matter. -/
  | repeated (hname : isValidName name = true) (hnew : name ∉ database.tableNames)
      {front back : List ColumnSpec} {spec : ColumnSpec}
      (husable : ColumnSpec.usable specs = front ++ spec :: back)
      (hfront : (front.map ColumnSpec.name).Nodup)
      (hrepeated : spec.name ∈ front.map ColumnSpec.name) :
      Declares database name specs database (.error (.syntaxError (.repeatedColumn spec.name)))
  /-- An empty table is added behind the tables that there are. -/
  | created (hname : isValidName name = true) (hnew : name ∉ database.tableNames)
      (hsome : ColumnSpec.usable specs ≠ [])
      (hnodup : ((ColumnSpec.usable specs).map ColumnSpec.name).Nodup)
      {schema : Schema} (hschema : schema.MadeOf (ColumnSpec.usable specs)) {after : Database}
      (hafter : after.tables.entries = database.tables.entries ++ [(name, ⟨name, schema, []⟩)]) :
      Declares database name specs after (.ok ())

theorem names_usableColumns (specs : List ColumnSpec) :
    List.Forall₂ ColumnSpec.Names (ColumnSpec.usable specs) (usableColumns specs) := by
  induction specs with
  | nil => exact .nil
  | cons spec specs ih =>
    unfold ColumnSpec.usable usableColumns at ih ⊢
    cases htype : ColumnType.parse? spec.type with
    | none =>
      have hspec : ¬spec.IsUsable := fun husable => by simp [ColumnSpec.IsUsable, htype] at husable
      simpa [htype, hspec] using ih
    | some type =>
      by_cases hname : isValidName spec.name = true
      · have hspec : spec.IsUsable := ⟨hname, by rw [htype]; rfl⟩
        simp only [List.filter_cons, List.filterMap_cons, htype, hname, hspec, decide_true, if_true]
        exact .cons ⟨rfl, htype⟩ ih
      · have hspec : ¬spec.IsUsable := fun husable => hname husable.1
        simpa [htype, hname, hspec] using ih

/-- The pairs of names and types are those that the columns are declared with. -/
theorem names_inj {specs : List ColumnSpec} {pairs others : List (String × ColumnType)}
    (hpairs : List.Forall₂ ColumnSpec.Names specs pairs)
    (hothers : List.Forall₂ ColumnSpec.Names specs others) : pairs = others := by
  induction hpairs generalizing others with
  | nil =>
    cases hothers
    rfl
  | cons hpair _ ih =>
    cases hothers with
    | cons hother hrest =>
      have htype := hpair.2.symm.trans hother.2
      rw [ih hrest, Prod.ext (hpair.1.trans hother.1.symm) (Option.some.inj htype)]

theorem map_fst_of_names {specs : List ColumnSpec} {pairs : List (String × ColumnType)}
    (hpairs : List.Forall₂ ColumnSpec.Names specs pairs) :
    pairs.map Prod.fst = specs.map ColumnSpec.name := by
  induction hpairs with
  | nil => rfl
  | cons hpair _ ih => rw [List.map_cons, List.map_cons, ih, hpair.1]

/-- What is checked when a table is created, in this order. -/
theorem run_createTable (database : Database) (name : String) (specs : List ColumnSpec) :
    (createTable name specs).run database =
      if isValidName name = false then (database, .error (.syntaxError (.invalidName name)))
      else if name ∈ database.tableNames then (database, .error (.tableExists name))
      else match Schema.ofColumns (usableColumns specs) with
        | .error error => (database, .error error)
        | .ok schema =>
          if schema.columns = [] then (database, .error (.syntaxError (.noColumns name)))
          else (⟨database.tables.insert name (.new name schema)⟩, .ok ()) := by
  unfold createTable
  simp only [run_bind, run_require, run_get, run_liftM, run_modify]
  cases isValidName name with
  | false => rfl
  | true =>
    by_cases htaken : name ∈ database.tableNames
    · have hcontains : database.tables.contains name = true := OrderedMap.contains_iff.2 htaken
      simp [hcontains, htaken]
    · have hcontains : database.tables.contains name = false := by
        rw [← Bool.not_eq_true, OrderedMap.contains_iff]
        exact htaken
      cases Schema.ofColumns (usableColumns specs) with
      | error error => simp [hcontains, htaken]
      | ok schema => by_cases hnone : schema.columns = [] <;> simp [hcontains, htaken, hnone]

variable {database after : Database} {name : String} {specs : List ColumnSpec}
  {result : Except Error Unit}

/-- Nothing but what the relation tells becomes of a declared table. -/
theorem Declares.run_eq (hdeclares : database.Declares name specs after result) :
    (createTable name specs).run database = (after, result) := by
  have hnames := names_usableColumns specs
  rw [run_createTable]
  cases hdeclares with
  | invalidName hname => rw [if_pos hname]
  | taken hname htaken => rw [if_neg (by simp [hname]), if_pos htaken]
  | noColumns hname hnew hnone =>
    rw [hnone] at hnames
    rw [if_neg (by simp [hname]), if_neg hnew, List.forall₂_nil_left_iff.1 hnames]
    rfl
  | @repeated hname hnew front back spec husable hfront hrepeated =>
    have hall := map_fst_of_names hnames
    rw [husable, List.map_append, List.map_cons] at hall
    obtain ⟨fronts, others, hpairs, hfronts, hothers⟩ := List.map_eq_append_iff.1 hall
    obtain ⟨pair, rest, rfl, hpair, -⟩ := List.map_eq_cons_iff.1 hothers
    rw [← hfronts] at hfront hrepeated
    rw [← hpair] at hrepeated
    rw [if_neg (by simp [hname]), if_neg hnew, hpairs, Schema.ofColumns_of_repeated hfront hrepeated,
      hpair]
  | @created hname hnew hsome hnodup schema hschema _ hafter =>
    have hpairs : schema.pairs = usableColumns specs := names_inj (Schema.madeOf_iff.1 hschema) hnames
    rw [← map_fst_of_names hnames] at hnodup
    obtain ⟨made, hmade⟩ := Schema.exists_ofColumns hnodup
    obtain rfl : made = schema :=
      Schema.eq_of_pairs_eq ((Schema.pairs_of_ofColumns hmade).trans hpairs.symm)
    have hcolumns : made.columns ≠ [] := by
      intro hnone
      have hlength := hschema.columns.length_eq
      rw [hnone, List.length_nil, List.length_eq_zero_iff] at hlength
      exact hsome hlength
    have hinsert := OrderedMap.entries_insert_of_not_mem (Table.new name made) hnew
    obtain ⟨tables⟩ := after
    obtain rfl : database.tables.insert name (.new name made) = tables :=
      OrderedMap.ext (hinsert.trans hafter.symm)
    rw [if_neg (by simp [hname]), if_neg hnew, hmade]
    exact if_neg hcolumns

/-- Something becomes of every declared table. -/
theorem exists_declares (database : Database) (name : String) (specs : List ColumnSpec) :
    ∃ after result, database.Declares name specs after result := by
  cases hname : isValidName name with
  | false => exact ⟨_, _, .invalidName hname⟩
  | true =>
    by_cases hnew : name ∈ database.tableNames
    · exact ⟨_, _, .taken hname hnew⟩
    · by_cases hnodup : ((ColumnSpec.usable specs).map ColumnSpec.name).Nodup
      · by_cases hnone : ColumnSpec.usable specs = []
        · exact ⟨_, _, .noColumns hname hnew hnone⟩
        · have hnames := names_usableColumns specs
          obtain ⟨schema, hschema⟩ := Schema.exists_ofColumns (map_fst_of_names hnames ▸ hnodup)
          rw [← Schema.pairs_of_ofColumns hschema, ← Schema.madeOf_iff] at hnames
          have hinsert := OrderedMap.entries_insert_of_not_mem (Table.new name schema) hnew
          exact ⟨⟨_⟩, _, .created hname hnew hnone hnodup hnames hinsert⟩
      · obtain ⟨front, spec, back, husable, hfront, hrepeated⟩ := exists_first_repeated _ hnodup
        exact ⟨_, _, .repeated hname hnew husable hfront hrepeated⟩

theorem run_createTable_iff :
    (createTable name specs).run database = (after, result) ↔
      database.Declares name specs after result := by
  constructor
  · intro hrun
    obtain ⟨declared, outcome, hdeclares⟩ := exists_declares database name specs
    obtain ⟨rfl, rfl⟩ := Prod.mk.inj (hdeclares.run_eq.symm.trans hrun)
    exact hdeclares
  · exact Declares.run_eq

end Database

theorem Session.describe_of_table {session : Session} {name : String} {table : Table}
    (htable : session.table name = .ok table) :
    session.executeStatement (.describe name) =
      (session, .ok (.rowSet ["Field", "Type"] (table.schema.specs.map ColumnSpec.row))) := by
  change (session, session.describe name) = _
  rw [describe, htable, Schema.specs, List.map_map]
  rfl

namespace Database

/-- Columns that are declared as they are shown make up the same schema. -/
theorem declares_specs {schema : Schema} (hcolumns : schema.columns ≠ [])
    (hvalid : ∀ column ∈ schema.columns, isValidName column.name = true)
    (hproper : ∀ column ∈ schema.columns, column.type.IsProper) {database : Database} {name : String}
    (hname : isValidName name = true) (hnew : name ∉ database.tableNames) :
    database.Declares name schema.specs ⟨database.tables.insert name (.new name schema)⟩ (.ok ()) := by
  have husable : ColumnSpec.usable schema.specs = schema.specs := by
    apply List.filter_eq_self.2
    intro spec hspec
    obtain ⟨column, hcolumn, rfl⟩ := List.mem_map.1 hspec
    have htype := ColumnType.parse?_display (hproper column hcolumn)
    exact decide_eq_true ⟨hvalid column hcolumn, Option.isSome_of_eq_some htype⟩
  have hnames : schema.specs.map ColumnSpec.name = schema.names := by
    rw [Schema.specs, List.map_map]
    rfl
  refine .created hname hnew ?_ ?_ ?_ (OrderedMap.entries_insert_of_not_mem _ hnew)
  · rw [husable, Schema.specs, ne_eq, List.map_eq_nil_iff]
    exact hcolumns
  · rw [husable, hnames]
    exact schema.nodup_names
  · rw [husable]
    exact Schema.madeOf_specs hproper

/-- What is shown of a declared table declares a table with an equal schema. -/
theorem described_declares {database after : Database} {name : String} {specs : List ColumnSpec}
    (hrun : (createTable name specs).run database = (after, .ok ())) :
    ∃ schema, after.tables.get? name = some (.new name schema) ∧
      ∀ {target : Database} {other : String}, isValidName other = true → other ∉ target.tableNames →
        (createTable other schema.specs).run target =
          (⟨target.tables.insert other (.new other schema)⟩, .ok ()) := by
  obtain ⟨-, -, schema, hschema, hcolumns, rfl⟩ := run_createTable_eq_ok_iff.1 hrun
  have hstored : (Table.new name schema).StoredAs name := storedAs_new hschema hcolumns
  have hproper := hstored.2.proper
  have hvalid : ∀ column ∈ schema.columns, isValidName column.name = true := by
    intro column hcolumn
    have hpair := Schema.mem_pairs_of_mem hcolumn
    rw [Schema.pairs_of_ofColumns hschema] at hpair
    exact (of_mem_usableColumns hpair).1
  refine ⟨schema, by rw [OrderedMap.get?_insert, if_pos rfl], fun hother hnew => ?_⟩
  exact (declares_specs hcolumns hvalid hproper hother hnew).run_eq

/-- What becomes of a declared table is what the relation tells. If a table is created, then the rows
    that show its columns declare a table with an equal schema, under any name that is still free. -/
theorem tables_made_as_declared (database after : Database) (name : String) (specs : List ColumnSpec)
    (result : Except Error Unit) :
    ((createTable name specs).run database = (after, result) ↔
      database.Declares name specs after result) ∧
    ((createTable name specs).run database = (after, .ok ()) →
      ∃ table, after.tables.get? name = some table ∧
        ∀ (session : Session) (inUse : String), session.activeDatabase = .ok (inUse, after) →
          ∃ described, session.executeStatement (.describe name) =
              (session, .ok (.rowSet ["Field", "Type"] (described.map ColumnSpec.row))) ∧
            ∀ (target : Database) (other : String), isValidName other = true →
              other ∉ target.tableNames →
              ∃ final copy, (createTable other described).run target = (final, .ok ()) ∧
                final.tables.get? other = some copy ∧ copy.schema = table.schema) := by
  refine ⟨run_createTable_iff, fun hrun => ?_⟩
  obtain ⟨schema, hget, hagain⟩ := described_declares hrun
  refine ⟨.new name schema, hget, fun session inUse hopen => ⟨schema.specs, ?_, ?_⟩⟩
  · exact Session.describe_of_table (Session.table_eq_ok_iff.2 ⟨_, hopen, hget⟩)
  · intro target other hother hnew
    refine ⟨_, .new other schema, hagain hother hnew, ?_, rfl⟩
    rw [OrderedMap.get?_insert, if_pos rfl]

/-- Columns that repeat a name, of which all but one are of no use, and one that is written at length. -/
def mixed : List ColumnSpec :=
  [⟨"id", "TEXT"⟩, ⟨"id", "INT"⟩, ⟨"a-b", "INT"⟩, ⟨"id", "INT(0)"⟩, ⟨"label", " varchar ( 007 )"⟩]

/-- The session that has the database in use. -/
def opened (database : Database) : Session :=
  ⟨some ⟨.ofList [("shop", database)]⟩, some "shop", [], none⟩

theorem tables_made_as_declared_mixed :
    ∃ after table described final copy,
      (createTable "stock" mixed).run .empty = (after, .ok ()) ∧
      after.tables.get? "stock" = some table ∧
      table.schema.columns = [⟨"id", ⟨.int, none⟩, 0⟩, ⟨"label", ⟨.varchar, some 7⟩, 1⟩] ∧
      (opened after).executeStatement (.describe "stock") =
        (opened after, .ok (.rowSet ["Field", "Type"] (described.map ColumnSpec.row))) ∧
      (createTable "again" described).run after = (final, .ok ()) ∧
      final.tables.get? "again" = some copy ∧ copy.schema = table.schema := by
  obtain ⟨after, hrun⟩ : ∃ after, (createTable "stock" mixed).run .empty = (after, .ok ()) :=
    ⟨_, rfl⟩
  obtain ⟨table, hget, hdescribed⟩ := (tables_made_as_declared .empty after "stock" mixed (.ok ())).2 hrun
  have hafter := (Prod.mk.inj hrun).1.symm
  obtain ⟨described, hrows, hagain⟩ := hdescribed (opened after) "shop" rfl
  obtain ⟨final, copy, hcreate, hcopy, hschema⟩ := hagain after "again" (by decide) (by rw [hafter]; decide)
  refine ⟨after, table, described, final, copy, hrun, hget, ?_, hrows, hcreate, hcopy, hschema⟩
  rw [hafter] at hget
  obtain rfl := Option.some.inj hget
  rfl

end Database

end TableEngine
