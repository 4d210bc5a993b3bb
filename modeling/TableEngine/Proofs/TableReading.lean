import TableEngine.Dump
import TableEngine.Proofs.JsonReading
import TableEngine.Proofs.JsonText
import TableEngine.Proofs.Steps

/-!
What is read of the object that describes a table. Its members may stand in any order and among members
of other names (`TableDump.Describes`); whether it can be read depends on the types alone
(`TableDump.ofMembers_eq_ok_iff`).
-/

namespace TableEngine

open Json.Reader

theorem Value.reads_cell (value : Value) : cell.Reads [value.json] value := by
  apply reads_takeSome
  cases value with
  | null => rfl
  | integer n => simp [Value.json, cell?, Text.toInt64?_toInt]
  | text s => rfl

namespace Row

/-- A record as a JSON object, in whatever order its columns are given. -/
def jsonOf (record : List (String × Value)) : List Json.Token :=
  Json.object (record.map fun (column, value) => (column, [value.json]))

/-- A record is read as the row of its columns, each with the value that it is given last. -/
theorem reads_jsonOf (record : List (String × Value)) : reader.Reads (jsonOf record) (ofList record) := by
  let cellOf (value : Value) : Except ImportFault Value := .ok value
  have hcells : record.mapM (named cellOf) = .ok (record.map id) := mapM_ok id record
  have hmap := makes_map (fun value => [value.json]) cellOf
    fun entry (_ : entry ∈ record) => entry.2.reads_cell.makes
  have hmakes := hmap.map Row.mk
  rw [hcells, List.map_id] at hmakes
  exact hmakes

theorem readable_jsonOf (record : List (String × Value)) : Json.Readable (jsonOf record) := by
  apply Json.readable_object
  intro member hmember
  obtain ⟨⟨_, value⟩, -, rfl⟩ := List.mem_map.1 hmember
  apply Json.readable_singleton
  cases value <;> rfl

end Row

namespace TableDump

/-- What the text of a type is read as. -/
def typeOf (spec : String) : Except ImportFault ColumnType :=
  match ColumnType.parse? spec with
  | some type => .ok type
  | none => .error (.invalidColumnType spec)

/-- What definitions of types are read as, of which the first that cannot be read is reported. -/
def typesOf (definitions : List (String × String)) : Except ImportFault (OrderedMap ColumnType) :=
  (definitions.mapM (named typeOf)).map .ofList

/-- A member of an object that describes a table. -/
inductive Member where
  | columns (names : List String)
  | definitions (specs : List (String × String))
  | records (given : List (List (String × Value)))
  | other (name : String) (value : List Json.Token)

namespace Member

/-- A member as it is written. -/
def json : Member → String × List Json.Token
  | columns names => ("_cols", Json.texts names)
  | definitions specs => ("_defs", Json.object (specs.map fun (name, spec) => (name, [.text spec])))
  | records given => ("_data", Json.array (given.map Row.jsonOf))
  | other name value => (name, value)

/-- A member of another name has a name of its own, and a value of any shape. -/
def IsProper : Member → Prop
  | other name value => name ∉ ["_cols", "_defs", "_data"] ∧ Json.IsValue value
  | _ => True

def columns? : Member → Option (List String)
  | columns names => some names
  | _ => none

def definitions? : Member → Option (List (String × String))
  | definitions specs => some specs
  | _ => none

def records? : Member → Option (List (List (String × Value)))
  | records given => some given
  | _ => none

end Member

/-- A description can be written if the values of its other members can be. -/
theorem readable_members {members : List Member}
    (hother : ∀ name value, .other name value ∈ members → Json.Readable value) :
    Json.Readable (Json.object (members.map Member.json)) := by
  apply Json.readable_object
  intro written hwritten
  obtain ⟨member, hmember, rfl⟩ := List.mem_map.1 hwritten
  cases member with
  | columns names =>
    apply Json.readable_array
    intro value hvalue
    obtain ⟨s, -, rfl⟩ := List.mem_map.1 hvalue
    exact Json.readable_singleton rfl
  | definitions specs =>
    apply Json.readable_object
    intro definition hdefinition
    obtain ⟨⟨_, spec⟩, -, rfl⟩ := List.mem_map.1 hdefinition
    exact Json.readable_singleton rfl
  | records given =>
    apply Json.readable_array
    intro value hvalue
    obtain ⟨record, -, rfl⟩ := List.mem_map.1 hvalue
    exact Row.readable_jsonOf record
  | other name value => exact hother name value hmember

theorem exists_text {members : List Member}
    (hother : ∀ name value, .other name value ∈ members → Json.Readable value) :
    ∃ text : String, Json.Lexer.readAll text.toList = Json.object (members.map Member.json) := by
  refine ⟨String.ofList (Json.indented 0 (Json.object (members.map Member.json))), ?_⟩
  rw [String.toList_ofList, Json.readAll_indented (readable_members hother)]

/-- What becomes of the parts when a member is read. A part may not be given twice. -/
def Parts.take (parts : Parts) : Member → Except ImportFault Parts
  | .columns names =>
    if parts.columns.isSome then .error .malformed else .ok { parts with columns := some names }
  | .definitions specs =>
    if parts.types.isSome then .error .malformed
    else (typesOf specs).map fun types => { parts with types := some types }
  | .records records =>
    if parts.records.isSome then .error .malformed
    else .ok { parts with records := some (records.map Row.ofList) }
  | .other .. => .ok parts

theorem reads_columnsReader (columns : List String) :
    columnsReader.Reads (Json.texts columns) columns :=
  reads_array (fun s _ => reads_text s) fun s _ => ⟨.text s, [], rfl, by simp⟩

theorem makes_typeReader (spec : String) : typeReader.Makes [.text spec] (typeOf spec) := by
  intro rest
  rw [typeReader, run_bind, reads_text spec rest, typeOf]
  dsimp only
  cases ColumnType.parse? spec <;> rfl

theorem makes_typesReader (definitions : List (String × String)) :
    typesReader.Makes (Json.object (definitions.map fun (name, spec) => (name, [.text spec])))
      (typesOf definitions) :=
  makes_map (fun spec => [.text spec]) typeOf fun entry _ => makes_typeReader entry.2

theorem makes_recordsReader (records : List (List (String × Value))) :
    recordsReader.Makes (Json.array (records.map Row.jsonOf)) (.ok (records.map Row.ofList)) := by
  have hrecords := makes_array (fun record (_ : record ∈ records) => (Row.reads_jsonOf record).makes)
    fun record _ => ⟨.openObject, _, rfl, by simp⟩
  rwa [mapM_ok] at hrecords

theorem makes_memberReader (parts : Parts) {member : Member} (hproper : member.IsProper) :
    (memberReader parts member.json.1).Makes member.json.2 (parts.take member) := by
  obtain ⟨columns, types, records⟩ := parts
  cases member with
  | columns names =>
    cases columns with
    | none => exact (reads_columnsReader names).makes.map _
    | some => exact makes_fail _ _
  | definitions specs =>
    cases types with
    | none => exact (makes_typesReader specs).map _
    | some => exact makes_fail _ _
  | records given =>
    cases records with
    | none => exact (makes_recordsReader given).map _
    | some => exact makes_fail _ _
  | other name value =>
    obtain ⟨hname, hvalue⟩ := hproper
    simp only [List.mem_cons, List.not_mem_nil, or_false, not_or] at hname
    have hskip := (reads_skip hvalue).makes.map fun _ => (⟨columns, types, records⟩ : Parts)
    unfold memberReader
    split <;> first | exact hskip | simp_all [Member.json]

theorem toList_eq_toList_iff {α : Type} {a b : Option α} : a.toList = b.toList ↔ a = b := by
  cases a <;> cases b <;> simp

/-- The members can be read if no part is given twice, counting what has been read before, and if all
    definitions can be read. The parts are then those that they give. -/
theorem foldlM_take_eq_ok_iff {members : List Member} {parts final : Parts} :
    members.foldlM Parts.take parts = .ok final ↔
      parts.columns.toList ++ members.filterMap Member.columns? = final.columns.toList ∧
      parts.types.toList.map .ok ++ (members.filterMap Member.definitions?).map typesOf =
        final.types.toList.map .ok ∧
      parts.records.toList ++ (members.filterMap Member.records?).map (List.map Row.ofList) =
        final.records.toList := by
  induction members generalizing parts with
  | nil =>
    obtain ⟨columns, types, records⟩ := parts
    obtain ⟨columns', types', records'⟩ := final
    have hok : ∀ a b : OrderedMap ColumnType,
        (.ok a : Except ImportFault (OrderedMap ColumnType)) = .ok b → a = b :=
      fun _ _ => Except.ok.inj
    simp [pure, Except.pure, toList_eq_toList_iff, List.map_inj_right hok]
  | cons member members ih =>
    obtain ⟨columns, types, records⟩ := parts
    rw [List.foldlM_cons, bind_eq_ok_iff]
    cases member with
    | columns names =>
      cases columns with
      | none =>
        simp [Parts.take, ih, List.filterMap_cons, Member.columns?, Member.definitions?,
          Member.records?]
      | some => cases final.columns <;> simp [Parts.take, Member.columns?]
    | definitions specs =>
      cases types with
      | none =>
        cases hspecs : typesOf specs with
        | error => cases final.types <;> simp [Parts.take, hspecs, Except.map, Member.definitions?]
        | ok =>
          simp [Parts.take, ih, hspecs, Except.map, List.filterMap_cons, Member.columns?,
            Member.definitions?, Member.records?]
      | some => cases final.types <;> simp [Parts.take, Member.definitions?]
    | records given =>
      cases records with
      | none =>
        simp [Parts.take, ih, List.filterMap_cons, Member.columns?, Member.definitions?,
          Member.records?]
      | some => cases final.records <;> simp [Parts.take, Member.records?]
    | other =>
      simp [Parts.take, ih, List.filterMap_cons, Member.columns?, Member.definitions?,
        Member.records?]

/-- The dump that members make up. -/
def ofMembers (members : List Member) : Except ImportFault TableDump := do
  match ← members.foldlM Parts.take ⟨none, none, none⟩ with
  | ⟨some columns, some types, records⟩ => pure ⟨columns, types, records.getD []⟩
  | _ => .error .malformed

theorem makes_reader {members : List Member} (hproper : ∀ member ∈ members, member.IsProper) :
    reader.Makes (Json.object (members.map Member.json)) (ofMembers members) := by
  have hmembers : ∀ parts, ∀ member ∈ members,
      (memberReader parts member.json.1).Makes member.json.2 (parts.take member) :=
    fun parts member hmember => makes_memberReader parts (hproper member hmember)
  have hparts := makes_object hmembers ⟨none, none, none⟩
  have hobject : objectReader.Makes (Json.object (members.map Member.json)) (ofMembers members) := by
    rw [← List.append_nil (Json.object _)]
    refine hparts.bind fun parts => ?_
    obtain ⟨columns, types, records⟩ := parts
    cases columns <;> cases types <;> exact fun _ => rfl
  exact hobject

/-- The members describe a table by its columns, the definitions of types, and records, which may be
    missing. They stand in any order, among members of other names. -/
structure Describes (members : List Member) (columns : List String)
    (definitions : List (String × String)) (records : Option (List (List (String × Value)))) :
    Prop where
  columns_eq : members.filterMap Member.columns? = [columns]
  definitions_eq : members.filterMap Member.definitions? = [definitions]
  records_eq : members.filterMap Member.records? = records.toList
  proper : ∀ member ∈ members, member.IsProper

theorem ofMembers_eq_ok_iff {members : List Member} {columns : List String}
    {definitions : List (String × String)} {records : Option (List (List (String × Value)))}
    (hdescribes : Describes members columns definitions records) {dump : TableDump} :
    ofMembers members = .ok dump ↔ ∃ types, typesOf definitions = .ok types ∧
      dump = ⟨columns, types, (records.getD []).map Row.ofList⟩ := by
  unfold ofMembers
  simp only [bind_eq_ok_iff, foldlM_take_eq_ok_iff, hdescribes.columns_eq, hdescribes.definitions_eq,
    hdescribes.records_eq]
  constructor
  · rintro ⟨⟨columns', types', records'⟩, ⟨hcolumns, htypes, hrecords⟩, hdump⟩
    obtain rfl : some columns = columns' := toList_eq_toList_iff.1 hcolumns
    have hrecords' : (records.map (List.map Row.ofList)).toList = records'.toList := by
      rw [← hrecords]
      cases records <;> rfl
    obtain rfl := toList_eq_toList_iff.1 hrecords'
    cases types' with
    | none => cases htypes
    | some types =>
      refine ⟨types, (List.cons.inj htypes).1, ?_⟩
      rw [← Except.ok.inj hdump]
      cases records <;> rfl
  · rintro ⟨types, htypes, rfl⟩
    refine ⟨⟨some columns, some types, records.map (List.map Row.ofList)⟩, ⟨rfl, ?_, ?_⟩, ?_⟩
    · simp [htypes]
    · cases records <;> rfl
    · cases records <;> rfl

end TableDump

end TableEngine
