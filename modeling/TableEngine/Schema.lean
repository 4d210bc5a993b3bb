import TableEngine.ColumnType
import TableEngine.Error
import TableEngine.OrderedMap

/-!
Schemas: the columns of a table in order, with an index of their names. No two columns of a schema
share a name. Columns are looked up through the index, which finds exactly the columns of the list
(`find?_eq_some_iff`, `contains_iff`).
-/

namespace TableEngine

structure Column where
  name : String
  type : ColumnType
  /-- The place of the column in its schema, counted from zero. -/
  position : Nat
  deriving DecidableEq, Inhabited

structure Schema where
  columns : List Column
  /-- The place of the column of each name. -/
  index : OrderedMap Nat
  index_entries : index.entries = columns.map fun column => (column.name, column.position)
  positions : columns.map Column.position = List.range columns.length

namespace Schema

@[ext]
theorem ext {s t : Schema} (hcolumns : s.columns = t.columns) : s = t := by
  have hindex : s.index = t.index := by
    apply OrderedMap.ext
    rw [s.index_entries, t.index_entries, hcolumns]
  cases s
  cases t
  simp_all

instance : DecidableEq Schema := fun s t =>
  decidable_of_iff (s.columns = t.columns) ⟨Schema.ext, fun heq => heq ▸ rfl⟩

/-- The schema without columns. -/
def empty : Schema :=
  ⟨[], .empty, rfl, rfl⟩

instance : Inhabited Schema := ⟨empty⟩

def names (schema : Schema) : List String :=
  schema.columns.map Column.name

/-- The names of the columns with their types, which is all that a schema says. -/
def pairs (schema : Schema) : List (String × ColumnType) :=
  schema.columns.map fun column => (column.name, column.type)

def find? (schema : Schema) (name : String) : Option Column :=
  (schema.index.get? name).bind fun place => schema.columns[place]?

def contains (schema : Schema) (name : String) : Bool :=
  schema.index.contains name

theorem keys_index (schema : Schema) : schema.index.keys = schema.names := by
  simp [OrderedMap.keys, schema.index_entries, names]

theorem nodup_names (schema : Schema) : schema.names.Nodup :=
  schema.keys_index ▸ schema.index.nodup_keys

theorem position_of_getElem? {schema : Schema} {place : Nat} {column : Column}
    (hcolumn : schema.columns[place]? = some column) : column.position = place := by
  have hposition := congrArg (·[place]?) schema.positions
  obtain ⟨hplace, rfl⟩ := List.getElem?_eq_some_iff.1 hcolumn
  simpa [hplace] using hposition

theorem mem_index_entries_iff {schema : Schema} {name : String} {place : Nat} :
    (name, place) ∈ schema.index.entries ↔
      ∃ column, schema.columns[place]? = some column ∧ column.name = name := by
  rw [schema.index_entries, List.mem_map]
  constructor
  · rintro ⟨column, hcolumn, heq⟩
    obtain ⟨i, hi⟩ := List.mem_iff_getElem?.1 hcolumn
    have hposition := position_of_getElem? hi
    simp only [Prod.mk.injEq] at heq
    exact ⟨column, by rw [← heq.2, hposition, hi], heq.1⟩
  · rintro ⟨column, hcolumn, rfl⟩
    exact ⟨column, List.mem_of_getElem? hcolumn, by rw [position_of_getElem? hcolumn]⟩

/-- The index finds every column of the schema by its name, and nothing else. -/
theorem find?_eq_some_iff {schema : Schema} {name : String} {column : Column} :
    schema.find? name = some column ↔ column ∈ schema.columns ∧ column.name = name := by
  simp only [find?, Option.bind_eq_some_iff, OrderedMap.get?_eq_some_iff, mem_index_entries_iff]
  constructor
  · rintro ⟨place, ⟨found, hfound, hname⟩, hcolumn⟩
    obtain rfl : found = column := Option.some.inj (hfound ▸ hcolumn)
    exact ⟨List.mem_of_getElem? hcolumn, hname⟩
  · rintro ⟨hmem, hname⟩
    obtain ⟨place, hplace⟩ := List.mem_iff_getElem?.1 hmem
    exact ⟨place, ⟨column, hplace, hname⟩, hplace⟩

theorem contains_iff {schema : Schema} {name : String} :
    schema.contains name = true ↔ name ∈ schema.names := by
  rw [contains, OrderedMap.contains_iff, keys_index]

/-- The schema with one more column at the end, unless the name is taken. -/
def add? (schema : Schema) (name : String) (type : ColumnType) : Option Schema :=
  if hnew : schema.index.contains name then none
  else some {
    columns := schema.columns ++ [⟨name, type, schema.columns.length⟩]
    index := schema.index.insert name schema.columns.length
    index_entries := by
      rw [OrderedMap.contains_iff] at hnew
      rw [OrderedMap.entries_insert_of_not_mem _ hnew, schema.index_entries, List.map_append]
      rfl
    positions := by
      simp [schema.positions, List.range_succ] }

/-- The schema with one more column at the end. A name that is taken is an error of syntax. -/
def add (schema : Schema) (name : String) (type : ColumnType) : Except Error Schema :=
  match schema.add? name type with
  | some schema => .ok schema
  | none => .error (.syntaxError (.repeatedColumn name))

/-- The schema with columns of the given names and types in the given order. -/
def ofColumns (columns : List (String × ColumnType)) : Except Error Schema :=
  columns.foldlM (fun schema (name, type) => schema.add name type) empty

/-- A column can be added exactly if its name is new, and then comes last. -/
theorem add?_eq_some_iff {schema extended : Schema} {name : String} {type : ColumnType} :
    schema.add? name type = some extended ↔
      name ∉ schema.names ∧
        extended.columns = schema.columns ++ [⟨name, type, schema.columns.length⟩] := by
  unfold add?
  split
  · next htaken =>
    rw [OrderedMap.contains_iff, keys_index] at htaken
    simp [htaken]
  · next hnew =>
    rw [OrderedMap.contains_iff, keys_index] at hnew
    simp only [Option.some.injEq, hnew, not_false_eq_true, true_and]
    exact ⟨fun heq => heq ▸ rfl, fun heq => Schema.ext heq.symm⟩

theorem exists_add? {schema : Schema} {name : String} (type : ColumnType)
    (hnew : name ∉ schema.names) : ∃ extended, schema.add? name type = some extended := by
  cases hadd : schema.add? name type with
  | some extended => exact ⟨extended, rfl⟩
  | none =>
    unfold add? at hadd
    split at hadd
    · next htaken =>
      rw [OrderedMap.contains_iff, keys_index] at htaken
      exact absurd htaken hnew
    · cases hadd

theorem pairs_of_add? {schema extended : Schema} {name : String} {type : ColumnType}
    (hadd : schema.add? name type = some extended) :
    extended.pairs = schema.pairs ++ [(name, type)] := by
  simp [pairs, (add?_eq_some_iff.1 hadd).2]

theorem map_fst_pairs (schema : Schema) : schema.pairs.map Prod.fst = schema.names := by
  simp [pairs, names]

theorem nodup_pairs (schema : Schema) : (schema.pairs.map Prod.fst).Nodup :=
  schema.map_fst_pairs ▸ schema.nodup_names

/-- The places of columns follow from their order, so that names and types make up the schema. -/
theorem eq_of_pairs_eq {s t : Schema} (hpairs : s.pairs = t.pairs) : s = t := by
  apply Schema.ext
  apply List.ext_getElem?
  intro place
  have hplace := congrArg (·[place]?) hpairs
  simp only [pairs, List.getElem?_map] at hplace
  cases hs : s.columns[place]? with
  | none =>
    rw [hs] at hplace
    exact (Option.map_eq_none_iff.1 hplace.symm).symm
  | some column =>
    rw [hs] at hplace
    obtain ⟨other, hother, heq⟩ := Option.map_eq_some_iff.1 hplace.symm
    rw [hother]
    obtain ⟨hname, htype⟩ := Prod.mk.inj heq
    have hposition := position_of_getElem? hs
    rw [← position_of_getElem? hother] at hposition
    cases column
    cases other
    simp_all

end Schema

end TableEngine
