/-!
Maps from names to values that remember the order in which their names came up. A name occurs once:
writing to a name that is there already keeps its place and replaces its value. Rows, databases,
catalogs and the objects of a dump are all maps of this kind.

The main statements say what writing and erasing do to the list of names (`keys_insert`,
`keys_erase`), to a look-up (`get?_insert`) and to the pairs themselves (`mem_entries_insert`,
`mem_entries_erase`), and when they change nothing (`insert_of_get?`, `erase_of_get?_eq_none`).
-/

namespace TableEngine

/-- Names paired with values, each name once, in the order in which the names came up. -/
structure OrderedMap (α : Type) where
  entries : List (String × α)
  nodup_keys : (entries.map Prod.fst).Nodup

namespace OrderedMap

variable {α β : Type}

@[ext]
theorem ext {m n : OrderedMap α} (hentries : m.entries = n.entries) : m = n := by
  cases m
  cases n
  simp_all

instance [DecidableEq α] : DecidableEq (OrderedMap α) := fun m n =>
  decidable_of_iff (m.entries = n.entries) ⟨OrderedMap.ext, fun heq => heq ▸ rfl⟩

/-- Writes a value to a name: in place if the name occurs, at the end if it does not. -/
def put (key : String) (value : α) : List (String × α) → List (String × α)
  | [] => [(key, value)]
  | (k, v) :: rest => if k = key then (key, value) :: rest else (k, v) :: put key value rest

theorem map_fst_put (key : String) (value : α) (entries : List (String × α)) :
    (put key value entries).map Prod.fst =
      if key ∈ entries.map Prod.fst then entries.map Prod.fst else entries.map Prod.fst ++ [key] := by
  induction entries with
  | nil => simp [put]
  | cons entry rest ih =>
    obtain ⟨k, v⟩ := entry
    by_cases hkey : k = key
    · simp [put, hkey]
    · simp only [put, hkey, if_false, List.map_cons, ih, List.mem_cons, Ne.symm hkey, false_or]
      split <;> rfl

/-- The map without names. -/
def empty : OrderedMap α :=
  ⟨[], by simp⟩

instance : Inhabited (OrderedMap α) := ⟨empty⟩

/-- The names, in order. -/
def keys (m : OrderedMap α) : List String :=
  m.entries.map Prod.fst

def size (m : OrderedMap α) : Nat :=
  m.entries.length

def isEmpty (m : OrderedMap α) : Bool :=
  m.entries.isEmpty

def get? (m : OrderedMap α) (key : String) : Option α :=
  m.entries.lookup key

def contains (m : OrderedMap α) (key : String) : Bool :=
  (m.get? key).isSome

/-- Writes a value to a name, which keeps its place if it has one and comes last otherwise. -/
def insert (m : OrderedMap α) (key : String) (value : α) : OrderedMap α where
  entries := put key value m.entries
  nodup_keys := by
    have hnodup := m.nodup_keys
    rw [map_fst_put]
    split
    · exact hnodup
    · next hnew =>
      refine List.nodup_append.2 ⟨hnodup, by simp, ?_⟩
      intro k hk k' hk' heq
      simp only [List.mem_singleton] at hk'
      exact hnew (hk' ▸ heq ▸ hk)

/-- Removes a name and its value. The other names keep their order. -/
def erase (m : OrderedMap α) (key : String) : OrderedMap α where
  entries := m.entries.filter (·.1 ≠ key)
  nodup_keys := m.nodup_keys.sublist ((List.filter_sublist).map Prod.fst)

/-- Applies a function to every value, which is shown the value's name. -/
def mapValues (f : String → α → β) (m : OrderedMap α) : OrderedMap β where
  entries := m.entries.map fun (key, value) => (key, f key value)
  nodup_keys := by
    have hkeys : (m.entries.map fun (key, value) => (key, f key value)).map Prod.fst =
        m.entries.map Prod.fst := by
      simp [List.map_map, Function.comp_def]
    exact hkeys ▸ m.nodup_keys

/-- The map that results from writing the pairs one after the other. -/
def ofList (pairs : List (String × α)) : OrderedMap α :=
  pairs.foldl (fun m (key, value) => m.insert key value) empty

/-- Whether two maps have the same names with equal values, in whatever order. -/
def sameEntries (eq : α → α → Bool) (m n : OrderedMap α) : Bool :=
  m.size == n.size && m.entries.all fun (key, value) => (n.get? key).any (eq value)

theorem keys_insert (m : OrderedMap α) (key : String) (value : α) :
    (m.insert key value).keys = if key ∈ m.keys then m.keys else m.keys ++ [key] :=
  map_fst_put key value m.entries

theorem keys_erase (m : OrderedMap α) (key : String) :
    (m.erase key).keys = m.keys.filter (· ≠ key) := by
  simp [erase, keys, List.filter_map, Function.comp_def]

theorem lookup_put (key : String) (value : α) (entries : List (String × α)) (name : String) :
    (put key value entries).lookup name =
      if name = key then some value else entries.lookup name := by
  induction entries with
  | nil =>
    by_cases hname : name = key
    · simp [put, hname]
    · simp [put, List.lookup_cons, hname, beq_false_of_ne hname]
  | cons entry rest ih =>
    obtain ⟨k, v⟩ := entry
    by_cases hkey : k = key
    · by_cases hname : name = key
      · simp [put, hkey, hname]
      · simp [put, List.lookup_cons, hkey, hname, beq_false_of_ne hname]
    · by_cases hname : name = k
      · simp [put, hkey, hname]
      · simp [put, List.lookup_cons, hkey, ih, beq_false_of_ne hname]

theorem get?_insert (m : OrderedMap α) (key : String) (value : α) (name : String) :
    (m.insert key value).get? name = if name = key then some value else m.get? name :=
  lookup_put key value m.entries name

theorem lookup_eq_some_iff_mem {entries : List (String × α)} (hnodup : (entries.map Prod.fst).Nodup)
    {key : String} {value : α} : entries.lookup key = some value ↔ (key, value) ∈ entries := by
  induction entries with
  | nil => simp
  | cons entry rest ih =>
    obtain ⟨k, v⟩ := entry
    obtain ⟨hnew, hrest⟩ := List.nodup_cons.1 hnodup
    by_cases hkey : key = k
    · subst hkey
      have hother : (key, value) ∉ rest := fun hmem => hnew (List.mem_map.2 ⟨_, hmem, rfl⟩)
      simp [hother, eq_comm]
    · simp [List.lookup_cons, beq_false_of_ne hkey, hkey, ih hrest]

theorem get?_eq_some_iff {m : OrderedMap α} {key : String} {value : α} :
    m.get? key = some value ↔ (key, value) ∈ m.entries :=
  lookup_eq_some_iff_mem m.nodup_keys

theorem get?_eq_none_iff {m : OrderedMap α} {key : String} : m.get? key = none ↔ key ∉ m.keys := by
  simp only [get?, keys, List.lookup_eq_none_iff, List.mem_map, not_exists, not_and]
  constructor
  · intro hnone entry hentry heq
    exact absurd (hnone entry hentry) (by simp [heq])
  · intro hkeys entry hentry
    exact bne_iff_ne.2 (Ne.symm (hkeys entry hentry))

theorem contains_iff {m : OrderedMap α} {key : String} : m.contains key = true ↔ key ∈ m.keys := by
  rw [contains, Option.isSome_iff_ne_none, ne_eq, get?_eq_none_iff, Classical.not_not]

theorem put_of_lookup {entries : List (String × α)} {key : String} {value : α}
    (hlookup : entries.lookup key = some value) : put key value entries = entries := by
  induction entries with
  | nil => simp at hlookup
  | cons entry rest ih =>
    obtain ⟨k, v⟩ := entry
    by_cases hkey : k = key
    · subst hkey
      simp_all [put]
    · rw [List.lookup_cons, beq_false_of_ne (Ne.symm hkey)] at hlookup
      simp [put, hkey, ih hlookup]

/-- Writing to a name the value that it has changes nothing. -/
theorem insert_of_get? {m : OrderedMap α} {key : String} {value : α}
    (hget : m.get? key = some value) : m.insert key value = m :=
  OrderedMap.ext (put_of_lookup hget)

/-- Erasing a name that does not occur changes nothing. -/
theorem erase_of_get?_eq_none {m : OrderedMap α} {key : String} (hget : m.get? key = none) :
    m.erase key = m := by
  apply OrderedMap.ext
  apply List.filter_eq_self.2
  intro entry hentry
  have hkeys := get?_eq_none_iff.1 hget
  have hname := List.mem_map_of_mem (f := Prod.fst) hentry
  exact decide_eq_true fun heq => hkeys (heq ▸ hname)

theorem put_of_not_mem {entries : List (String × α)} {key : String} (value : α)
    (hnew : key ∉ entries.map Prod.fst) : put key value entries = entries ++ [(key, value)] := by
  induction entries with
  | nil => rfl
  | cons entry rest ih =>
    obtain ⟨k, v⟩ := entry
    simp only [List.map_cons, List.mem_cons, not_or] at hnew
    simp [put, Ne.symm hnew.1, ih hnew.2]

/-- A new name comes last. -/
theorem entries_insert_of_not_mem {m : OrderedMap α} {key : String} (value : α)
    (hnew : key ∉ m.keys) : (m.insert key value).entries = m.entries ++ [(key, value)] :=
  put_of_not_mem value hnew

theorem mem_put {entries : List (String × α)} (hnodup : (entries.map Prod.fst).Nodup) {key : String}
    {value : α} {entry : String × α} :
    entry ∈ put key value entries ↔ entry = (key, value) ∨ entry.1 ≠ key ∧ entry ∈ entries := by
  obtain ⟨name, v⟩ := entry
  have hput : ((put key value entries).map Prod.fst).Nodup :=
    (insert ⟨entries, hnodup⟩ key value).nodup_keys
  rw [← lookup_eq_some_iff_mem hput, ← lookup_eq_some_iff_mem hnodup, lookup_put]
  by_cases hname : name = key
  · simp [hname, eq_comm]
  · simp [hname]

theorem mem_entries_insert {m : OrderedMap α} {key : String} {value : α} {entry : String × α} :
    entry ∈ (m.insert key value).entries ↔
      entry = (key, value) ∨ entry.1 ≠ key ∧ entry ∈ m.entries :=
  mem_put m.nodup_keys

theorem mem_entries_erase {m : OrderedMap α} {key : String} {entry : String × α} :
    entry ∈ (m.erase key).entries ↔ entry.1 ≠ key ∧ entry ∈ m.entries := by
  simp [erase, and_comm]

theorem mem_keys_of_mem_entries {m : OrderedMap α} {entry : String × α} (hentry : entry ∈ m.entries) :
    entry.1 ∈ m.keys :=
  List.mem_map_of_mem hentry

theorem entries_foldl_insert (m : OrderedMap α) (pairs : List (String × α))
    (hnodup : ((m.entries ++ pairs).map Prod.fst).Nodup) :
    (pairs.foldl (fun m (key, value) => m.insert key value) m).entries = m.entries ++ pairs := by
  induction pairs generalizing m with
  | nil => simp
  | cons pair rest ih =>
    obtain ⟨key, value⟩ := pair
    have hentries : (m.insert key value).entries = m.entries ++ [(key, value)] := by
      apply entries_insert_of_not_mem
      intro hmem
      rw [List.map_append, List.nodup_append] at hnodup
      exact hnodup.2.2 key hmem key (by simp) rfl
    rw [List.foldl_cons, ih _ (by simpa [hentries] using hnodup), hentries]
    simp

/-- Pairs with distinct names make up a map as they are. -/
theorem entries_ofList {pairs : List (String × α)} (hnodup : (pairs.map Prod.fst).Nodup) :
    (ofList pairs).entries = pairs :=
  entries_foldl_insert empty pairs hnodup

theorem ofList_entries (m : OrderedMap α) : ofList m.entries = m :=
  OrderedMap.ext (entries_ofList m.nodup_keys)

theorem keys_foldl_insert (m : OrderedMap α) (pairs : List (String × α)) :
    (pairs.foldl (fun m (key, value) => m.insert key value) m).keys =
      m.keys ++ ((pairs.map Prod.fst).filter (· ∉ m.keys)).eraseDups := by
  induction pairs generalizing m with
  | nil => simp
  | cons pair rest ih =>
    obtain ⟨key, value⟩ := pair
    rw [List.foldl_cons, ih, keys_insert, List.map_cons]
    by_cases hkey : key ∈ m.keys
    · simp [hkey]
    · simp [hkey, List.eraseDups_cons, List.filter_filter, Bool.beq_eq_decide_eq, Bool.and_comm]

/-- Names that are written again keep the place at which they came up first. -/
theorem keys_ofList (pairs : List (String × α)) :
    (ofList pairs).keys = (pairs.map Prod.fst).eraseDups := by
  have hnames : (pairs.map Prod.fst).filter (· ∉ (empty : OrderedMap α).keys) =
      pairs.map Prod.fst :=
    List.filter_eq_self.2 (by simp [empty, keys])
  rw [ofList, keys_foldl_insert, hnames]
  rfl

/-- The value that pairs give to a name last. -/
def lastFor? (pairs : List (String × α)) (key : String) : Option α :=
  pairs.reverse.lookup key

theorem get?_foldl_insert (m : OrderedMap α) (pairs : List (String × α)) (key : String) :
    (pairs.foldl (fun m (key, value) => m.insert key value) m).get? key =
      (lastFor? pairs key).or (m.get? key) := by
  induction pairs generalizing m with
  | nil => rfl
  | cons pair rest ih =>
    obtain ⟨name, value⟩ := pair
    rw [List.foldl_cons, ih, get?_insert, lastFor?, lastFor?, List.reverse_cons, List.lookup_append,
      Option.or_assoc]
    by_cases hname : key = name
    · simp [hname]
    · simp [List.lookup_cons, beq_false_of_ne hname, hname]

/-- The value that is written to a name last counts. -/
theorem get?_ofList (pairs : List (String × α)) (key : String) :
    (ofList pairs).get? key = lastFor? pairs key := by
  rw [ofList, get?_foldl_insert]
  exact Option.or_none

theorem lastFor?_map (f : α → β) (pairs : List (String × α)) (key : String) :
    lastFor? (pairs.map fun (name, value) => (name, f value)) key = (lastFor? pairs key).map f := by
  unfold lastFor?
  rw [← List.map_reverse]
  induction pairs.reverse with
  | nil => rfl
  | cons pair rest ih =>
    obtain ⟨name, value⟩ := pair
    by_cases hkey : key = name
    · simp [hkey]
    · simp [List.lookup_cons, beq_false_of_ne hkey, ih]

theorem mem_of_mem_entries_foldl_insert {m : OrderedMap α} {pairs : List (String × α)}
    {entry : String × α}
    (hentry : entry ∈ (pairs.foldl (fun m (key, value) => m.insert key value) m).entries) :
    entry ∈ m.entries ∨ entry ∈ pairs := by
  induction pairs generalizing m with
  | nil => exact .inl hentry
  | cons pair rest ih =>
    obtain ⟨key, value⟩ := pair
    rcases ih hentry with hinsert | hrest
    · rcases mem_entries_insert.1 hinsert with rfl | ⟨-, hold⟩
      · exact .inr List.mem_cons_self
      · exact .inl hold
    · exact .inr (List.mem_cons_of_mem _ hrest)

theorem mem_of_mem_entries_ofList {pairs : List (String × α)} {entry : String × α}
    (hentry : entry ∈ (ofList pairs).entries) : entry ∈ pairs := by
  rcases mem_of_mem_entries_foldl_insert hentry with hempty | hpair
  · cases hempty
  · exact hpair

theorem exists_get?_of_mem_keys {m : OrderedMap α} {key : String} (hkey : key ∈ m.keys) :
    ∃ value, m.get? key = some value := by
  obtain ⟨⟨_, value⟩, hentry, rfl⟩ := List.mem_map.1 hkey
  exact ⟨value, get?_eq_some_iff.2 hentry⟩

/-- The order of the names and the look-up of each make up the map. -/
theorem eq_of_get? {m n : OrderedMap α} (hkeys : m.keys = n.keys)
    (hget : ∀ key ∈ m.keys, m.get? key = n.get? key) : m = n := by
  have hvalues (o : OrderedMap α) : o.entries.map some = o.keys.map fun key =>
      (o.get? key).map fun value => (key, value) := by
    rw [keys, List.map_map]
    apply List.map_congr_left
    intro entry hentry
    simp [get?_eq_some_iff.2 (show (entry.1, entry.2) ∈ o.entries from hentry)]
  apply OrderedMap.ext
  apply (List.map_inj_right fun _ _ heq => Option.some.inj heq).1
  rw [hvalues, hvalues, ← hkeys]
  apply List.map_congr_left
  intro key hkey
  rw [hget key hkey]

theorem mapValues_mapValues {γ : Type} (m : OrderedMap α) (f : String → α → β) (g : String → β → γ) :
    (m.mapValues f).mapValues g = m.mapValues fun key value => g key (f key value) := by
  simp [mapValues, Function.comp_def]

theorem mapValues_eq_self {m : OrderedMap α} {f : String → α → α}
    (hf : ∀ entry ∈ m.entries, f entry.1 entry.2 = entry.2) : m.mapValues f = m := by
  have hentries : (m.entries.map fun (key, value) => (key, f key value)) = m.entries.map id :=
    List.map_congr_left fun entry hentry => Prod.ext rfl (hf entry hentry)
  exact OrderedMap.ext (hentries.trans (List.map_id _))

end OrderedMap

end TableEngine
