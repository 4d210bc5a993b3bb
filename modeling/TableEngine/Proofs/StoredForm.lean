import TableEngine.ColumnType

/-!
The form in which a column stores values, as a predicate on its own (`ColumnType.Admits`). What is
coerced has that form (`admits_coerce`), and what has it is left alone (`coerce_of_admits`). A type
that can be written down has room for one character at least (`isProper_of_parse?`).
-/

namespace TableEngine.ColumnType

/-- The values that a column can hold: NULL in every column, integers in an integer column, and in a
    text column the texts that are not empty and no longer than its size. -/
def Admits (type : ColumnType) : Value → Prop
  | .null => True
  | .integer _ => type.kind = .int
  | .text s => type.kind ≠ .int ∧ s ≠ "" ∧ ∀ size, type.size = some size → s.length ≤ size.toNat

/-- A size, if there is one, is at least one. -/
def IsProper (type : ColumnType) : Prop :=
  ∀ size, type.size = some size → 1 ≤ size

theorem admits_null (type : ColumnType) : type.Admits .null :=
  trivial

theorem length_clip_le (size : UInt64) (text : List Char) :
    (clip (some size) text).length ≤ size.toNat :=
  List.length_take_le _ _

theorem clip_of_length_le {size : Option UInt64} {text : List Char}
    (hlength : ∀ n, size = some n → text.length ≤ n.toNat) : clip size text = text := by
  cases size with
  | none => rfl
  | some n => exact List.take_of_length_le (hlength n rfl)

theorem admits_truncate {type : ColumnType} (hkind : type.kind ≠ .int) (text : List Char) :
    type.Admits (truncate type.size text) := by
  unfold truncate
  dsimp only
  split
  · trivial
  · next hkept =>
    refine ⟨hkind, ?_, ?_⟩
    · intro hempty
      exact hkept (by simpa using congrArg String.toList hempty)
    · intro size hsize
      rw [hsize, String.length_ofList]
      exact length_clip_le size text

theorem admits_coerce (type : ColumnType) (value : Value) : type.Admits (type.coerce value) := by
  unfold coerce
  split
  · trivial
  · next hkind => exact hkind
  · next hkind =>
    split
    · exact hkind
    · trivial
  · next hkind _ => exact admits_truncate (by simp [hkind]) _
  · next hkind _ => exact admits_truncate (by simp [hkind]) _

theorem truncate_of_length_le {size : Option UInt64} {s : String} (hne : s ≠ "")
    (hlength : ∀ n, size = some n → s.length ≤ n.toNat) : truncate size s.toList = .text s := by
  have hkept : clip size s.toList = s.toList :=
    clip_of_length_le fun n hn => by simpa only [String.length_toList] using hlength n hn
  have hchars : s.toList ≠ [] := by simpa using hne
  simp only [truncate, hkept, hchars, if_false, String.ofList_toList]

/-- Coercion leaves alone what has the stored form. -/
theorem coerce_of_admits {type : ColumnType} {value : Value} (hadmits : type.Admits value) :
    type.coerce value = value := by
  cases value with
  | null => simp [coerce]
  | integer n =>
    have hkind : type.kind = .int := hadmits
    simp [coerce, hkind]
  | text s =>
    obtain ⟨hkind, hne, hlength⟩ := hadmits
    unfold coerce
    split
    · next heq => cases heq
    · next heq => cases heq
    · next hint _ => exact absurd hint hkind
    · exact truncate_of_length_le hne hlength
    · exact truncate_of_length_le hne hlength

theorem isProper_of_readSize? {text : List Char} {size : UInt64}
    (hread : readSize? text = some size) : 1 ≤ size := by
  unfold readSize? at hread
  split at hread
  · dsimp only at hread
    split at hread
    · next hsize =>
      obtain ⟨-, -, hpositive, hbound⟩ := hsize
      obtain rfl := Option.some.inj hread
      rw [UInt64.le_iff_toNat_le, UInt64.toNat_ofNat_of_lt' hbound]
      exact hpositive
    · cases hread
  · cases hread

theorem isProper_of_parse? {spec : String} {type : ColumnType} (hparse : parse? spec = some type) :
    type.IsProper := by
  unfold parse? at hparse
  obtain ⟨kind, -, hkind⟩ := List.exists_of_findSome?_eq_some hparse
  intro size hsize
  split at hkind
  · cases hkind
  · obtain rfl := Option.some.inj hkind
    cases hsize
  · obtain ⟨read, hread, rfl⟩ := Option.map_eq_some_iff.1 hkind
    obtain rfl := Option.some.inj hsize
    exact isProper_of_readSize? hread

end TableEngine.ColumnType
