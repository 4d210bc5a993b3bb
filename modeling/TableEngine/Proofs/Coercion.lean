import TableEngine.Proofs.StoredForm

/-!
What columns make of values. An integer column reads the whole number that a text starts with
(`Text.LeadsWith`), a text column keeps the first characters of a text; what is stored for a value is
told by the cases of `ColumnType.Stores`. Coercion stores exactly that, and storing it again changes
nothing (`ColumnType.coerce_eq_iff_stores`).
-/

namespace TableEngine

namespace Text

/-- The sign in front of digits, if there is one, and whether it makes the number negative. -/
inductive IsSign : List Char → Bool → Prop
  | none : IsSign [] false
  | plus : IsSign ['+'] false
  | minus : IsSign ['-'] true

/-- The text starts with a number: blanks, at most one sign and all the digits that follow, of which
    there is at least one. What stands behind them does not matter. -/
def LeadsWith (text : List Char) (n : Int) : Prop :=
  ∃ blanks sign negative digits rest, text = blanks ++ (sign ++ (digits ++ rest)) ∧
    (∀ c ∈ blanks, isBlank c = true) ∧ IsSign sign negative ∧
    digits ≠ [] ∧ (∀ c ∈ digits, c.isDigit = true) ∧ (∀ c ∈ rest.head?, c.isDigit = false) ∧
    signed negative (digitsValue digits) = n

theorem isBlank_of_isDigit {c : Char} (hdigit : c.isDigit = true) : isBlank c = false := by
  simp [Char.isDigit, UInt32.le_iff_toNat_le] at hdigit
  simp [isBlank]
  omega

/-- The sign is split off whole, as no digit is a sign. -/
theorem splitSign_append {sign digits : List Char} {negative : Bool} (hsign : IsSign sign negative)
    (hne : digits ≠ []) (hdigits : ∀ c ∈ digits, c.isDigit = true) (rest : List Char) :
    splitSign (sign ++ (digits ++ rest)) = (negative, digits ++ rest) := by
  cases hsign with
  | plus => rfl
  | minus => rfl
  | none =>
    cases digits with
    | nil => exact absurd rfl hne
    | cons d digits =>
      have hdigit := hdigits d List.mem_cons_self
      unfold splitSign
      split
      · next heq =>
        obtain ⟨rfl, -⟩ := List.cons.inj heq
        cases hdigit
      · next heq =>
        obtain ⟨rfl, -⟩ := List.cons.inj heq
        cases hdigit
      · rfl

theorem exists_sign_append (text : List Char) :
    ∃ sign, IsSign sign (splitSign text).1 ∧ text = sign ++ (splitSign text).2 := by
  unfold splitSign
  split
  · exact ⟨_, .minus, rfl⟩
  · exact ⟨_, .plus, rfl⟩
  · exact ⟨_, .none, rfl⟩

theorem isBlank_head?_of_isSign {sign digits : List Char} {negative : Bool}
    (hsign : IsSign sign negative) (hne : digits ≠ []) (hdigits : ∀ c ∈ digits, c.isDigit = true)
    (rest : List Char) : ∀ c ∈ (sign ++ (digits ++ rest)).head?, isBlank c = false := by
  cases hsign with
  | plus => rintro c ⟨⟩; rfl
  | minus => rintro c ⟨⟩; rfl
  | none =>
    cases digits with
    | nil => exact absurd rfl hne
    | cons d digits =>
      rintro c ⟨⟩
      exact isBlank_of_isDigit (hdigits d List.mem_cons_self)

theorem readLeadingInt64?_eq_some_iff {text : List Char} {n : Int64} :
    readLeadingInt64? (trimStart text) = some n ↔ LeadsWith text n.toInt := by
  constructor
  · intro hread
    obtain ⟨sign, hsign, htext⟩ := exists_sign_append (trimStart text)
    unfold readLeadingInt64? at hread
    generalize splitSign (trimStart text) = split at hsign htext hread
    obtain ⟨negative, number⟩ := split
    dsimp only at hread
    split at hread
    · cases hread
    · next hdigits =>
      rw [toInt64?_eq_some_iff] at hread
      refine ⟨text.takeWhile isBlank, sign, negative, number.takeWhile Char.isDigit,
        number.dropWhile Char.isDigit, ?_, ?_, hsign, ?_, ?_, ?_, hread.symm⟩
      · rw [List.takeWhile_append_dropWhile, ← htext, trimStart, List.takeWhile_append_dropWhile]
      · exact fun c hc => List.all_eq_true.1 List.all_takeWhile c hc
      · simpa using hdigits
      · exact fun c hc => List.all_eq_true.1 List.all_takeWhile c hc
      · exact stop_of_dropWhile Char.isDigit number
  · rintro ⟨blanks, sign, negative, digits, rest, rfl, hblanks, hsign, hne, hdigits, hrest, hvalue⟩
    have hfirst := isBlank_head?_of_isSign hsign hne hdigits rest
    rw [trimStart, dropWhile_append_of_stop hblanks hfirst]
    unfold readLeadingInt64?
    rw [splitSign_append hsign hne hdigits]
    simp only [takeWhile_append_of_stop hdigits hrest, List.isEmpty_eq_false_iff.2 hne,
      Bool.false_eq_true, if_false]
    exact toInt64?_eq_some_iff.2 hvalue.symm

end Text

namespace ColumnType

/-- How many characters of a text a size keeps. -/
def room (size : Option UInt64) (length : Nat) : Nat :=
  match size with
  | none => length
  | some size => min size.toNat length

theorem length_clip (size : Option UInt64) (text : List Char) :
    (clip size text).length = room size text.length := by
  cases size with
  | none => rfl
  | some size => exact List.length_take

theorem isPrefix_clip (size : Option UInt64) (text : List Char) : clip size text <+: text := by
  cases size with
  | none => exact List.prefix_refl text
  | some size => exact List.take_prefix _ _

/-- What a column of a type stores for a value. -/
inductive Stores (type : ColumnType) : Value → Value → Prop
  | null : Stores type .null .null
  /-- An integer column keeps integers. -/
  | integer (hkind : type.kind = .int) (n : Int64) : Stores type (.integer n) (.integer n)
  /-- It reads a text by the number in front. -/
  | number (hkind : type.kind = .int) {s : String} {n : Int64}
      (hleads : Text.LeadsWith s.toList n.toInt) :
      Stores type (.text s) (.integer n)
  /-- It has no place for a text that does not start with a 64-bit number. -/
  | noNumber (hkind : type.kind = .int) {s : String}
      (hnone : ∀ n : Int64, ¬Text.LeadsWith s.toList n.toInt) :
      Stores type (.text s) .null
  /-- A text column keeps the first characters of what is displayed, as many as there is room for. -/
  | kept (hkind : type.kind.holdsText = true) {value : Value} (hvalue : value ≠ .null) {s : String}
      (hfront : s.toList <+: value.display.toList)
      (hlength : s.length = room type.size value.display.length) (hne : s ≠ "") :
      Stores type value (.text s)
  /-- It stores NULL if no character is left. -/
  | nothing (hkind : type.kind.holdsText = true) {value : Value} (hvalue : value ≠ .null)
      (hlength : room type.size value.display.length = 0) : Stores type value .null

theorem coerce_null (type : ColumnType) : type.coerce .null = .null := by
  simp [coerce]

theorem coerce_integer_of_int {type : ColumnType} (hkind : type.kind = .int) (n : Int64) :
    type.coerce (.integer n) = .integer n := by
  simp [coerce, hkind]

theorem coerce_text_of_int {type : ColumnType} (hkind : type.kind = .int) (s : String) :
    type.coerce (.text s) =
      ((Text.readLeadingInt64? (Text.trimStart s.toList)).map Value.integer).getD .null := by
  cases hread : Text.readLeadingInt64? (Text.trimStart s.toList) <;> simp [coerce, hkind, hread]

theorem holdsText_of_ne_int {kind : ColumnKind} (hkind : kind ≠ .int) : kind.holdsText = true := by
  cases kind with
  | int => exact absurd rfl hkind
  | char => rfl
  | varchar => rfl

theorem coerce_of_holdsText {type : ColumnType} (hkind : type.kind.holdsText = true) {value : Value}
    (hvalue : value ≠ .null) : type.coerce value = truncate type.size value.display.toList := by
  obtain ⟨kind, size⟩ := type
  cases kind
  case int => cases hkind
  all_goals
    cases value
    case null => exact absurd rfl hvalue
    all_goals rfl

theorem stores_truncate {type : ColumnType} (hkind : type.kind.holdsText = true) {value : Value}
    (hvalue : value ≠ .null) : type.Stores value (truncate type.size value.display.toList) := by
  have hlength := length_clip type.size value.display.toList
  rw [String.length_toList] at hlength
  unfold truncate
  dsimp only
  split
  · next hnothing =>
    rw [hnothing] at hlength
    exact .nothing hkind hvalue hlength.symm
  · next hkept =>
    refine .kept hkind hvalue ?_ ?_ ?_
    · rw [String.toList_ofList]
      exact isPrefix_clip type.size value.display.toList
    · rw [String.length_ofList, hlength]
    · intro hempty
      exact hkept (by simpa using congrArg String.toList hempty)

theorem stores_coerce_of_int {type : ColumnType} (hkind : type.kind = .int) {value : Value}
    (hvalue : value ≠ .null) : type.Stores value (type.coerce value) := by
  cases value with
  | null => exact absurd rfl hvalue
  | integer n =>
    rw [coerce_integer_of_int hkind]
    exact .integer hkind n
  | text s =>
    rw [coerce_text_of_int hkind]
    cases hread : Text.readLeadingInt64? (Text.trimStart s.toList) with
    | some n => exact .number hkind (Text.readLeadingInt64?_eq_some_iff.1 hread)
    | none =>
      refine .noNumber hkind fun n hleads => ?_
      rw [Text.readLeadingInt64?_eq_some_iff.2 hleads] at hread
      cases hread

theorem stores_coerce (type : ColumnType) (value : Value) : type.Stores value (type.coerce value) := by
  by_cases hvalue : value = .null
  · rw [hvalue, coerce_null]
    exact .null
  · by_cases hint : type.kind = .int
    · exact stores_coerce_of_int hint hvalue
    · have hkind := holdsText_of_ne_int hint
      rw [coerce_of_holdsText hkind hvalue]
      exact stores_truncate hkind hvalue

/-- The first characters of a text are determined by their number. -/
theorem clip_eq_of_prefix {size : Option UInt64} {kept text : List Char} (hfront : kept <+: text)
    (hlength : kept.length = room size text.length) : clip size text = kept := by
  rw [← length_clip] at hlength
  have hshort := List.prefix_of_prefix_length_le hfront (isPrefix_clip size text) (Nat.le_of_eq hlength)
  exact (hshort.eq_of_length hlength).symm

theorem Stores.coerce_eq {type : ColumnType} {value stored : Value}
    (hstores : type.Stores value stored) :
    type.coerce value = stored := by
  cases hstores with
  | null => exact coerce_null type
  | integer hkind n => exact coerce_integer_of_int hkind n
  | number hkind hleads =>
    rw [coerce_text_of_int hkind, Text.readLeadingInt64?_eq_some_iff.2 hleads]
    rfl
  | @noNumber hkind s hnone =>
    rw [coerce_text_of_int hkind]
    cases hread : Text.readLeadingInt64? (Text.trimStart s.toList) with
    | none => rfl
    | some n => exact absurd (Text.readLeadingInt64?_eq_some_iff.1 hread) (hnone n)
  | kept hkind hvalue hfront hlength hne =>
    rw [coerce_of_holdsText hkind hvalue]
    rw [← String.length_toList, ← String.length_toList] at hlength
    simp [truncate, clip_eq_of_prefix hfront hlength, hne]
  | nothing hkind hvalue hlength =>
    rw [coerce_of_holdsText hkind hvalue]
    have hclip := clip_eq_of_prefix (List.nil_prefix (l := value.display.toList))
      (by rw [String.length_toList]; exact hlength.symm)
    simp [truncate, hclip]

/-- Coercion stores what the declared type says and nothing else, and leaves alone what is stored. -/
theorem coerce_eq_iff_stores (type : ColumnType) (value : Value) :
    (∀ stored, type.coerce value = stored ↔ type.Stores value stored) ∧
      type.coerce (type.coerce value) = type.coerce value := by
  constructor
  · intro stored
    constructor
    · rintro rfl
      exact stores_coerce type value
    · exact Stores.coerce_eq
  · exact coerce_of_admits (admits_coerce type value)

end ColumnType

end TableEngine
