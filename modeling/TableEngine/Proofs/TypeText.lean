import TableEngine.Proofs.StoredForm

/-!
The texts that name a type, by the form they have (`ColumnType.HasForm`). A text that names a type has
that form (`form_of_parse?`), and what a text of that form names depends on its kind and its number
alone (`parse?_of_form`). In particular types are read back from their written form (`parse?_display`).
Together they say which texts are read as which types (`text_names_type_iff`).
-/

namespace TableEngine.ColumnType

theorem isGap_of_isDigit {c : Char} (hdigit : c.isDigit = true) : isGap c = false := by
  cases hgap : isGap c with
  | false => rfl
  | true =>
    simp only [isGap, Bool.or_eq_true, beq_iff_eq] at hgap
    rcases hgap with ((rfl | rfl) | rfl) | rfl <;> cases hdigit

theorem isBlank_of_isGap {c : Char} (hgap : isGap c = true) : Text.isBlank c = true := by
  simp only [isGap, Bool.or_eq_true, beq_iff_eq] at hgap
  rcases hgap with ((rfl | rfl) | rfl) | rfl <;> rfl

/-! The form of the texts that name a type. -/

/-- The text has the form of a type: the word of a kind in any letter case, then nothing or digits in
    parentheses, between gaps. The digits may stand for any number. -/
inductive HasForm : List Char → ColumnKind → Option (List Char) → Prop
  | bare {word : List Char} {kind : ColumnKind} (hword : word.map Char.toUpper = kind.keyword.toList) :
      HasForm word kind none
  | sized {word before inside digits behind : List Char} {kind : ColumnKind}
      (hword : word.map Char.toUpper = kind.keyword.toList) (hbefore : ∀ c ∈ before, isGap c = true)
      (hinside : ∀ c ∈ inside, isGap c = true) (hne : digits ≠ [])
      (hdigits : ∀ c ∈ digits, c.isDigit = true) (hbehind : ∀ c ∈ behind, isGap c = true) :
      HasForm (word ++ (before ++ '(' :: (inside ++ (digits ++ (behind ++ [')']))))) kind (some digits)

/-- The type of a kind and the number in parentheses, if there is one. The number has to be a size. -/
def ofForm? (kind : ColumnKind) : Option Nat → Option ColumnType
  | none => some ⟨kind, none⟩
  | some size =>
    if 0 < size ∧ size < UInt64.size then some ⟨kind, some (UInt64.ofNat size)⟩ else none

theorem afterWord?_eq_some_iff {word text rest : List Char} :
    afterWord? word text = some rest ↔
      ∃ front, text = front ++ rest ∧ front.map Char.toUpper = word := by
  induction word generalizing text with
  | nil =>
    constructor
    · intro hrest
      cases hrest
      exact ⟨[], rfl, rfl⟩
    · rintro ⟨front, rfl, hfront⟩
      rw [List.map_eq_nil_iff] at hfront
      rw [hfront]
      rfl
  | cons w word ih =>
    cases text with
    | nil => simp [afterWord?]
    | cons c text =>
      rw [afterWord?]
      constructor
      · intro hrest
        split at hrest
        · next hc =>
          obtain ⟨front, rfl, hfront⟩ := ih.1 hrest
          exact ⟨c :: front, rfl, by rw [List.map_cons, hc, hfront]⟩
        · cases hrest
      · rintro ⟨front, htext, hfront⟩
        cases front with
        | nil => cases hfront
        | cons d front =>
          obtain ⟨rfl, rfl⟩ := List.cons.inj htext
          obtain ⟨hd, hfront⟩ := List.cons.inj hfront
          rw [if_pos hd]
          exact ih.2 ⟨front, rfl, hfront⟩

/-- Only the words of its own kind are read as a kind. -/
theorem afterWord?_of_map {word : List Char} {kind : ColumnKind}
    (hword : word.map Char.toUpper = kind.keyword.toList) (other : ColumnKind) (rest : List Char) :
    afterWord? other.keyword.toList (word ++ rest) = if other = kind then some rest else none := by
  split
  · next heq => exact afterWord?_eq_some_iff.2 ⟨word, rfl, heq ▸ hword⟩
  · next hother =>
    -- No two kinds start with the same letter.
    rw [Option.eq_none_iff_forall_ne_some]
    intro behind hbehind
    obtain ⟨front, htext, hfront⟩ := afterWord?_eq_some_iff.1 hbehind
    cases word with
    | nil => cases kind <;> cases hword
    | cons c word =>
      cases front with
      | nil => cases other <;> cases hfront
      | cons d front =>
        obtain ⟨rfl, -⟩ := List.cons.inj htext
        rw [List.map_cons] at hword hfront
        cases kind <;> cases other <;> simp_all [ColumnKind.keyword]

theorem readSize?_of_form {before inside digits behind : List Char}
    (hbefore : ∀ c ∈ before, isGap c = true) (hinside : ∀ c ∈ inside, isGap c = true)
    (hne : digits ≠ []) (hdigits : ∀ c ∈ digits, c.isDigit = true)
    (hbehind : ∀ c ∈ behind, isGap c = true) :
    readSize? (before ++ '(' :: (inside ++ (digits ++ (behind ++ [')'])))) =
      if 0 < Text.digitsValue digits ∧ Text.digitsValue digits < UInt64.size then
        some (UInt64.ofNat (Text.digitsValue digits))
      else none := by
  have hnumber : ∀ c ∈ (digits ++ (behind ++ [')'])).head?, isGap c = false := by
    obtain ⟨d, others, rfl⟩ := List.exists_cons_of_ne_nil hne
    rintro c ⟨⟩
    exact isGap_of_isDigit (hdigits d List.mem_cons_self)
  have hstop : ∀ c ∈ (behind ++ [')']).head?, c.isDigit = false := by
    cases behind with
    | nil => rintro c ⟨⟩; rfl
    | cons d behind =>
      rintro c ⟨⟩
      cases hdigit : d.isDigit with
      | false => rfl
      | true => exact absurd (hbehind d List.mem_cons_self) (by simp [isGap_of_isDigit hdigit])
  have hopening : ∀ c ∈ ('(' :: (inside ++ (digits ++ (behind ++ [')'])))).head?, isGap c = false := by
    rintro c ⟨⟩
    rfl
  have hclosing : ∀ c ∈ [')'].head?, isGap c = false := by
    rintro c ⟨⟩
    rfl
  unfold readSize?
  simp only [Text.dropWhile_append_of_stop hbefore hopening,
    Text.dropWhile_append_of_stop hinside hnumber, Text.takeWhile_append_of_stop hdigits hstop,
    Text.dropWhile_append_of_stop hdigits hstop, Text.dropWhile_append_of_stop hbehind hclosing,
    hne, true_and, ne_eq, not_false_eq_true]

theorem form_of_readSize? {text : List Char} {size : UInt64} (hread : readSize? text = some size) :
    ∃ before inside digits behind, text = before ++ '(' :: (inside ++ (digits ++ (behind ++ [')']))) ∧
      (∀ c ∈ before, isGap c = true) ∧ (∀ c ∈ inside, isGap c = true) ∧ digits ≠ [] ∧
      (∀ c ∈ digits, c.isDigit = true) ∧ ∀ c ∈ behind, isGap c = true := by
  have hall (p : Char → Bool) (run : List Char) : ∀ c ∈ run.takeWhile p, p c = true :=
    fun c hc => List.all_eq_true.1 List.all_takeWhile c hc
  unfold readSize? at hread
  split at hread
  · next inner hopening =>
    dsimp only at hread
    split at hread
    · next hsize =>
      obtain ⟨hclosing, hne, -, -⟩ := hsize
      refine ⟨text.takeWhile isGap, inner.takeWhile isGap, _, _, ?_, hall _ _, hall _ _, hne, hall _ _,
        hall isGap ((inner.dropWhile isGap).dropWhile Char.isDigit)⟩
      rw [← hclosing, List.takeWhile_append_dropWhile, List.takeWhile_append_dropWhile,
        List.takeWhile_append_dropWhile, ← hopening, List.takeWhile_append_dropWhile]
    · cases hread
  · cases hread

theorem parse?_of_word {spec : String} {word rest : List Char} {kind : ColumnKind}
    (htext : Text.trim spec.toList = word ++ rest)
    (hword : word.map Char.toUpper = kind.keyword.toList) :
    parse? spec =
      if rest = [] then some ⟨kind, none⟩ else (readSize? rest).map fun size => ⟨kind, some size⟩ := by
  unfold parse?
  simp only [htext, afterWord?_of_map hword, ColumnKind.all]
  cases rest with
  | nil => cases kind <;> rfl
  | cons c rest => cases kind <;> cases hread : readSize? (c :: rest) <;> simp [List.findSome?, hread]

/-- What a text of the form of a type is read as depends on its kind and its number alone. -/
theorem parse?_of_form {spec : String} {kind : ColumnKind} {digits : Option (List Char)}
    (hform : HasForm (Text.trim spec.toList) kind digits) :
    parse? spec = ofForm? kind (digits.map Text.digitsValue) := by
  generalize htext : Text.trim spec.toList = text at hform
  cases hform with
  | bare hword =>
    rw [← List.append_nil text] at htext
    rw [parse?_of_word htext hword, if_pos rfl]
    rfl
  | sized hword hbefore hinside hne hdigits hbehind =>
    rw [parse?_of_word htext hword, if_neg (by simp),
      readSize?_of_form hbefore hinside hne hdigits hbehind, Option.map_some, ofForm?]
    split <;> rfl

theorem form_of_parse? {spec : String} {type : ColumnType} (hparse : parse? spec = some type) :
    ∃ digits, HasForm (Text.trim spec.toList) type.kind digits := by
  obtain ⟨kind, -, hkind⟩ := List.exists_of_findSome?_eq_some hparse
  split at hkind
  · cases hkind
  · next hrest =>
    obtain ⟨word, htext, hword⟩ := afterWord?_eq_some_iff.1 hrest
    cases hkind
    rw [List.append_nil] at htext
    exact ⟨none, htext ▸ .bare hword⟩
  · next rest _ hrest =>
    obtain ⟨word, htext, hword⟩ := afterWord?_eq_some_iff.1 hrest
    obtain ⟨size, hread, rfl⟩ := Option.map_eq_some_iff.1 hkind
    obtain ⟨before, inside, digits, behind, rfl, hbefore, hinside, hne, hdigits, hbehind⟩ :=
      form_of_readSize? hread
    exact ⟨some digits, htext ▸ .sized hword hbefore hinside hne hdigits hbehind⟩

/-! Written types. -/

theorem trim_display (kind : ColumnKind) (size : List Char) :
    Text.trim (kind.keyword.toList ++ '(' :: size ++ [')']) =
      kind.keyword.toList ++ '(' :: size ++ [')'] := by
  apply Text.trim_of_ends
  · intro c hc
    cases kind <;> cases hc <;> rfl
  · intro c hc
    rw [List.getLast?_concat] at hc
    cases hc
    rfl

theorem map_toUpper_keyword (kind : ColumnKind) :
    kind.keyword.toList.map Char.toUpper = kind.keyword.toList := by
  cases kind <;> rfl

theorem form_display (type : ColumnType) :
    HasForm (Text.trim type.display.toList) type.kind
      (type.size.map fun size => Text.natDigits size.toNat) := by
  obtain ⟨kind, size⟩ := type
  cases size with
  | none => cases kind <;> exact .bare rfl
  | some size =>
    have htext : (display ⟨kind, some size⟩).toList =
        kind.keyword.toList ++ '(' :: Text.natDigits size.toNat ++ [')'] := by
      simp [display]
    rw [htext, trim_display, List.append_assoc]
    exact .sized (map_toUpper_keyword kind) (List.forall_mem_nil _) (List.forall_mem_nil _)
      (Text.natDigits_ne_nil _) (fun _ => Text.isDigit_of_mem_natDigits) (List.forall_mem_nil _)

/-- A type whose size is proper is read back from what it is written as. -/
theorem parse?_display {type : ColumnType} (hproper : type.IsProper) :
    parse? type.display = some type := by
  rw [parse?_of_form (form_display type)]
  obtain ⟨kind, size⟩ := type
  cases size with
  | none => rfl
  | some size =>
    have hpositive : 0 < size.toNat := UInt64.le_iff_toNat_le.1 (hproper size rfl)
    rw [Option.map_some, Option.map_some, Text.digitsValue_natDigits, ofForm?,
      if_pos ⟨hpositive, size.toNat_lt⟩, UInt64.ofNat_toNat]

/-! Exactness. -/

/-- The whole text names the type: it has the form of the kind, and the number in parentheses, if there
    is one, is the size. Zero is no size, and neither is a number of `2 ^ 64` or more. -/
def IsNamedBy (type : ColumnType) (text : List Char) : Prop :=
  ∃ digits, HasForm text type.kind digits ∧
    digits.map Text.digitsValue = type.size.map UInt64.toNat ∧
    ∀ run ∈ digits, 0 < Text.digitsValue run ∧ Text.digitsValue run < UInt64.size

theorem ofForm?_eq_some_iff {kind : ColumnKind} {size : Option Nat} {type : ColumnType} :
    ofForm? kind size = some type ↔
      kind = type.kind ∧ size = type.size.map UInt64.toNat ∧
        ∀ n ∈ size, 0 < n ∧ n < UInt64.size := by
  obtain ⟨declared, width⟩ := type
  cases size with
  | none => cases width <;> simp [ofForm?]
  | some n =>
    rw [ofForm?]
    split
    · next hsize =>
      have hnumber : (UInt64.ofNat n).toNat = n := UInt64.toNat_ofNat_of_lt' hsize.2
      constructor
      · intro htype
        cases htype
        refine ⟨rfl, congrArg some hnumber.symm, ?_⟩
        rintro _ ⟨⟩
        exact hsize
      · rintro ⟨rfl, hwidth, -⟩
        obtain ⟨size, rfl, rfl⟩ := Option.map_eq_some_iff.1 hwidth.symm
        rw [UInt64.ofNat_toNat]
    · next hsize =>
      constructor
      · intro htype
        cases htype
      · rintro ⟨-, -, hrange⟩
        exact absurd (hrange n rfl) hsize

/-- A text is read as a type exactly if it names the type, blanks around it aside, and a type is read
    back from what it is written as exactly if its size is proper. -/
theorem text_names_type_iff (spec : String) (type : ColumnType) :
    (parse? spec = some type ↔ type.IsNamedBy (Text.trim spec.toList)) ∧
      (parse? type.display = some type ↔ type.IsProper) := by
  refine ⟨⟨?_, ?_⟩, isProper_of_parse?, parse?_display⟩
  · intro hparse
    obtain ⟨digits, hform⟩ := form_of_parse? hparse
    rw [parse?_of_form hform, ofForm?_eq_some_iff] at hparse
    obtain ⟨-, hsize, hrange⟩ := hparse
    refine ⟨digits, hform, hsize, ?_⟩
    exact fun run hrun => hrange _ (Option.mem_map_of_mem Text.digitsValue hrun)
  · rintro ⟨digits, hform, hsize, hrange⟩
    rw [parse?_of_form hform, ofForm?_eq_some_iff]
    refine ⟨rfl, hsize, fun n hn => ?_⟩
    obtain ⟨run, hrun, rfl⟩ := Option.map_eq_some_iff.1 hn
    exact hrange run hrun

/-- Letter case, zeros in front and blanks around the number do not matter, but the number does. -/
example : parse? "\u00a0Char\t( 007\n) " = some ⟨.char, some 7⟩ ∧ parse? "INT(0)" = none ∧
    parse? "INT(18446744073709551616)" = none := ⟨rfl, rfl, rfl⟩

end TableEngine.ColumnType
