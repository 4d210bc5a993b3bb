import TableEngine.Proofs.TypePieces

/-!
The pieces of a text that has the form of a type: a word, or a word and a number in parentheses
(`TypePieces.iff_of_form`). What they are put together to names the type that the text names, unless the
text is taken for a type without the spaces inside of its word or its number (`parse?_glued`), and the
text can be read exactly if its size is in the range of the integers of statements
(`exists_pieces_iff`).
-/

namespace TableEngine

open Lexer ColumnType

/-! Texts of the form of a type. -/

theorem isAlpha_of_keyword {word : List Char} {kind : ColumnKind}
    (hword : word.map Char.toUpper = kind.keyword.toList) : ∀ c ∈ word, c.isAlpha = true := by
  have hcapitals : kind.keyword.toList.all Char.isUpper = true := by cases kind <;> rfl
  exact isAlpha_of_map_toUpper (List.all_eq_true.1 hcapitals) hword

theorem ne_nil_of_map_toUpper {word : List Char} {kind : ColumnKind}
    (hword : word.map Char.toUpper = kind.keyword.toList) : word ≠ [] := by
  rintro rfl
  cases kind <;> cases hword

theorem isRun_letters_iff {word : List Char} (hne : word ≠ []) (hletters : ∀ c ∈ word, c.isAlpha = true)
    {token : Token} : IsRun word token ↔ token = Token.ofWord word := by
  obtain ⟨c, others, hcons⟩ := List.exists_cons_of_ne_nil hne
  have hc : c ∈ word := hcons ▸ List.mem_cons_self
  have hother := not_isDigit_of_isAlpha (hletters c hc)
  constructor
  · intro hrun
    cases hrun with
    | word => rfl
    | number hne hdigits =>
      rw [hdigits c hc] at hother
      cases hother
  · rintro rfl
    exact .word (fun d hd => isWordChar_of_isAlpha (hletters d hd)) ⟨c, hc, hother⟩

theorem isRun_digits_iff {run : List Char} (hne : run ≠ []) (hdigits : ∀ c ∈ run, c.isDigit = true)
    {token : Token} :
    IsRun run token ↔ ∃ n : Int64, (Text.digitsValue run : Int) = n.toInt ∧ token = .integer n := by
  constructor
  · intro hrun
    cases hrun with
    | word hrun hother =>
      obtain ⟨c, hc, hdigit⟩ := hother
      rw [hdigits c hc] at hdigit
      cases hdigit
    | number hne hdigits hvalue => exact ⟨_, hvalue, rfl⟩
  · rintro ⟨n, hvalue, rfl⟩
    exact .number hne hdigits hvalue

theorem endsWord_spaces_append {spaces text : List Char} (hspaces : ∀ c ∈ spaces, c = ' ')
    (htext : EndsWord text) : EndsWord (spaces ++ text) := by
  cases spaces with
  | nil => exact htext
  | cons c spaces =>
    rw [hspaces c List.mem_cons_self]
    exact (ends_blank _).endsWord

theorem IsParen.endsWord {c : Char} {token : Token} (hparen : IsParen c token) (text : List Char) :
    EndsWord (c :: text) := by
  intro d hd
  obtain rfl := Option.some.inj hd
  exact hparen.isWordChar

namespace TypePieces

variable {pieces : List (List Char × Token)}

theorem spaces_iff {spaces : List Char} (hspaces : ∀ c ∈ spaces, c = ' ') :
    TypePieces spaces pieces ↔ pieces = [] := by
  rw [← List.append_nil spaces, spaces_append_iff hspaces, nil_iff]

/-- A word between spaces. -/
theorem word_iff {front word back : List Char} (hfront : ∀ c ∈ front, c = ' ') (hne : word ≠ [])
    (hletters : ∀ c ∈ word, c.isAlpha = true) (hback : ∀ c ∈ back, c = ' ') :
    TypePieces (front ++ (word ++ back)) pieces ↔ pieces = [(word, Token.ofWord word)] := by
  have hword : ∀ c ∈ word, isWordChar c = true := fun c hc => isWordChar_of_isAlpha (hletters c hc)
  have hends : EndsWord back := by
    rw [← List.append_nil back]
    exact endsWord_spaces_append hback ends_nil.endsWord
  rw [spaces_append_iff hfront, run_iff hne hword hends]
  simp only [isRun_letters_iff hne hletters, spaces_iff hback]
  constructor
  · rintro ⟨_, _, rfl, rfl, rfl⟩
    rfl
  · rintro rfl
    exact ⟨_, _, rfl, rfl, rfl⟩

/-- The pieces of a word and a number in parentheses. -/
def sizedPieces (word digits : List Char) (n : Int64) : List (List Char × Token) :=
  [(word, .ofWord word), (['('], .openParen), (digits, .integer n), ([')'], .closeParen)]

/-- A word and a number in parentheses, with spaces between. -/
theorem sized_iff {front word before inside digits behind back : List Char}
    (hfront : ∀ c ∈ front, c = ' ') (hword : word ≠ []) (hletters : ∀ c ∈ word, c.isAlpha = true)
    (hbefore : ∀ c ∈ before, c = ' ') (hinside : ∀ c ∈ inside, c = ' ') (hnumber : digits ≠ [])
    (hdigits : ∀ c ∈ digits, c.isDigit = true) (hbehind : ∀ c ∈ behind, c = ' ')
    (hback : ∀ c ∈ back, c = ' ') :
    TypePieces (front ++ (word ++ (before ++ '(' :: (inside ++ (digits ++ (behind ++ ')' :: back))))))
        pieces ↔
      ∃ n : Int64, (Text.digitsValue digits : Int) = n.toInt ∧ pieces = sizedPieces word digits n := by
  have hword' : ∀ c ∈ word, isWordChar c = true := fun c hc => isWordChar_of_isAlpha (hletters c hc)
  have hdigits' : ∀ c ∈ digits, isWordChar c = true := fun c hc => isWordChar_of_isDigit (hdigits c hc)
  have hopening := endsWord_spaces_append hbefore
    (IsParen.opening.endsWord (inside ++ (digits ++ (behind ++ ')' :: back))))
  have hclosing := endsWord_spaces_append hbehind (IsParen.closing.endsWord back)
  rw [spaces_append_iff hfront, run_iff hword hword' hopening]
  simp only [isRun_letters_iff hword hletters, spaces_append_iff hbefore, paren_iff .opening,
    spaces_append_iff hinside, run_iff hnumber hdigits' hclosing, isRun_digits_iff hnumber hdigits,
    spaces_append_iff hbehind, paren_iff .closing, spaces_iff hback]
  constructor
  · rintro ⟨_, _, rfl, rfl, _, rfl, _, _, rfl, ⟨n, hn, rfl⟩, _, rfl, rfl⟩
    exact ⟨n, hn, rfl⟩
  · rintro ⟨n, hn, rfl⟩
    exact ⟨_, _, rfl, rfl, _, rfl, _, _, rfl, ⟨n, hn, rfl⟩, _, rfl, rfl⟩

/-- A text of the form of a type has the pieces that the form says, if its number is in range. -/
theorem iff_of_form {text : List Char} (hchars : ∀ c ∈ text, IsTypeChar c) {kind : ColumnKind}
    {digits : Option (List Char)} (hform : HasForm (Text.trim text) kind digits) :
    ∃ word, word.map Char.toUpper = kind.keyword.toList ∧ ∀ pieces, TypePieces text pieces ↔
      match digits with
      | none => pieces = [(word, Token.ofWord word)]
      | some number =>
        ∃ n : Int64, (Text.digitsValue number : Int) = n.toInt ∧ pieces = sizedPieces word number n := by
  obtain ⟨front, back, hfront, hback, htext⟩ := Text.exists_trim_append text
  have hspace {c : Char} (hc : c ∈ text) (hblank : Text.isBlank c = true) : c = ' ' :=
    eq_space_of_isBlank (hchars c hc) hblank
  generalize Text.trim text = middle at hform htext
  subst htext
  simp only [List.mem_append] at hspace
  have hfront' : ∀ c ∈ front, c = ' ' := fun c hc => hspace (.inl hc) (hfront c hc)
  have hback' : ∀ c ∈ back, c = ' ' := fun c hc => hspace (.inr (.inr hc)) (hback c hc)
  cases hform with
  | bare hword =>
    exact ⟨middle, hword, fun pieces =>
      word_iff hfront' (ne_nil_of_map_toUpper hword) (isAlpha_of_keyword hword) hback'⟩
  | @sized word before inside digits behind _ hword hbefore hinside hne hdigits hbehind =>
    refine ⟨word, hword, fun pieces => ?_⟩
    have hgap {c : Char} (hc : c ∈ word ++ (before ++ '(' :: (inside ++ (digits ++ (behind ++ [')'])))))
        (hgap : isGap c = true) : c = ' ' := hspace (.inr (.inl hc)) (isBlank_of_isGap hgap)
    have hbefore' : ∀ c ∈ before, c = ' ' := fun c hc => hgap (by simp [hc]) (hbefore c hc)
    have hinside' : ∀ c ∈ inside, c = ' ' := fun c hc => hgap (by simp [hc]) (hinside c hc)
    have hbehind' : ∀ c ∈ behind, c = ' ' := fun c hc => hgap (by simp [hc]) (hbehind c hc)
    have htext : front ++ (word ++ (before ++ '(' :: (inside ++ (digits ++ (behind ++ [')'])))) ++ back) =
        front ++ (word ++ (before ++ '(' :: (inside ++ (digits ++ (behind ++ ')' :: back))))) := by
      simp
    rw [htext]
    exact sized_iff hfront' (ne_nil_of_map_toUpper hword) (isAlpha_of_keyword hword) hbefore'
      hinside' hne hdigits hbehind' hback'

end TypePieces

namespace ColumnType

/-- What the pieces of a text of the form of a type are put together to has the same form, with the same
    number. -/
theorem form_glued {text : List Char} (hchars : ∀ c ∈ text, IsTypeChar c) {kind : ColumnKind}
    {digits : Option (List Char)} (hform : HasForm (Text.trim text) kind digits)
    {pieces : List (List Char × Token)} (hpieces : TypePieces text pieces) :
    ∃ shown, HasForm (glued pieces) kind shown ∧
      shown.map Text.digitsValue = digits.map Text.digitsValue := by
  obtain ⟨word, hword, hiff⟩ := TypePieces.iff_of_form hchars hform
  have hletters := isAlpha_of_keyword hword
  have hdisplay := map_toUpper_display_ofWord fun c hc => isWordChar_of_isAlpha (hletters c hc)
  rw [hword] at hdisplay
  rw [hiff pieces] at hpieces
  cases digits with
  | none =>
    obtain rfl := hpieces
    refine ⟨none, ?_, rfl⟩
    simpa [glued] using HasForm.bare hdisplay
  | some number =>
    obtain ⟨n, hvalue, rfl⟩ := hpieces
    refine ⟨some (Text.natDigits (Text.digitsValue number)), ?_, ?_⟩
    · have hform := HasForm.sized hdisplay (List.forall_mem_nil _) (List.forall_mem_nil _)
        (Text.natDigits_ne_nil (Text.digitsValue number)) (fun _ => Text.isDigit_of_mem_natDigits)
        (List.forall_mem_nil _)
      simpa [glued, TypePieces.sizedPieces, display_of_digitsValue hvalue, IsParen.opening.display,
        IsParen.closing.display] using hform
    · rw [Option.map_some, Option.map_some, Text.digitsValue_natDigits]

theorem map_toUpper_of_glued {pieces : List (List Char × Token)}
    (hall : ∀ piece ∈ pieces, IsTypePiece piece) {word : List Char} {kind : ColumnKind}
    (hglued : glued pieces = word) (hword : word.map Char.toUpper = kind.keyword.toList) :
    (pieces.flatMap Prod.fst).map Char.toUpper = kind.keyword.toList := by
  subst hglued
  rw [map_toUpper_flatMap_fst hall (isAlpha_of_keyword hword), hword]

/-- If the tokens of pieces are written as something of the form of a type, then the pieces themselves
    are put together to something of that form. The number need not be the same. -/
theorem form_of_glued {pieces : List (List Char × Token)} (hall : ∀ piece ∈ pieces, IsTypePiece piece)
    {kind : ColumnKind} {digits : Option (List Char)} (hform : HasForm (glued pieces) kind digits) :
    ∃ number, HasForm (pieces.flatMap Prod.fst) kind number := by
  have hgap {c : Char} (hc : c ∈ glued pieces) : ¬isGap c = true := by
    intro hgap
    have hblank := isBlank_of_isGap hgap
    rw [not_isBlank_of_mem_glued hall hc] at hblank
    cases hblank
  generalize hglued : glued pieces = text at hform
  cases hform with
  | bare hword => exact ⟨none, .bare (map_toUpper_of_glued hall hglued hword)⟩
  | @sized word before inside digits behind _ hword hbefore hinside hne hdigits hbehind =>
    rw [hglued] at hgap
    obtain rfl : before = [] :=
      List.eq_nil_iff_forall_not_mem.2 fun c hc => hgap (by simp [hc]) (hbefore c hc)
    obtain rfl : inside = [] :=
      List.eq_nil_iff_forall_not_mem.2 fun c hc => hgap (by simp [hc]) (hinside c hc)
    obtain rfl : behind = [] :=
      List.eq_nil_iff_forall_not_mem.2 fun c hc => hgap (by simp [hc]) (hbehind c hc)
    -- The parentheses split the pieces into those of the word and those of the number.
    obtain ⟨first, rest, rfl, hfirst, hrest⟩ := exists_split_of_glued hall .opening hglued
    rw [List.forall_mem_append, List.forall_mem_cons] at hall
    obtain ⟨hallFirst, -, hallRest⟩ := hall
    obtain ⟨middle, last, rfl, hmiddle, hlast⟩ := exists_split_of_glued hallRest .closing hrest
    rw [List.forall_mem_append, List.forall_mem_cons] at hallRest
    obtain ⟨hallMiddle, -, hallLast⟩ := hallRest
    obtain rfl := (glued_eq_nil_iff hallLast).1 hlast
    have hnumbers := digits_of_glued hallMiddle (hmiddle ▸ hdigits)
    have hmiddleNe : middle.flatMap Prod.fst ≠ [] := by
      intro hnil
      cases middle with
      | nil => exact hne hmiddle.symm
      | cons piece middle =>
        exact (hnumbers piece List.mem_cons_self).1 (List.append_eq_nil_iff.1 hnil).1
    have hmiddleDigits : ∀ c ∈ middle.flatMap Prod.fst, c.isDigit = true := by
      intro c hc
      obtain ⟨piece, hpiece, hmem⟩ := List.mem_flatMap.1 hc
      exact (hnumbers piece hpiece).2 c hmem
    have hform := HasForm.sized (map_toUpper_of_glued hallFirst hfirst hword) (List.forall_mem_nil _)
      (List.forall_mem_nil _) hmiddleNe hmiddleDigits (List.forall_mem_nil _)
    exact ⟨some (middle.flatMap Prod.fst), by simpa using hform⟩

/-- The text is none of a type, because spaces stand inside of its word or its number, but it is taken
    for one. -/
structure IsBroken (text : List Char) : Prop where
  /-- If its spaces are left out, the text has the form of a type. -/
  joined : ∃ kind digits, HasForm (text.filter (· ≠ ' ')) kind digits
  apart : ¬∃ kind digits, HasForm (Text.trim text) kind digits
  /-- What the tokens of the text are put together to names a type. -/
  named : ∃ pieces, TypePieces text pieces ∧ (parse? (String.ofList (glued pieces))).isSome = true

/-- What the tokens of a text are put together to names the type that the text names. -/
theorem parse?_glued {spec : String} (hchars : ∀ c ∈ spec.toList, IsTypeChar c)
    (hwhole : ¬IsBroken spec.toList) {pieces : List (List Char × Token)}
    (hpieces : TypePieces spec.toList pieces) :
    parse? (String.ofList (glued pieces)) = parse? spec := by
  have hall := hpieces.isTypePiece
  have htrim : Text.trim (String.ofList (glued pieces)).toList = glued pieces := by
    rw [String.toList_ofList, trim_glued hall]
  by_cases hform : ∃ kind digits, HasForm (Text.trim spec.toList) kind digits
  · obtain ⟨kind, digits, hform⟩ := hform
    obtain ⟨shown, hshown, hvalue⟩ := form_glued hchars hform hpieces
    rw [parse?_of_form hform, ← hvalue]
    exact parse?_of_form (by rwa [htrim])
  · have hnone : parse? spec = none := by
      rw [Option.eq_none_iff_forall_ne_some]
      intro type hparse
      obtain ⟨digits, hdigits⟩ := form_of_parse? hparse
      exact hform ⟨_, digits, hdigits⟩
    rw [hnone, Option.eq_none_iff_forall_ne_some]
    intro type hparse
    obtain ⟨digits, hdigits⟩ := form_of_parse? hparse
    rw [htrim] at hdigits
    obtain ⟨number, hnumber⟩ := form_of_glued hall hdigits
    rw [← hpieces.filter_eq] at hnumber
    have hnamed : (parse? (String.ofList (glued pieces))).isSome = true := by simp [hparse]
    exact hwhole ⟨⟨_, number, hnumber⟩, hform, pieces, hpieces, hnamed⟩

theorem size_le_iff {spec : String} {type : ColumnType} (hparse : parse? spec = some type)
    {kind : ColumnKind} {digits : Option (List Char)}
    (hform : HasForm (Text.trim spec.toList) kind digits) :
    (∀ size ∈ type.size, (size.toNat : Int) ≤ Int64.maxValue.toInt) ↔
      ∀ number ∈ digits, (Text.digitsValue number : Int) ≤ Int64.maxValue.toInt := by
  rw [parse?_of_form hform] at hparse
  cases digits with
  | none =>
    cases hparse
    simp
  | some number =>
    rw [Option.map_some, ofForm?] at hparse
    split at hparse
    · next hsize =>
      cases hparse
      simp [UInt64.toNat_ofNat_of_lt' hsize.2]
    · cases hparse

/-- A text that names a type can be read exactly if the size is in the range of the integers of
    statements. -/
theorem exists_pieces_iff {spec : String} (hchars : ∀ c ∈ spec.toList, IsTypeChar c) {type : ColumnType}
    (hparse : parse? spec = some type) :
    (∃ pieces, TypePieces spec.toList pieces) ↔
      ∀ size ∈ type.size, (size.toNat : Int) ≤ Int64.maxValue.toInt := by
  obtain ⟨digits, hform⟩ := form_of_parse? hparse
  obtain ⟨word, -, hiff⟩ := TypePieces.iff_of_form hchars hform
  rw [size_le_iff hparse hform]
  simp only [hiff]
  cases digits with
  | none => simp
  | some number =>
    simp only [Option.mem_some_iff, forall_eq']
    constructor
    · rintro ⟨_, n, hvalue, -⟩
      rw [hvalue]
      exact Int64.toInt_le n
    · intro hbound
      obtain ⟨n, -, hvalue⟩ := exists_toInt_eq hbound
      exact ⟨_, n, hvalue, rfl⟩

end ColumnType

end TableEngine
