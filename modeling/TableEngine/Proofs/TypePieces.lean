import Mathlib
import TableEngine.Proofs.Printing
import TableEngine.Proofs.TypeText

/-!
The text of a declared type as statements read it. It falls into pieces, each of which is read as one
token, with spaces between them (`TypePieces`); a text that can be read does so
(`exists_pieces_of_readAll`). The spaces are lost: the type is looked for in what the tokens are written
as, one behind the other (`glued`).
-/

namespace TableEngine

open Lexer

/-- The characters that the text of a type is made of: letters, digits, underscores, spaces and
    parentheses. Outside of ASCII, everything that is no blank counts as a letter. -/
def IsTypeChar (c : Char) : Prop :=
  c ∈ [' ', '(', ')'] ∨ isWordChar c = true ∨ 0x80 ≤ c.toNat ∧ Text.isBlank c = false

instance : DecidablePred IsTypeChar :=
  fun _ => inferInstanceAs (Decidable (_ ∨ _ ∨ _))

/-- A parenthesis and its token. -/
inductive IsParen : Char → Token → Prop
  | opening : IsParen '(' .openParen
  | closing : IsParen ')' .closeParen

/-- A word or a number of 64 bits and its token. -/
inductive IsRun : List Char → Token → Prop
  | word {run : List Char} (hrun : ∀ c ∈ run, isWordChar c = true)
      (hother : ∃ c ∈ run, c.isDigit = false) :
      IsRun run (Token.ofWord run)
  | number {run : List Char} {n : Int64} (hne : run ≠ []) (hdigits : ∀ c ∈ run, c.isDigit = true)
      (hvalue : (Text.digitsValue run : Int) = n.toInt) : IsRun run (.integer n)

/-- The pieces of a text, from left to right, with their tokens. Spaces belong to no piece, and a word
    or a number goes on as far as it can. -/
inductive TypePieces : List Char → List (List Char × Token) → Prop
  | nil : TypePieces [] []
  | space {text : List Char} {pieces : List (List Char × Token)} (hpieces : TypePieces text pieces) :
      TypePieces (' ' :: text) pieces
  | paren {c : Char} {token : Token} {text : List Char} {pieces : List (List Char × Token)}
      (hparen : IsParen c token) (hpieces : TypePieces text pieces) :
      TypePieces (c :: text) (([c], token) :: pieces)
  | run {run : List Char} {token : Token} {text : List Char} {pieces : List (List Char × Token)}
      (hrun : IsRun run token) (hends : EndsWord text) (hpieces : TypePieces text pieces) :
      TypePieces (run ++ text) ((run, token) :: pieces)

/-! Single characters and pieces. -/

theorem eq_space_of_isBlank {c : Char} (hc : IsTypeChar c) (hblank : Text.isBlank c = true) :
    c = ' ' := by
  rcases hc with hsign | hword | ⟨-, hvisible⟩
  · simp only [List.mem_cons, List.not_mem_nil, or_false] at hsign
    rcases hsign with rfl | rfl | rfl
    · rfl
    · cases hblank
    · cases hblank
  · rw [isBlank_of_isWordChar hword] at hblank
    cases hblank
  · rw [hvisible] at hblank
    cases hblank

theorem IsParen.mem {c : Char} {token : Token} (hparen : IsParen c token) :
    (c, token) ∈ [('(', .openParen), (')', .closeParen), (',', Token.comma), ('*', .star)] := by
  cases hparen <;> simp

theorem IsParen.isWordChar {c : Char} {token : Token} (hparen : IsParen c token) :
    isWordChar c = false := by
  cases hparen <;> rfl

theorem IsParen.unique {c : Char} {token other : Token} (hparen : IsParen c token)
    (hother : IsParen c other) : token = other := by
  cases hparen <;> cases hother <;> rfl

theorem IsParen.isBlank {c : Char} {token : Token} (hparen : IsParen c token) :
    Text.isBlank c = false := by
  cases hparen <;> rfl

theorem IsParen.display {c : Char} {token : Token} (hparen : IsParen c token) :
    token.display.toList = [c] := by
  cases hparen <;> rfl

theorem IsRun.ne_nil {run : List Char} {token : Token} (hrun : IsRun run token) : run ≠ [] := by
  cases hrun with
  | word hrun hother =>
    obtain ⟨c, hc, -⟩ := hother
    exact List.ne_nil_of_mem hc
  | number hne => exact hne

theorem IsRun.isWordChar {run : List Char} {token : Token} (hrun : IsRun run token) :
    ∀ c ∈ run, isWordChar c = true := by
  cases hrun with
  | word hrun => exact hrun
  | number hne hdigits => exact fun c hc => isWordChar_of_isDigit (hdigits c hc)

theorem IsRun.lexes {run : List Char} {token : Token} (hrun : IsRun run token) :
    Lexes run [token] := by
  cases hrun with
  | word hrun hother => exact lexes_word hrun hother
  | number hne hdigits hvalue => exact lexes_digits hne hdigits hvalue

/-- A run that is read in front of a text stands there as far as it goes. -/
theorem IsRun.not_endsWord {run : List Char} {token : Token} (hrun : IsRun run token)
    (text : List Char) : ¬EndsWord (run ++ text) := by
  obtain ⟨c, others, rfl⟩ := List.exists_cons_of_ne_nil hrun.ne_nil
  intro hends
  have hword := hrun.isWordChar c List.mem_cons_self
  rw [hends c rfl] at hword
  cases hword

/-! Pieces and tokens. -/

theorem TypePieces.ends_append {text : List Char} {pieces : List (List Char × Token)}
    (hpieces : TypePieces text pieces) (hends : EndsWord text) {rest : List Char} (hrest : Ends rest) :
    Ends (text ++ rest) := by
  cases hpieces with
  | nil => exact hrest
  | space => exact ends_blank _
  | paren hparen => cases hparen <;> exact ends_cons (by decide) (by decide) _
  | run hrun => exact absurd hends (hrun.not_endsWord _)

/-- A text that falls into pieces is read as their tokens. -/
theorem TypePieces.lexes {text : List Char} {pieces : List (List Char × Token)}
    (hpieces : TypePieces text pieces) : Lexes text (pieces.map Prod.snd) := by
  induction hpieces with
  | nil => exact lexes_nil
  | space hpieces ih => exact ih.blank
  | paren hparen hpieces ih => exact lexes_sign hparen.mem ih
  | run hrun hends hpieces ih =>
    exact hrun.lexes.append ih fun rest hrest => hpieces.ends_append hends hrest

theorem ends_of_isTypeChar {text rest : List Char} (hchars : ∀ c ∈ text, IsTypeChar c)
    (hends : EndsWord text) (hrest : Ends rest) : Ends (text ++ rest) := by
  cases text with
  | nil => exact hrest
  | cons c text =>
    have hword := hends c rfl
    refine ends_cons hword ?_ _
    rcases hchars c List.mem_cons_self with hsign | hword' | ⟨hforeign, -⟩
    · simp only [List.mem_cons, List.not_mem_nil, or_false] at hsign
      rcases hsign with rfl | rfl | rfl <;> decide
    · rw [hword] at hword'
      cases hword'
    · simp only [List.mem_cons, List.not_mem_nil, or_false]
      rintro (rfl | rfl | rfl | rfl) <;> exact absurd hforeign (by decide)

/-- No token starts with a character outside of ASCII. -/
theorem next_of_foreign {c : Char} (hforeign : 0x80 ≤ c.toNat) (hvisible : Text.isBlank c = false)
    (rest : List Char) : next (c :: rest) = .error (.unexpected c, c :: rest) := by
  have hne {d : Char} (hd : d.toNat < 0x80) : c ≠ d := by
    rintro rfl
    omega
  have hword : isWordChar c = false := by
    rw [Bool.eq_false_iff]
    intro hword
    have hrange := toNat_of_isWordChar hword
    omega
  have hsign : c ∉ signStarts := by
    intro hmem
    have hsigns := toNat_of_mem_signStarts hmem
    omega
  rw [isWordChar, Bool.or_eq_false_iff] at hword
  rw [next_of_visible hvisible (.inl (hne (by decide))) (hne (by decide)),
    readToken_of_other hsign (not_or.2 ⟨hne (by decide), hne (by decide)⟩) (hne (by decide)),
    if_neg (by simp [hword.2]), if_neg (by simp [hword.1])]

theorem exists_isRun_of_readAll {run rest : List Char} {tokens : List Token} (hne : run ≠ [])
    (hrun : ∀ c ∈ run, isWordChar c = true) (hrest : Ends rest)
    (hread : readAll (run ++ rest) = .ok tokens) :
    ∃ token others, IsRun run token ∧ readAll rest = .ok others := by
  by_cases hdigits : ∀ c ∈ run, c.isDigit = true
  · rw [readAll_eq, next_of_digits hne hdigits hrest] at hread
    cases hvalue : Text.toInt64? (Text.digitsValue run) with
    | none =>
      rw [hvalue] at hread
      cases hread
    | some n =>
      rw [hvalue] at hread
      dsimp only at hread
      rw [if_neg nofun] at hread
      obtain ⟨others, hothers, -⟩ := map_cons_eq_ok_iff.1 hread
      exact ⟨_, others, .number hne hdigits (Text.toInt64?_eq_some_iff.1 hvalue).symm, hothers⟩
  · have hother : ∃ c ∈ run, c.isDigit = false := by simpa using hdigits
    have hlexes := lexes_word hrun hother rest hrest
    rw [hread] at hlexes
    cases hbehind : readAll rest with
    | error fault =>
      rw [hbehind] at hlexes
      cases hlexes
    | ok others => exact ⟨_, others, .word hrun hother, rfl⟩

/-- A text that can be read in front of another one falls into pieces. -/
theorem exists_pieces_of_readAll {text rest : List Char} {tokens : List Token}
    (hchars : ∀ c ∈ text, IsTypeChar c) (hrest : Ends rest)
    (hread : readAll (text ++ rest) = .ok tokens) : ∃ pieces, TypePieces text pieces := by
  induction hlength : text.length using Nat.strong_induction_on generalizing text tokens with
  | h length ih =>
    cases text with
    | nil => exact ⟨[], .nil⟩
    | cons c behind =>
      obtain ⟨hc, hbehind⟩ := List.forall_mem_cons.1 hchars
      have hshort : behind.length < length := hlength ▸ Nat.lt_succ_self _
      have hparen {token : Token} (hparen : IsParen c token) :
          ∃ pieces, TypePieces (c :: behind) pieces := by
        rw [List.cons_append, readAll_of_sign hparen.mem] at hread
        obtain ⟨others, hothers, -⟩ := map_cons_eq_ok_iff.1 hread
        obtain ⟨pieces, hpieces⟩ := ih _ hshort hbehind hothers rfl
        exact ⟨_, .paren hparen hpieces⟩
      rcases hc with hsign | hword | ⟨hforeign, hvisible⟩
      · simp only [List.mem_cons, List.not_mem_nil, or_false] at hsign
        rcases hsign with rfl | rfl | rfl
        · rw [List.cons_append, readAll_blank] at hread
          obtain ⟨pieces, hpieces⟩ := ih _ hshort hbehind hread rfl
          exact ⟨pieces, .space hpieces⟩
        · exact hparen .opening
        · exact hparen .closing
      · -- The run that starts here is read whole, and the induction goes on behind it.
        have htext := List.takeWhile_append_dropWhile (p := isWordChar) (l := c :: behind)
        have hrun : ∀ d ∈ (c :: behind).takeWhile isWordChar, isWordChar d = true :=
          fun d hd => List.all_eq_true.1 List.all_takeWhile d hd
        have hne : (c :: behind).takeWhile isWordChar ≠ [] := by simp [hword]
        have hsuffix := List.dropWhile_suffix (l := c :: behind) isWordChar
        have hends := endsWord_dropWhile (c :: behind)
        have hlater : ((c :: behind).dropWhile isWordChar).length < length :=
          hlength ▸ length_dropWhile_lt hword
        generalize (c :: behind).takeWhile isWordChar = run at htext hrun hne
        generalize (c :: behind).dropWhile isWordChar = others at htext hsuffix hends hlater
        rw [← htext, List.append_assoc] at hread
        have hothers : ∀ d ∈ others, IsTypeChar d := fun d hd => hchars d (hsuffix.subset hd)
        obtain ⟨token, tokens, hpiece, hread⟩ :=
          exists_isRun_of_readAll hne hrun (ends_of_isTypeChar hothers hends hrest) hread
        obtain ⟨pieces, hpieces⟩ := ih _ hlater hothers hread rfl
        exact ⟨_, htext ▸ TypePieces.run hpiece hends hpieces⟩
      · rw [List.cons_append, readAll_eq, next_of_foreign hforeign hvisible] at hread
        cases hread

/-! The pieces of a text that is put together. -/

namespace TypePieces

variable {text : List Char} {pieces : List (List Char × Token)}

theorem nil_iff : TypePieces [] pieces ↔ pieces = [] := by
  constructor
  · intro hpieces
    generalize hwhole : ([] : List Char) = whole at hpieces
    cases hpieces with
    | nil => rfl
    | run hrun => exact absurd (List.append_eq_nil_iff.1 hwhole.symm).1 hrun.ne_nil
    | _ => cases hwhole
  · rintro rfl
    exact .nil

theorem space_iff : TypePieces (' ' :: text) pieces ↔ TypePieces text pieces := by
  refine ⟨fun hpieces => ?_, .space⟩
  generalize hwhole : ' ' :: text = whole at hpieces
  cases hpieces with
  | nil => cases hwhole
  | space hpieces =>
    obtain ⟨-, rfl⟩ := List.cons.inj hwhole
    exact hpieces
  | paren hparen =>
    obtain ⟨rfl, -⟩ := List.cons.inj hwhole
    cases hparen
  | run hrun =>
    have hends := (ends_blank text).endsWord
    rw [hwhole] at hends
    exact absurd hends (hrun.not_endsWord _)

theorem spaces_append_iff {spaces : List Char} (hspaces : ∀ c ∈ spaces, c = ' ') :
    TypePieces (spaces ++ text) pieces ↔ TypePieces text pieces := by
  induction spaces with
  | nil => rfl
  | cons c spaces ih =>
    obtain ⟨rfl, hothers⟩ := List.forall_mem_cons.1 hspaces
    rw [List.cons_append, space_iff, ih hothers]

theorem paren_iff {c : Char} {token : Token} (hparen : IsParen c token) :
    TypePieces (c :: text) pieces ↔
      ∃ others, pieces = ([c], token) :: others ∧ TypePieces text others := by
  constructor
  · intro hpieces
    generalize hwhole : c :: text = whole at hpieces
    cases hpieces with
    | nil => cases hwhole
    | space =>
      obtain ⟨rfl, -⟩ := List.cons.inj hwhole
      cases hparen
    | paren hother hpieces =>
      obtain ⟨rfl, rfl⟩ := List.cons.inj hwhole
      cases hparen <;> cases hother <;> exact ⟨_, rfl, hpieces⟩
    | run hrun =>
      have hends : EndsWord (c :: text) := by
        intro d hd
        obtain rfl := Option.some.inj hd
        exact hparen.isWordChar
      rw [hwhole] at hends
      exact absurd hends (hrun.not_endsWord _)
  · rintro ⟨others, rfl, hothers⟩
    exact .paren hparen hothers

/-- Word characters that go on as far as they can are one piece. -/
theorem run_iff {run : List Char} (hne : run ≠ []) (hword : ∀ c ∈ run, isWordChar c = true)
    (hends : EndsWord text) :
    TypePieces (run ++ text) pieces ↔
      ∃ token others, pieces = (run, token) :: others ∧ IsRun run token ∧ TypePieces text others := by
  constructor
  · intro hpieces
    have hfirst : ∃ c others, run ++ text = c :: others ∧ isWordChar c = true := by
      obtain ⟨c, others, rfl⟩ := List.exists_cons_of_ne_nil hne
      exact ⟨c, others ++ text, rfl, hword c List.mem_cons_self⟩
    obtain ⟨c, others, hcons, hc⟩ := hfirst
    generalize hwhole : run ++ text = whole at hpieces
    rw [hwhole] at hcons
    cases hpieces with
    | nil => cases hcons
    | space =>
      obtain ⟨rfl, -⟩ := List.cons.inj hcons
      cases hc
    | paren hparen =>
      obtain ⟨rfl, -⟩ := List.cons.inj hcons
      rw [hparen.isWordChar] at hc
      cases hc
    | run hrun hends' hpieces =>
      have hruns := congrArg (List.takeWhile isWordChar) hwhole
      rw [Text.takeWhile_append_of_stop hword hends,
        Text.takeWhile_append_of_stop hrun.isWordChar hends'] at hruns
      subst hruns
      obtain rfl := List.append_cancel_left hwhole
      exact ⟨_, _, rfl, hrun, hpieces⟩
  · rintro ⟨token, others, rfl, hrun, hothers⟩
    exact .run hrun hends hothers

/-- Without its spaces, a text is what its pieces are put together to. -/
theorem filter_eq (hpieces : TypePieces text pieces) :
    text.filter (· ≠ ' ') = pieces.flatMap Prod.fst := by
  induction hpieces with
  | nil => rfl
  | space hpieces ih => simpa using ih
  | paren hparen hpieces ih => cases hparen <;> simpa using ih
  | @run run token text pieces hrun hends hpieces ih =>
    have hkept : ∀ c ∈ run, decide (c ≠ ' ') = true := by
      intro c hc
      have hword := hrun.isWordChar c hc
      rw [decide_eq_true_eq]
      rintro rfl
      cases hword
    rw [List.filter_append, List.filter_eq_self.2 hkept, ih, List.flatMap_cons]

end TypePieces

/-! What the tokens are written as. -/

theorem display_ofWord {run : List Char} (hrun : ∀ c ∈ run, isWordChar c = true) :
    (∃ k, Token.ofWord run = .keyword k ∧ k.text.toList = run.map Char.toUpper) ∨
      (Token.ofWord run).display.toList = run := by
  unfold Token.ofWord
  split
  · next k hk => exact .inl ⟨k, rfl, Keyword.toList_text_of_ofWord? hrun hk⟩
  · exact .inr String.toList_ofList

theorem Keyword.map_toUpper_text (k : Keyword) : k.text.toList.map Char.toUpper = k.text.toList := by
  cases k <;> decide

/-- Words keep their letters. -/
theorem map_toUpper_display_ofWord {run : List Char} (hrun : ∀ c ∈ run, isWordChar c = true) :
    (Token.ofWord run).display.toList.map Char.toUpper = run.map Char.toUpper := by
  rcases display_ofWord hrun with ⟨k, htoken, hk⟩ | hsame
  · rw [htoken, Token.display, Keyword.map_toUpper_text, hk]
  · rw [hsame]

theorem exists_not_isDigit_display_ofWord {run : List Char} (hrun : ∀ c ∈ run, isWordChar c = true)
    (hother : ∃ c ∈ run, c.isDigit = false) :
    ∃ c ∈ (Token.ofWord run).display.toList, c.isDigit = false := by
  rcases display_ofWord hrun with ⟨k, htoken, hk⟩ | hsame
  · obtain ⟨c, hc, -⟩ := hother
    have hcapital : c.toUpper ∈ k.text.toList := hk ▸ List.mem_map_of_mem hc
    have halpha : c.toUpper.isAlpha = true := by
      simp [Char.isAlpha, Keyword.isUpper_of_mem hcapital]
    rw [htoken]
    exact ⟨c.toUpper, hcapital, not_isDigit_of_isAlpha halpha⟩
  · rwa [hsame]

theorem display_of_digitsValue {digits : List Char} {n : Int64}
    (hvalue : (Text.digitsValue digits : Int) = n.toInt) :
    (Token.integer n).display.toList = Text.natDigits (Text.digitsValue digits) := by
  have hn : 0 ≤ n := Int64.le_iff_toInt_le.2 (hvalue ▸ Int.natCast_nonneg _)
  rw [Parser.display_integer hn, ← hvalue, Int.toNat_natCast, String.toList_ofList]

theorem IsRun.display_ne_nil {run : List Char} {token : Token} (hrun : IsRun run token) :
    token.display.toList ≠ [] := by
  cases hrun with
  | word hrun hother =>
    obtain ⟨c, hc, -⟩ := exists_not_isDigit_display_ofWord hrun hother
    exact List.ne_nil_of_mem hc
  | number hne hdigits hvalue =>
    rw [display_of_digitsValue hvalue]
    exact Text.natDigits_ne_nil _

theorem IsRun.isWordChar_display {run : List Char} {token : Token} (hrun : IsRun run token) :
    ∀ c ∈ token.display.toList, Lexer.isWordChar c = true := by
  intro c hc
  cases hrun with
  | word hrun =>
    rcases display_ofWord hrun with ⟨k, htoken, -⟩ | hsame
    · rw [htoken] at hc
      have halpha : c.isAlpha = true := by simp [Char.isAlpha, Keyword.isUpper_of_mem hc]
      exact isWordChar_of_isAlpha halpha
    · rw [hsame] at hc
      exact hrun c hc
  | number hne hdigits hvalue =>
    rw [display_of_digitsValue hvalue] at hc
    exact isWordChar_of_isDigit (Text.isDigit_of_mem_natDigits hc)

/-- What the tokens of pieces are written as, one behind the other. -/
def glued (pieces : List (List Char × Token)) : List Char :=
  pieces.flatMap fun piece => piece.2.display.toList

/-- A parenthesis or a run, with its token. -/
def IsTypePiece (piece : List Char × Token) : Prop :=
  (∃ c, piece.1 = [c] ∧ IsParen c piece.2) ∨ IsRun piece.1 piece.2

theorem TypePieces.isTypePiece {text : List Char} {pieces : List (List Char × Token)}
    (hpieces : TypePieces text pieces) : ∀ piece ∈ pieces, IsTypePiece piece := by
  induction hpieces with
  | nil => exact nofun
  | space hpieces ih => exact ih
  | paren hparen hpieces ih => exact List.forall_mem_cons.2 ⟨.inl ⟨_, rfl, hparen⟩, ih⟩
  | run hrun hends hpieces ih => exact List.forall_mem_cons.2 ⟨.inr hrun, ih⟩

theorem IsTypePiece.display_ne_nil {piece : List Char × Token} (hpiece : IsTypePiece piece) :
    piece.2.display.toList ≠ [] := by
  rcases hpiece with ⟨c, -, hparen⟩ | hrun
  · rw [hparen.display]
    exact List.cons_ne_nil c []
  · exact hrun.display_ne_nil

/-- Tokens are written without gaps. -/
theorem IsTypePiece.not_isBlank {piece : List Char × Token} (hpiece : IsTypePiece piece) {c : Char}
    (hc : c ∈ piece.2.display.toList) : Text.isBlank c = false := by
  rcases hpiece with ⟨d, -, hparen⟩ | hrun
  · rw [hparen.display, List.mem_singleton] at hc
    exact hc ▸ hparen.isBlank
  · exact isBlank_of_isWordChar (hrun.isWordChar_display c hc)

section Glued

variable {pieces : List (List Char × Token)} (hall : ∀ piece ∈ pieces, IsTypePiece piece)

include hall

theorem glued_eq_nil_iff : glued pieces = [] ↔ pieces = [] := by
  constructor
  · intro hnil
    cases pieces with
    | nil => rfl
    | cons piece pieces =>
      have hfirst := (List.append_eq_nil_iff.1 hnil).1
      exact absurd hfirst (hall piece List.mem_cons_self).display_ne_nil
  · rintro rfl
    rfl

theorem not_isBlank_of_mem_glued {c : Char} (hc : c ∈ glued pieces) : Text.isBlank c = false := by
  obtain ⟨piece, hpiece, hdisplay⟩ := List.mem_flatMap.1 hc
  exact (hall piece hpiece).not_isBlank hdisplay

theorem trim_glued : Text.trim (glued pieces) = glued pieces := by
  apply Text.trim_of_ends
  · exact fun c hc => not_isBlank_of_mem_glued hall (List.mem_of_mem_head? hc)
  · exact fun c hc => not_isBlank_of_mem_glued hall (List.mem_of_getLast? hc)

/-- A parenthesis in what is put together stands for a piece of its own. -/
theorem exists_split_of_glued {c : Char} {token : Token} (hparen : IsParen c token)
    {front back : List Char} (hglued : glued pieces = front ++ c :: back) :
    ∃ first others, pieces = first ++ ([c], token) :: others ∧ glued first = front ∧
      glued others = back := by
  induction pieces generalizing front with
  | nil => cases front <;> cases hglued
  | cons piece pieces ih =>
    obtain ⟨hpiece, hothers⟩ := List.forall_mem_cons.1 hall
    -- Either the piece is the parenthesis itself, or all of it stands in front of the parenthesis.
    have hcases : front = [] ∧ piece = ([c], token) ∧ glued pieces = back ∨
        ∃ rest, front = piece.2.display.toList ++ rest ∧ glued pieces = rest ++ c :: back := by
      rcases hpiece with ⟨d, hd, hother⟩ | hrun
      · rw [glued, List.flatMap_cons, hother.display] at hglued
        cases front with
        | nil =>
          obtain ⟨rfl, hback⟩ := List.cons.inj hglued
          exact .inl ⟨rfl, Prod.ext hd (hother.unique hparen), hback⟩
        | cons e rest =>
          obtain ⟨rfl, hback⟩ := List.cons.inj hglued
          exact .inr ⟨rest, by rw [hother.display]; rfl, hback⟩
      · rw [glued, List.flatMap_cons] at hglued
        rcases List.append_eq_append_iff.1 hglued with ⟨rest, hfront, hback⟩ | ⟨rest, hdisplay, hback⟩
        · exact .inr ⟨rest, hfront, hback⟩
        · cases rest with
          | nil => exact .inr ⟨[], by rw [hdisplay, List.append_nil, List.append_nil], hback.symm⟩
          | cons e rest =>
            obtain ⟨rfl, -⟩ := List.cons.inj hback
            have hword := hrun.isWordChar_display c (hdisplay ▸ by simp)
            rw [hparen.isWordChar] at hword
            cases hword
    rcases hcases with ⟨rfl, rfl, hback⟩ | ⟨rest, rfl, hrest⟩
    · exact ⟨[], pieces, rfl, rfl, hback⟩
    · obtain ⟨first, others, rfl, hfirst, hback⟩ := ih hothers hrest
      refine ⟨piece :: first, others, rfl, ?_, hback⟩
      rw [glued, List.flatMap_cons, ← hfirst]
      rfl

/-- Pieces that are written as letters consist of these letters, in some letter case. -/
theorem map_toUpper_flatMap_fst (hletters : ∀ c ∈ glued pieces, c.isAlpha = true) :
    (pieces.flatMap Prod.fst).map Char.toUpper = (glued pieces).map Char.toUpper := by
  induction pieces with
  | nil => rfl
  | cons piece pieces ih =>
    obtain ⟨hpiece, hothers⟩ := List.forall_mem_cons.1 hall
    rw [glued, List.flatMap_cons, List.forall_mem_append] at hletters
    have hfirst : piece.1.map Char.toUpper = piece.2.display.toList.map Char.toUpper := by
      obtain ⟨run, token⟩ := piece
      rcases hpiece with ⟨c, -, hparen⟩ | hrun
      · have halpha := hletters.1 c (by simp [hparen.display])
        cases hparen <;> cases halpha
      · dsimp only at hrun ⊢
        cases hrun with
        | word hrun => exact (map_toUpper_display_ofWord hrun).symm
        | number hne hdigits hvalue =>
          rw [display_of_digitsValue hvalue] at hletters
          obtain ⟨d, others, hcons⟩ :=
            List.exists_cons_of_ne_nil (Text.natDigits_ne_nil (Text.digitsValue run))
          have hmem : d ∈ Text.natDigits (Text.digitsValue run) := hcons ▸ List.mem_cons_self
          have hdigit := not_isDigit_of_isAlpha (hletters.1 d hmem)
          rw [Text.isDigit_of_mem_natDigits hmem] at hdigit
          cases hdigit
    rw [glued, List.flatMap_cons, List.flatMap_cons, List.map_append, List.map_append, hfirst,
      ih hothers hletters.2]
    rfl

/-- Pieces that are written as digits consist of digits. -/
theorem digits_of_glued (hdigits : ∀ c ∈ glued pieces, c.isDigit = true) :
    ∀ piece ∈ pieces, piece.1 ≠ [] ∧ ∀ c ∈ piece.1, c.isDigit = true := by
  rintro ⟨run, token⟩ hpiece
  have hshown : ∀ c ∈ token.display.toList, c.isDigit = true :=
    fun c hc => hdigits c (List.mem_flatMap.2 ⟨_, hpiece, hc⟩)
  rcases hall _ hpiece with ⟨c, -, hparen⟩ | hrun
  · have hdigit := hshown c (by simp [hparen.display])
    cases hparen <;> cases hdigit
  · dsimp only at hrun ⊢
    cases hrun with
    | number hne hdigits => exact ⟨hne, hdigits⟩
    | word hrun hother =>
      obtain ⟨c, hc, hdigit⟩ := exists_not_isDigit_display_ofWord hrun hother
      rw [hshown c hc] at hdigit
      cases hdigit

end Glued

end TableEngine
