import Mathlib.Data.List.Chain
import TableEngine.Json.Layout
import TableEngine.Json.Lexer

/-!
What is printed as JSON is read as the same tokens, in either layout (`Json.readAll_indented`,
`Json.readAll_compact`). A sign and a text in quotes end by themselves. A word or a number ends only where
something else begins, so that no two of these may stand side by side (`Json.Readable`).
-/

namespace TableEngine.Json

open Lexer

/-- Whether a token is a word or a number, which what follows could prolong. -/
def Token.isWord : Token → Bool
  | null | boolean _ | integer _ => true
  | _ => false

/-- Whether a token has a written form. -/
def Token.isWritten : Token → Bool
  | otherNumber | brokenText | fault => false
  | _ => true

/-- Tokens that have a written form and do not run into each other when they are written. -/
structure Readable (tokens : List Token) : Prop where
  written : ∀ token ∈ tokens, token.isWritten = true
  apart : tokens.IsChain fun a b => ¬(a.isWord = true ∧ b.isWord = true)

/-- No word and no number goes on into the text. -/
def Stops (text : List Char) : Prop :=
  ∀ c ∈ text.head?, (c.isAlphanum || c == '.') = false

theorem stops_nil : Stops [] := by
  intro c hc
  cases hc

theorem stops_cons {c : Char} (hc : (c.isAlphanum || c == '.') = false) (text : List Char) :
    Stops (c :: text) := by
  intro d hd
  obtain rfl := Option.some.inj hd
  exact hc

theorem Stops.isDigit {text : List Char} (hstops : Stops text) :
    ∀ c ∈ text.head?, c.isDigit = false := by
  intro c hc
  have hother := hstops c hc
  rw [Char.isAlphanum, Bool.or_eq_false_iff, Bool.or_eq_false_iff] at hother
  exact hother.1.2

theorem Stops.isAlpha {text : List Char} (hstops : Stops text) :
    ∀ c ∈ text.head?, c.isAlpha = false := by
  intro c hc
  have hother := hstops c hc
  rw [Char.isAlphanum, Bool.or_eq_false_iff, Bool.or_eq_false_iff] at hother
  exact hother.1.1

namespace Lexer

theorem readAll_of_isGap {c : Char} (hgap : isGap c = true) (text : List Char) :
    readAll (c :: text) = readAll text := by
  rw [readAll, if_pos hgap]

theorem readAll_of_readToken {c : Char} {text rest : List Char} {token : Token}
    (hgap : isGap c = false) (hread : readToken c text = some (token, rest)) :
    readAll (c :: text) = token :: readAll rest := by
  rw [readAll, if_neg (by simp [hgap])]
  split
  · next hnone => rw [hread] at hnone; cases hnone
  · next hsome =>
    rw [hread] at hsome
    cases hsome
    rfl

theorem readAll_sign {c : Char} {token : Token} (hgap : isGap c = false)
    (hsign : sign? c = some token) (text : List Char) : readAll (c :: text) = token :: readAll text :=
  readAll_of_readToken hgap (by simp [readToken, hsign])

theorem readAll_newLine (level : Nat) (text : List Char) :
    readAll (newLine level ++ text) = readAll text := by
  have hblanks : ∀ n, readAll (List.replicate n ' ' ++ text) = readAll text := by
    intro n
    induction n with
    | zero => rfl
    | succ n ih => rw [List.replicate_succ, List.cons_append, readAll_of_isGap rfl, ih]
  rw [newLine, List.cons_append, readAll_of_isGap rfl, hblanks]

/-! Texts in quotes. -/

/-- The piece that a character of a text is written as. -/
def pieceOf (c : Char) : Piece :=
  if c.toNat < 0x20 ∧ c ∉ ['\x08', '\x0C', '\n', '\r', '\t'] then .unit c.toNat else .char c

theorem hexUnit?_of_lt {n : Nat} (hn : n < 0x20) :
    hexUnit? '0' '0' (Nat.digitChar (n / 16)) (Nat.digitChar (n % 16)) = some n := by
  have hunits : ∀ n < 0x20,
      hexUnit? '0' '0' (Nat.digitChar (n / 16)) (Nat.digitChar (n % 16)) = some n := by
    decide
  exact hunits n hn

theorem readPieces_cons {c : Char} (hquote : c ≠ '"') (hbackslash : c ≠ '\\')
    (hcontrol : ¬c.toNat < 0x20) (text : List Char) :
    readPieces (c :: text) =
      (readPieces text).map fun (pieces, rest) => (.char c :: pieces, rest) := by
  rw [readPieces]
  · have hplain : (c == '\\' || decide (c.toNat < 0x20)) = false := by simp [hbackslash, hcontrol]
    rw [hplain]
    cases readPieces text <;> rfl
  all_goals simp_all

theorem readPieces_shortEscape {letter c : Char} (hletter : shortEscape? letter = some c)
    (text : List Char) :
    readPieces ('\\' :: letter :: text) =
      (readPieces text).map fun (pieces, rest) => (.char c :: pieces, rest) := by
  rw [readPieces]
  · rw [hletter]
    cases readPieces text <;> rfl
  · rintro _ _ _ _ _ rfl -
    cases hletter

/-- An escape is read as the piece that stands for its character. -/
theorem readPieces_escape (c : Char) (text : List Char) :
    readPieces (escape c ++ text) =
      (readPieces text).map fun (pieces, rest) => (pieceOf c :: pieces, rest) := by
  unfold escape
  split
  case h_8 hquote hbackslash _ _ _ _ _ =>
    split
    · next hcontrol =>
      have hpiece : pieceOf c = .unit c.toNat := if_pos ⟨hcontrol, by simp_all⟩
      simp only [List.cons_append, List.nil_append, readPieces, hexUnit?_of_lt hcontrol, hpiece]
      cases readPieces text <;> rfl
    · next hcontrol =>
      have hpiece : pieceOf c = .char c := if_neg fun hpiece => hcontrol hpiece.1
      rw [hpiece]
      exact readPieces_cons hquote hbackslash hcontrol text
  all_goals exact readPieces_shortEscape rfl text

theorem readPieces_flatMap_escape (chars rest : List Char) :
    readPieces (chars.flatMap escape ++ '"' :: rest) = some (chars.map pieceOf, rest) := by
  induction chars with
  | nil => rfl
  | cons c chars ih =>
    rw [List.flatMap_cons, List.append_assoc, readPieces_escape, ih]
    rfl

theorem join?_map_pieceOf (chars : List Char) : join? (chars.map pieceOf) = some chars := by
  induction chars with
  | nil => rfl
  | cons c chars ih =>
    rw [List.map_cons, pieceOf]
    split
    · next hcontrol =>
      have hrange : c.toNat < 0xD800 ∨ 0xE000 ≤ c.toNat := by omega
      unfold join?
      simp only [if_pos hrange, ih, Option.map_some, Char.ofNat_toNat]
    · rw [join?, ih]
      rfl

theorem readAll_quoted (text rest : List Char) :
    readAll (quoted text ++ rest) = .text (String.ofList text) :: readAll rest := by
  rw [quoted, List.cons_append, List.cons_append, List.append_assoc]
  apply readAll_of_readToken rfl
  have hpieces := readPieces_flatMap_escape text rest
  simp only [readToken, sign?, readText, if_true]
  rw [show ['"'] ++ rest = '"' :: rest from rfl, hpieces]
  simp [join?_map_pieceOf]

/-! Numbers and words. -/

theorem splitInteger?_natDigits (n : Nat) {rest : List Char} (hstops : Stops rest) :
    splitInteger? (Text.natDigits n ++ rest) = some (Text.natDigits n, rest) := by
  by_cases hn : n = 0
  · subst hn
    rfl
  · have hfront := Text.head?_natDigits_ne (Nat.pos_of_ne_zero hn)
    have htake := Text.takeWhile_natDigits_append n hstops.isDigit
    have hdrop := Text.dropWhile_natDigits_append n hstops.isDigit
    cases hdigits : Text.natDigits n with
    | nil => exact absurd hdigits (Text.natDigits_ne_nil n)
    | cons c digits =>
      rw [hdigits] at hfront htake hdrop
      rw [List.cons_append] at htake hdrop ⊢
      rw [splitInteger?]
      · rw [splitDigits?, htake, hdrop]
      · rintro rest' heq
        exact hfront (by rw [(List.cons.inj heq).1]; rfl)

theorem readNumber_natDigits {negative : Bool} {n : Nat} (hsign : ¬(negative = true ∧ n = 0))
    {rest : List Char} (hstops : Stops rest) :
    readNumber negative (Text.natDigits n ++ rest) =
      some (.integer (Text.signed negative n), rest) := by
  have hinteger : ¬(rest.head? = some '.' ∨ rest.head? = some 'e' ∨ rest.head? = some 'E') := by
    rintro (hhead | hhead | hhead) <;> cases hstops _ hhead
  unfold readNumber
  rw [splitInteger?_natDigits n hstops]
  simp only [if_neg hinteger, Text.digitsValue_natDigits, if_neg hsign]

theorem readAll_of_isDigit {c : Char} (hdigit : c.isDigit = true) {text rest : List Char}
    {token : Token} (hread : readNumber false (c :: text) = some (token, rest)) :
    readAll (c :: text) = token :: readAll rest := by
  have hother : ∀ d : Char, d.isDigit = false → c ≠ d := by
    intro d hd heq
    rw [← heq, hdigit] at hd
    cases hd
  have hgap : isGap c = false := by
    simp only [isGap, Bool.or_eq_false_iff, beq_eq_false_iff_ne]
    exact ⟨⟨⟨hother ' ' rfl, hother '\t' rfl⟩, hother '\n' rfl⟩, hother '\r' rfl⟩
  have hsign : sign? c = none := by
    unfold sign?
    split <;> first | rfl | cases hdigit
  apply readAll_of_readToken hgap
  simp only [readToken, hsign, hother '"' rfl, hother '-' rfl, hdigit, if_true, if_false, hread]

theorem readAll_intDigits (n : Int) {rest : List Char} (hstops : Stops rest) :
    readAll (Text.intDigits n ++ rest) = .integer n :: readAll rest := by
  unfold Text.intDigits
  split
  · next hnegative =>
    rw [List.cons_append]
    apply readAll_of_readToken rfl
    have hsign : ¬(true = true ∧ n.natAbs = 0) := by omega
    have hread := readNumber_natDigits hsign hstops
    have hvalue : Text.signed true n.natAbs = n := by
      rw [Text.signed, if_pos rfl]
      omega
    rw [hvalue] at hread
    exact hread
  · next hpositive =>
    have hsign : ¬(false = true ∧ n.natAbs = 0) := by simp
    have hread := readNumber_natDigits hsign hstops
    have hvalue : Text.signed false n.natAbs = n := by
      rw [Text.signed, if_neg (by simp)]
      omega
    rw [hvalue] at hread
    cases hdigits : Text.natDigits n.natAbs with
    | nil => exact absurd hdigits (Text.natDigits_ne_nil _)
    | cons c digits =>
      have hdigit : c ∈ Text.natDigits n.natAbs := hdigits ▸ List.mem_cons_self
      rw [hdigits, List.cons_append] at hread
      rw [List.cons_append]
      exact readAll_of_isDigit (Text.isDigit_of_mem_natDigits hdigit) hread

theorem readAll_word {c : Char} {letters : List Char} {token : Token}
    (hfirst : isGap c = false ∧ sign? c = none ∧ c ≠ '"' ∧ c ≠ '-' ∧ c.isDigit = false)
    (halpha : (c :: letters).all Char.isAlpha = true) (hword : word? (c :: letters) = some token)
    {rest : List Char} (hstops : Stops rest) :
    readAll (c :: letters ++ rest) = token :: readAll rest := by
  obtain ⟨hgap, hsign, hquote, hminus, hdigit⟩ := hfirst
  have hletters := List.all_eq_true.1 halpha
  have htake : (c :: letters ++ rest).takeWhile Char.isAlpha = c :: letters := by
    rw [List.takeWhile_append_of_pos hletters]
    cases rest with
    | nil => simp
    | cons d rest => simp [hstops.isAlpha d rfl]
  have hdrop : (letters ++ rest).dropWhile Char.isAlpha = rest := by
    rw [List.dropWhile_append_of_pos fun d hd => hletters d (List.mem_cons_of_mem _ hd)]
    cases rest with
    | nil => simp
    | cons d rest => simp [hstops.isAlpha d rfl]
  rw [List.cons_append] at htake ⊢
  apply readAll_of_readToken hgap
  simp only [readToken, hsign, hquote, hminus, hdigit, if_false, Bool.false_eq_true, htake, hword,
    hdrop, Option.map_some]

/-- A token is read back from its characters, if nothing that follows prolongs it. -/
theorem readAll_chars {token : Token} (hwritten : token.isWritten = true) {rest : List Char}
    (hstops : token.isWord = true → Stops rest) :
    readAll (token.chars ++ rest) = token :: readAll rest := by
  cases token with
  | openObject => exact readAll_sign rfl rfl rest
  | closeObject => exact readAll_sign rfl rfl rest
  | openArray => exact readAll_sign rfl rfl rest
  | closeArray => exact readAll_sign rfl rfl rest
  | comma => exact readAll_sign rfl rfl rest
  | colon => exact readAll_sign rfl rfl rest
  | null => exact readAll_word (by decide) rfl rfl (hstops rfl)
  | boolean b =>
    cases b with
    | true => exact readAll_word (by decide) rfl rfl (hstops rfl)
    | false => exact readAll_word (by decide) rfl rfl (hstops rfl)
  | integer n => exact readAll_intDigits n (hstops rfl)
  | text s =>
    have hread := readAll_quoted s.toList rest
    rwa [String.ofList_toList] at hread
  | otherNumber => cases hwritten
  | brokenText => cases hwritten
  | fault => cases hwritten

end Lexer

/-! The indented layout. -/

theorem Readable.tail {token : Token} {tokens : List Token} (hreadable : Readable (token :: tokens)) :
    Readable tokens :=
  ⟨fun other hother => hreadable.written other (List.mem_cons_of_mem _ hother),
    hreadable.apart.tail⟩

theorem Readable.not_isWord {token next : Token} {rest : List Token}
    (hreadable : Readable (token :: next :: rest)) (hword : token.isWord = true) :
    ¬next.isWord = true := by
  have hapart := hreadable.apart
  rw [List.isChain_cons_cons] at hapart
  exact fun hnext => hapart.1 ⟨hword, hnext⟩

theorem readable_nil : Readable [] :=
  ⟨by simp, .nil⟩

theorem readable_singleton {token : Token} (hwritten : token.isWritten = true) : Readable [token] :=
  ⟨by simpa using hwritten, .singleton token⟩

/-- A token that is neither a word nor a number keeps what stands around it apart. -/
theorem Readable.join {front rest : List Token} {token : Token} (hfront : Readable front)
    (hwritten : token.isWritten = true) (hword : token.isWord = false) (hrest : Readable rest) :
    Readable (front ++ token :: rest) := by
  constructor
  · intro other hother
    rcases List.mem_append.1 hother with hbefore | hbehind
    · exact hfront.written other hbefore
    · rcases List.mem_cons.1 hbehind with rfl | hbehind
      · exact hwritten
      · exact hrest.written other hbehind
  · apply List.isChain_append.2
    refine ⟨hfront.apart, ?_, ?_⟩
    · exact List.isChain_cons.2 ⟨fun next _ => by simp [hword], hrest.apart⟩
    · intro last _ next hnext
      obtain rfl := Option.some.inj hnext
      simp [hword]

theorem Readable.cons {rest : List Token} {token : Token} (hwritten : token.isWritten = true)
    (hword : token.isWord = false) (hrest : Readable rest) : Readable (token :: rest) :=
  readable_nil.join hwritten hword hrest

theorem readable_separated {values : List (List Token)} (hvalues : ∀ value ∈ values, Readable value) :
    Readable (separated values) := by
  fun_induction separated values with
  | case1 => exact readable_nil
  | case2 value => exact hvalues value (by simp)
  | case3 value values _ ih =>
    refine (hvalues value (by simp)).join rfl rfl (ih ?_)
    exact fun other hother => hvalues other (List.mem_cons_of_mem _ hother)

theorem readable_array {values : List (List Token)} (hvalues : ∀ value ∈ values, Readable value) :
    Readable (array values) :=
  .cons rfl rfl ((readable_separated hvalues).join rfl rfl readable_nil)

theorem readable_object {members : List (String × List Token)}
    (hmembers : ∀ member ∈ members, Readable member.2) : Readable (object members) := by
  refine .cons rfl rfl (Readable.join (readable_separated ?_) rfl rfl readable_nil)
  intro value hvalue
  obtain ⟨member, hmember, rfl⟩ := List.mem_map.1 hvalue
  exact .cons rfl rfl (.cons rfl rfl (hmembers member hmember))

theorem stops_newLine (level : Nat) (text : List Char) : Stops (newLine level ++ text) :=
  stops_cons rfl _

/-- Signs and texts in quotes stop a word or a number in front of them. -/
theorem stops_indented (level : Nat) {token : Token} {tokens : List Token}
    (hwritten : token.isWritten = true) (hword : ¬token.isWord = true) :
    Stops (indented level (token :: tokens)) := by
  unfold indented
  split
  · exact stops_nil
  · exact stops_cons rfl _
  · exact stops_cons rfl _
  · exact stops_cons rfl _
  · exact stops_cons rfl _
  · exact stops_newLine _ _
  · exact stops_newLine _ _
  · exact stops_cons rfl _
  · exact stops_cons rfl _
  · next heq =>
    obtain ⟨rfl, rfl⟩ := List.cons.inj heq
    cases token with
    | text s => exact stops_cons rfl _
    | _ => simp_all [Token.isWord, Token.isWritten]

/-- What is printed with indentation is read as the same tokens. -/
theorem readAll_indented {level : Nat} {tokens : List Token} (hreadable : Readable tokens) :
    Lexer.readAll (indented level tokens) = tokens := by
  fun_induction indented level tokens with
  | case1 => rw [Lexer.readAll]
  | case2 level rest ih =>
    rw [Lexer.readAll_sign rfl rfl, Lexer.readAll_sign rfl rfl, ih hreadable.tail.tail]
  | case3 level rest ih =>
    rw [Lexer.readAll_sign rfl rfl, Lexer.readAll_sign rfl rfl, ih hreadable.tail.tail]
  | case4 level rest _ ih =>
    rw [List.cons_append, Lexer.readAll_sign rfl rfl, Lexer.readAll_newLine, ih hreadable.tail]
  | case5 level rest _ ih =>
    rw [List.cons_append, Lexer.readAll_sign rfl rfl, Lexer.readAll_newLine, ih hreadable.tail]
  | case6 level rest ih =>
    rw [Lexer.readAll_newLine, Lexer.readAll_sign rfl rfl, ih hreadable.tail]
  | case7 level rest ih =>
    rw [Lexer.readAll_newLine, Lexer.readAll_sign rfl rfl, ih hreadable.tail]
  | case8 level rest ih =>
    rw [List.cons_append, Lexer.readAll_sign rfl rfl, Lexer.readAll_newLine, ih hreadable.tail]
  | case9 level rest ih =>
    rw [Lexer.readAll_sign rfl rfl, Lexer.readAll_of_isGap rfl, ih hreadable.tail]
  | case10 level token rest _ _ _ _ _ _ _ _ ih =>
    rw [Lexer.readAll_chars (hreadable.written token List.mem_cons_self), ih hreadable.tail]
    intro hword
    cases rest with
    | nil => exact stops_nil
    | cons next rest =>
      exact stops_indented level (hreadable.written next (by simp)) (hreadable.not_isWord hword)

/-! The layout in one line. -/

theorem compact_cons (token : Token) (tokens : List Token) :
    compact (token :: tokens) = token.chars ++ compact tokens :=
  List.flatMap_cons

theorem stops_compact {token : Token} {tokens : List Token} (hwritten : token.isWritten = true)
    (hword : ¬token.isWord = true) : Stops (compact (token :: tokens)) := by
  rw [compact_cons]
  cases token with
  | null | boolean | integer => exact absurd rfl hword
  | otherNumber | brokenText | fault => cases hwritten
  | openObject | closeObject | openArray | closeArray | comma | colon | text => exact stops_cons rfl _

/-- What is printed in one line is read as the same tokens. -/
theorem readAll_compact {tokens : List Token} (hreadable : Readable tokens) :
    Lexer.readAll (compact tokens) = tokens := by
  induction tokens with
  | nil => exact Lexer.readAll.eq_1
  | cons token tokens ih =>
    have hstops : token.isWord = true → Stops (compact tokens) := by
      intro hword
      cases tokens with
      | nil => exact stops_nil
      | cons next tokens =>
        exact stops_compact (hreadable.written next (by simp)) (hreadable.not_isWord hword)
    rw [compact_cons, Lexer.readAll_chars (hreadable.written token List.mem_cons_self) hstops,
      ih hreadable.tail]

end TableEngine.Json
