import TableEngine.Json.Token

/-!
Reading JSON texts as tokens. A text that is not JSON gives the tokens up to the first place that
cannot be read and then `Token.fault`, so that a reader of tokens notices errors in the order in which
they stand in the text.
-/

namespace TableEngine.Json.Lexer

/-- The blanks between tokens. -/
def isGap (c : Char) : Bool :=
  c == ' ' || c == '\t' || c == '\n' || c == '\r'

/-- The value of a hexadecimal digit. -/
def hexValue? (c : Char) : Option Nat :=
  if c.isDigit then some (c.toNat - '0'.toNat)
  else if 'a' ≤ c ∧ c ≤ 'f' then some (c.toNat - 'a'.toNat + 10)
  else if 'A' ≤ c ∧ c ≤ 'F' then some (c.toNat - 'A'.toNat + 10)
  else none

/-- The number that four hexadecimal digits stand for. -/
def hexUnit? (a b c d : Char) : Option Nat := do
  let a ← hexValue? a
  let b ← hexValue? b
  let c ← hexValue? c
  let d ← hexValue? d
  pure (((a * 16 + b) * 16 + c) * 16 + d)

/-- The character that a backslash in front of another character stands for. -/
def shortEscape? : Char → Option Char
  | '"' => some '"'
  | '\\' => some '\\'
  | '/' => some '/'
  | 'b' => some '\x08'
  | 'f' => some '\x0C'
  | 'n' => some '\n'
  | 'r' => some '\r'
  | 't' => some '\t'
  | _ => none

/-- One piece of a text in quotes: a character, or a 16-bit unit given by its number. -/
inductive Piece where
  | char (c : Char)
  | unit (code : Nat)
  deriving DecidableEq

/-- Reads the pieces up to the closing quote. -/
def readPieces : List Char → Option (List Piece × List Char)
  | [] => none
  | '"' :: rest => some ([], rest)
  | '\\' :: 'u' :: a :: b :: c :: d :: rest => do
    let code ← hexUnit? a b c d
    let (pieces, rest) ← readPieces rest
    pure (.unit code :: pieces, rest)
  | '\\' :: c :: rest => do
    let char ← shortEscape? c
    let (pieces, rest) ← readPieces rest
    pure (.char char :: pieces, rest)
  | c :: rest => do
    if c == '\\' || c.toNat < 0x20 then none
    else
      let (pieces, rest) ← readPieces rest
      pure (.char c :: pieces, rest)

/-- Joins pieces to characters. Units of the upper range stand for a character only as a pair of a
    high and a low one. -/
def join? : List Piece → Option (List Char)
  | [] => some []
  | .char c :: pieces => (join? pieces).map (c :: ·)
  | .unit high :: pieces =>
    if high < 0xD800 ∨ 0xE000 ≤ high then (join? pieces).map (Char.ofNat high :: ·)
    else match pieces with
      | .unit low :: pieces =>
        if high < 0xDC00 ∧ 0xDC00 ≤ low ∧ low < 0xE000 then
          (join? pieces).map
            (Char.ofNat (0x10000 + (high - 0xD800) * 0x400 + (low - 0xDC00)) :: ·)
        else none
      | _ => none

/-- Reads a text behind its opening quote. -/
def readText (text : List Char) : Option (Token × List Char) :=
  match readPieces text with
  | none => none
  | some (pieces, rest) =>
    match join? pieces with
    | some chars => some (.text (String.ofList chars), rest)
    | none => some (.brokenText, rest)

/-- Splits off the digits at the front of a text, of which there has to be one. -/
def splitDigits? (text : List Char) : Option (List Char × List Char) :=
  match text.takeWhile Char.isDigit with
  | [] => none
  | digits => some (digits, text.dropWhile Char.isDigit)

/-- Splits off the integer part of a number: a zero, or digits that do not start with one. -/
def splitInteger? : List Char → Option (List Char × List Char)
  | '0' :: rest => some (['0'], rest)
  | text => splitDigits? text

/-- Skips the sign of an exponent, which may be missing. -/
def skipSign : List Char → List Char
  | '+' :: rest => rest
  | '-' :: rest => rest
  | text => text

/-- Skips an exponent, which may be missing. -/
def skipExponent? (text : List Char) : Option (List Char) :=
  match text with
  | c :: rest =>
    if c = 'e' ∨ c = 'E' then (splitDigits? (skipSign rest)).map Prod.snd else some text
  | [] => some []

/-- Skips a fraction and an exponent, both of which may be missing. -/
def skipFraction? (text : List Char) : Option (List Char) :=
  match text with
  | '.' :: rest => (splitDigits? rest).bind fun (_, rest) => skipExponent? rest
  | text => skipExponent? text

/-- Reads a number behind its sign. It is an integer if neither a fraction nor an exponent follows. -/
def readNumber (negative : Bool) (text : List Char) : Option (Token × List Char) :=
  match splitInteger? text with
  | none => none
  | some (digits, rest) =>
    if rest.head? = some '.' ∨ rest.head? = some 'e' ∨ rest.head? = some 'E' then
      (skipFraction? rest).map fun rest => (.otherNumber, rest)
    else
      let magnitude := Text.digitsValue digits
      if negative ∧ magnitude = 0 then some (.otherNumber, rest)
      else some (.integer (Text.signed negative magnitude), rest)

/-- The token that a word stands for. -/
def word? (word : List Char) : Option Token :=
  if word = ['n', 'u', 'l', 'l'] then some .null
  else if word = ['t', 'r', 'u', 'e'] then some (.boolean true)
  else if word = ['f', 'a', 'l', 's', 'e'] then some (.boolean false)
  else none

/-- The token that a single sign stands for. -/
def sign? : Char → Option Token
  | '{' => some .openObject
  | '}' => some .closeObject
  | '[' => some .openArray
  | ']' => some .closeArray
  | ',' => some .comma
  | ':' => some .colon
  | _ => none

/-- Reads the token at the front of a text that starts with the character `c`. -/
def readToken (c : Char) (rest : List Char) : Option (Token × List Char) :=
  match sign? c with
  | some token => some (token, rest)
  | none =>
    if c = '"' then readText rest
    else if c = '-' then readNumber true rest
    else if c.isDigit then readNumber false (c :: rest)
    else (word? ((c :: rest).takeWhile Char.isAlpha)).map fun token =>
      (token, rest.dropWhile Char.isAlpha)

theorem length_le_of_readPieces {text rest : List Char} {pieces : List Piece}
    (hread : readPieces text = some (pieces, rest)) : rest.length ≤ text.length := by
  fun_induction readPieces text generalizing pieces rest with
  | case1 => simp at hread
  | case2 => simp_all
  | case3 a b c d text ih =>
    simp only [Option.bind_eq_bind, Option.bind_eq_some_iff, Option.pure_def, Option.some.injEq,
      Prod.mk.injEq, Prod.exists] at hread
    obtain ⟨_, -, _, _, hinner, -, rfl⟩ := hread
    have := ih hinner
    simp only [List.length_cons]
    omega
  | case4 c text hunit ih =>
    simp only [Option.bind_eq_bind, Option.bind_eq_some_iff, Option.pure_def, Option.some.injEq,
      Prod.mk.injEq, Prod.exists] at hread
    obtain ⟨_, -, _, _, hinner, -, rfl⟩ := hread
    have := ih hinner
    simp only [List.length_cons]
    omega
  | case5 => simp at hread
  | case6 c text _ _ _ _ ih =>
    simp only [Option.bind_eq_bind, Option.bind_eq_some_iff, Option.pure_def, Option.some.injEq,
      Prod.mk.injEq, Prod.exists] at hread
    obtain ⟨_, _, hinner, -, rfl⟩ := hread
    have := ih hinner
    simp only [List.length_cons]
    omega

theorem length_le_of_readText {text rest : List Char} {token : Token}
    (hread : readText text = some (token, rest)) : rest.length ≤ text.length := by
  unfold readText at hread
  split at hread
  · simp at hread
  · next hpieces =>
    have hlength := length_le_of_readPieces hpieces
    split at hread <;> simp_all

theorem length_lt_of_splitDigits? {text digits rest : List Char}
    (hsplit : splitDigits? text = some (digits, rest)) : rest.length < text.length := by
  unfold splitDigits? at hsplit
  split at hsplit
  · simp at hsplit
  · next hdigits =>
    simp only [Option.some.injEq, Prod.mk.injEq] at hsplit
    have hparts := congrArg List.length (List.takeWhile_append_dropWhile (p := Char.isDigit) (l := text))
    have hpositive := List.length_pos_iff.2 hdigits
    rw [List.length_append, hsplit.2] at hparts
    omega

theorem length_lt_of_splitInteger? {text digits rest : List Char}
    (hsplit : splitInteger? text = some (digits, rest)) : rest.length < text.length := by
  unfold splitInteger? at hsplit
  split at hsplit
  · simp only [Option.some.injEq, Prod.mk.injEq] at hsplit
    simp [hsplit.2]
  · exact length_lt_of_splitDigits? hsplit

theorem length_skipSign_le (text : List Char) : (skipSign text).length ≤ text.length := by
  unfold skipSign
  split <;> simp

theorem length_le_of_skipExponent? {text rest : List Char}
    (hskip : skipExponent? text = some rest) : rest.length ≤ text.length := by
  unfold skipExponent? at hskip
  split at hskip
  · next c text =>
    split at hskip
    · simp only [Option.map_eq_some_iff, Prod.exists] at hskip
      obtain ⟨_, _, hsplit, rfl⟩ := hskip
      have hdigits := length_lt_of_splitDigits? hsplit
      have hsign := length_skipSign_le text
      simp only [List.length_cons]
      omega
    · simp_all
  · simp_all

theorem length_le_of_skipFraction? {text rest : List Char}
    (hskip : skipFraction? text = some rest) : rest.length ≤ text.length := by
  unfold skipFraction? at hskip
  split at hskip
  · simp only [Option.bind_eq_some_iff, Prod.exists] at hskip
    obtain ⟨_, _, hsplit, hexponent⟩ := hskip
    have hdigits := length_lt_of_splitDigits? hsplit
    have hrest := length_le_of_skipExponent? hexponent
    simp only [List.length_cons]
    omega
  · exact length_le_of_skipExponent? hskip

theorem length_lt_of_readNumber {negative : Bool} {text rest : List Char} {token : Token}
    (hread : readNumber negative text = some (token, rest)) : rest.length < text.length := by
  unfold readNumber at hread
  split at hread
  · simp at hread
  · next hsplit =>
    have hinteger := length_lt_of_splitInteger? hsplit
    split at hread
    · simp only [Option.map_eq_some_iff, Prod.mk.injEq] at hread
      obtain ⟨_, hskip, -, rfl⟩ := hread
      exact Nat.lt_of_le_of_lt (length_le_of_skipFraction? hskip) hinteger
    · dsimp only at hread
      split at hread <;> simp_all

/-- Behind a token, less than before it remains to be read. -/
theorem length_le_of_readToken {c : Char} {text rest : List Char} {token : Token}
    (hread : readToken c text = some (token, rest)) : rest.length ≤ text.length := by
  unfold readToken at hread
  split at hread
  · simp_all
  · split at hread
    · exact length_le_of_readText hread
    · split at hread
      · exact Nat.le_of_lt (length_lt_of_readNumber hread)
      · split at hread
        · exact Nat.le_of_lt_succ (length_lt_of_readNumber hread)
        · simp only [Option.map_eq_some_iff, Prod.mk.injEq] at hread
          obtain ⟨_, -, -, rfl⟩ := hread
          exact (List.dropWhile_suffix Char.isAlpha).length_le

/-- Reads all tokens of a text. -/
def readAll : List Char → List Token
  | [] => []
  | c :: text =>
    if isGap c then readAll text
    else match _ : readToken c text with
      | none => [.fault]
      | some (token, rest) => token :: readAll rest
termination_by text => text.length
decreasing_by
  · simp
  · have := length_le_of_readToken ‹_›
    simp only [List.length_cons]
    omega

end TableEngine.Json.Lexer
