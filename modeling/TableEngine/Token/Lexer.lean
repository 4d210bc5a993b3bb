import TableEngine.Token

/-!
Reading tokens off the front of a text. Every reader takes the text that is still to be read and
gives back what it leaves of it, so that no positions have to be kept: where a text cannot be read,
the fault holds the rest from the place it points at, and that place is found by counting.

Reading ends because every token takes up at least one character (`length_lt_of_next`).
-/

namespace TableEngine

/-- Why a text cannot be read as tokens. -/
inductive LexReason where
  | unexpected (c : Char)
  | unterminated
  | outOfRange
  deriving DecidableEq

/-- Why and where, counted in characters from zero, a text cannot be read as tokens. -/
structure LexFault where
  reason : LexReason
  position : Nat
  deriving DecidableEq

namespace LexFault

/-- What an error shows of the place of a fault. -/
def near (fault : LexFault) : String :=
  let position := " at position " ++ String.ofList (Text.natDigits fault.position)
  match fault.reason with
  | .unexpected c => "'" ++ String.singleton c ++ "'" ++ position
  | .unterminated => "unterminated string" ++ position
  | .outOfRange => "invalid number" ++ position

end LexFault

namespace Lexer

/-- A reader gives a token and the text behind it, or a reason and the text from the faulty place. -/
abbrev Reading : Type :=
  Except (LexReason × List Char) (Token × List Char)

/-- What follows the first `*/`, or the empty text if the comment is not closed. -/
def afterBlockComment : List Char → List Char
  | [] => []
  | '*' :: '/' :: rest => rest
  | _ :: rest => afterBlockComment rest

theorem length_afterBlockComment_le (text : List Char) :
    (afterBlockComment text).length ≤ text.length := by
  fun_induction afterBlockComment text with
  | case1 => exact Nat.le_refl _
  | case2 rest => simp only [List.length_cons]; omega
  | case3 c rest hopen ih => simp only [List.length_cons]; omega

theorem length_dropWhile_le (p : Char → Bool) (text : List Char) :
    (text.dropWhile p).length ≤ text.length :=
  (List.dropWhile_suffix p).length_le

/-- Skips blanks and comments. A comment runs from `--` to the end of the line, or from `/*` to the
    next `*/`; one that is not closed runs to the end of the text. -/
def skipGaps : List Char → List Char
  | [] => []
  | c :: rest =>
    if Text.isBlank c then skipGaps rest
    else match c, rest with
      | '-', '-' :: comment => skipGaps (comment.dropWhile (· ≠ '\n'))
      | '/', '*' :: comment => skipGaps (afterBlockComment comment)
      | _, _ => c :: rest
termination_by text => text.length
decreasing_by
  · simp
  · have := length_dropWhile_le (· ≠ '\n') comment
    simp only [List.length_cons]
    omega
  · have := length_afterBlockComment_le comment
    simp only [List.length_cons]
    omega

/-- The sign at the front of a text, the longer one where two fit. -/
def sign? : List Char → Option (Token × List Char)
  | '(' :: rest => some (.openParen, rest)
  | ')' :: rest => some (.closeParen, rest)
  | ',' :: rest => some (.comma, rest)
  | ';' :: rest => some (.semicolon, rest)
  | '*' :: rest => some (.star, rest)
  | '=' :: rest => some (.eq, rest)
  | '<' :: '=' :: rest => some (.le, rest)
  | '<' :: '>' :: rest => some (.ne, rest)
  | '<' :: rest => some (.lt, rest)
  | '>' :: '=' :: rest => some (.ge, rest)
  | '>' :: rest => some (.gt, rest)
  | '!' :: '=' :: rest => some (.ne, rest)
  | _ => none

/-- Reads up to the closing quote. A quote written twice stands for one quote of the text. -/
def readQuoted (quote : Char) : List Char → Option (List Char × List Char)
  | [] => none
  | [c] => if c = quote then some ([], []) else none
  | c :: d :: rest =>
    if c = quote then
      if d = quote then (readQuoted quote rest).map fun (text, rest) => (quote :: text, rest)
      else some ([], d :: rest)
    else (readQuoted quote (d :: rest)).map fun (text, rest) => (c :: text, rest)

/-- Letters and the underscore, which may start a word. All of them are ASCII. -/
def isWordStart (c : Char) : Bool :=
  c.isAlpha || c == '_'

/-- Letters, digits and the underscore, which may follow in a word. -/
def isWordChar (c : Char) : Bool :=
  isWordStart c || c.isDigit

/-- Reads all word characters at the front of a text as one word. -/
def readWord (text : List Char) : Token × List Char :=
  (Token.ofWord (text.takeWhile isWordChar), text.dropWhile isWordChar)

/-- The integer that the digits at the front of `text` stand for, when `rest` follows on them. -/
def readInteger (negative : Bool) (text rest : List Char) : Reading :=
  match Text.toInt64? (Text.signed negative (Text.digitsValue (text.takeWhile Char.isDigit))) with
  | some n => .ok (.integer n, rest)
  | none => .error (.outOfRange, text)

/-- Reads the digits at the front of a text. Digits that run into a letter belong to a word such as
    `2024_sales`, before which no sign may stand. -/
def readNumber (negative : Bool) (text : List Char) : Reading :=
  match text.dropWhile Char.isDigit with
  | [] => readInteger negative text []
  | c :: rest =>
    if !isWordStart c then readInteger negative text (c :: rest)
    else if negative then .error (.unexpected c, c :: rest)
    else .ok (readWord text)

/-- Reads the token at the front of a text that starts with neither a blank nor a comment. -/
def readToken (text : List Char) : Reading :=
  match sign? text with
  | some (token, rest) => .ok (token, rest)
  | none =>
    match text with
    | [] => .ok (.endOfInput, [])
    | c :: rest =>
      if c = '\'' ∨ c = '"' then
        match readQuoted c rest with
        | some (body, rest) => .ok (.text (String.ofList body), rest)
        | none => .error (.unterminated, text)
      else if c.isDigit then readNumber false text
      else if c = '-' ∧ rest.head?.any Char.isDigit then readNumber true rest
      else if isWordStart c then .ok (readWord text)
      else .error (.unexpected c, text)

/-- Reads the next token, past blanks and comments. At the end of the text it is the end marker. -/
def next (text : List Char) : Reading :=
  readToken (skipGaps text)

theorem length_skipGaps_le (text : List Char) : (skipGaps text).length ≤ text.length := by
  fun_induction skipGaps text with
  | case1 => exact Nat.le_refl _
  | case2 c rest hblank ih => simp only [List.length_cons]; omega
  | case3 comment hblank ih =>
    have hline := length_dropWhile_le (· ≠ '\n') comment
    simp only [List.length_cons]
    omega
  | case4 comment hblank ih =>
    have hblock := length_afterBlockComment_le comment
    simp only [List.length_cons]
    omega
  | case5 => exact Nat.le_refl _

theorem length_lt_of_sign? {text rest : List Char} {token : Token}
    (hsign : sign? text = some (token, rest)) : rest.length < text.length := by
  unfold sign? at hsign
  split at hsign
  case h_13 => simp at hsign
  all_goals
    simp only [Option.some.injEq, Prod.mk.injEq] at hsign
    obtain ⟨-, rfl⟩ := hsign
    simp only [List.length_cons]
    omega

theorem length_lt_of_readQuoted {quote : Char} {text body rest : List Char}
    (hread : readQuoted quote text = some (body, rest)) : rest.length < text.length := by
  fun_induction readQuoted quote text generalizing body rest with
  | case1 => simp at hread
  | case2 => simp_all
  | case3 => simp_all
  | case4 rest' ih =>
    simp only [Option.map_eq_some_iff, Prod.exists, Prod.mk.injEq] at hread
    obtain ⟨_, _, hinner, -, rfl⟩ := hread
    have := ih hinner
    simp only [List.length_cons]
    omega
  | case5 => simp_all
  | case6 c d rest' hc ih =>
    simp only [Option.map_eq_some_iff, Prod.exists, Prod.mk.injEq] at hread
    obtain ⟨_, _, hinner, -, rfl⟩ := hread
    have := ih hinner
    simp only [List.length_cons] at this ⊢
    omega

theorem length_dropWhile_lt {p : Char → Bool} {c : Char} {rest : List Char} (hc : p c = true) :
    ((c :: rest).dropWhile p).length < (c :: rest).length := by
  rw [List.dropWhile_cons_of_pos hc, List.length_cons]
  exact Nat.lt_succ_of_le (length_dropWhile_le p rest)

theorem length_lt_of_readWord {c : Char} {text rest : List Char} {token : Token}
    (hc : isWordChar c = true) (hread : readWord (c :: text) = (token, rest)) :
    rest.length < (c :: text).length := by
  simp only [readWord, Prod.mk.injEq] at hread
  rw [← hread.2]
  exact length_dropWhile_lt hc

theorem rest_of_readInteger {negative : Bool} {text rest rest' : List Char} {token : Token}
    (hread : readInteger negative text rest = .ok (token, rest')) : rest' = rest := by
  unfold readInteger at hread
  split at hread
  · simp only [Except.ok.injEq, Prod.mk.injEq] at hread
    exact hread.2.symm
  · simp at hread

theorem length_lt_of_readNumber {negative : Bool} {c : Char} {text rest : List Char}
    {token : Token} (hc : c.isDigit = true)
    (hread : readNumber negative (c :: text) = .ok (token, rest)) :
    rest.length < (c :: text).length := by
  have hdrop : ((c :: text).dropWhile Char.isDigit).length < (c :: text).length :=
    length_dropWhile_lt hc
  have hword : isWordChar c = true := by simp [isWordChar, hc]
  unfold readNumber at hread
  split at hread
  · next hrest =>
    rw [rest_of_readInteger hread]
    simp
  · next hrest =>
    rw [hrest] at hdrop
    split at hread
    · rw [rest_of_readInteger hread]
      exact hdrop
    · split at hread
      · simp at hread
      · simp only [Except.ok.injEq] at hread
        exact length_lt_of_readWord hword hread

theorem length_lt_of_readToken {text rest : List Char} {token : Token}
    (hread : readToken text = .ok (token, rest)) (htoken : token ≠ .endOfInput) :
    rest.length < text.length := by
  unfold readToken at hread
  split at hread
  · next hsign =>
    simp only [Except.ok.injEq, Prod.mk.injEq] at hread
    obtain ⟨rfl, rfl⟩ := hread
    exact length_lt_of_sign? hsign
  · split at hread
    · simp only [Except.ok.injEq, Prod.mk.injEq] at hread
      exact absurd hread.1.symm htoken
    · next c text _ =>
      split at hread
      · split at hread
        · next hquoted =>
          simp only [Except.ok.injEq, Prod.mk.injEq] at hread
          obtain ⟨-, rfl⟩ := hread
          have := length_lt_of_readQuoted hquoted
          simp only [List.length_cons]
          omega
        · simp at hread
      · split at hread
        · next hdigit => exact length_lt_of_readNumber hdigit hread
        · split at hread
          · next hminus =>
            cases text with
            | nil => simp at hminus
            | cons d text =>
              have := length_lt_of_readNumber (by simpa using hminus.2) hread
              simp only [List.length_cons] at this ⊢
              omega
          · split at hread
            · next hstart =>
              simp only [Except.ok.injEq] at hread
              exact length_lt_of_readWord (by simp [isWordChar, hstart]) hread
            · simp at hread

/-- Every token but the end marker takes up a character of the text. -/
theorem length_lt_of_next {text rest : List Char} {token : Token}
    (hnext : next text = .ok (token, rest)) (htoken : token ≠ .endOfInput) :
    rest.length < text.length :=
  Nat.lt_of_lt_of_le (length_lt_of_readToken hnext htoken) (length_skipGaps_le text)

/-- Reads tokens up to the end of the text, or up to the first place that cannot be read. -/
def readAll (text : List Char) : Except (LexReason × List Char) (List Token) :=
  match _ : next text with
  | .error fault => .error fault
  | .ok (token, rest) =>
    if _ : token = .endOfInput then .ok [token]
    else (readAll rest).map (token :: ·)
termination_by text.length
decreasing_by exact length_lt_of_next ‹_› ‹_›

end Lexer

/-- All tokens of a text, closed by the end marker. -/
def Token.ofText (text : List Char) : Except LexFault (List Token) :=
  match Lexer.readAll text with
  | .ok tokens => .ok tokens
  | .error (reason, rest) => .error ⟨reason, text.length - rest.length⟩

end TableEngine
