import TableEngine.Proofs.Lexemes

/-!
Tokens read by places (`Scanner.tokens_found_within_text`). A scanner keeps the whole text and the place at
which it stands. It asks for characters by their places, goes back to the front of a number that turns
out to be a word, and stands still or far behind where it meets a fault. Asking for a character that the
text does not have gives nothing (`none`). It is proved that this does not occur, that the scanner comes
to an end because each token takes it on, and that the tokens found are those that are read off the front
of the text (`Lexer.next`, `Token.ofText`).
-/

namespace TableEngine.Scanner

open Lexer

/-! Places in a text. -/

/-- What is left of a text from a place on. -/
def Left (text : List Char) (position : Nat) (rest : List Char) : Prop :=
  ∃ front, text = front ++ rest ∧ position = front.length

variable {text rest : List Char} {position : Nat}

theorem left_start (text : List Char) : Left text 0 text :=
  ⟨[], rfl, rfl⟩

theorem left_drop (hposition : position ≤ text.length) : Left text position (text.drop position) :=
  ⟨text.take position, (List.take_append_drop position text).symm,
    (List.length_take_of_le hposition).symm⟩

theorem Left.drop_eq (hleft : Left text position rest) : text.drop position = rest := by
  obtain ⟨front, rfl, rfl⟩ := hleft
  exact List.drop_left

theorem Left.add_length (hleft : Left text position rest) :
    position + rest.length = text.length := by
  obtain ⟨front, rfl, rfl⟩ := hleft
  exact List.length_append.symm

theorem Left.lt_iff (hleft : Left text position rest) : position < text.length ↔ rest ≠ [] := by
  have hlength := hleft.add_length
  rw [← List.length_pos_iff]
  omega

/-- The characters that are left stand at the places that follow. -/
theorem Left.getElem? (hleft : Left text position rest) (i : Nat) :
    text[position + i]? = rest[i]? := by
  obtain ⟨front, rfl, rfl⟩ := hleft
  rw [List.getElem?_append_right (Nat.le_add_right _ _), Nat.add_sub_cancel_left]

theorem Left.append {front : List Char} (hleft : Left text position (front ++ rest)) :
    Left text (position + front.length) rest := by
  obtain ⟨before, rfl, rfl⟩ := hleft
  exact ⟨before ++ front, (List.append_assoc _ _ _).symm, List.length_append.symm⟩

theorem Left.tail {c : Char} (hleft : Left text position (c :: rest)) :
    Left text (position + 1) rest := by
  have hfront : Left text position ([c] ++ rest) := hleft
  exact hfront.append

/-- At a place that is not the end there is a character to ask for. -/
theorem Left.cons {c : Char} (hleft : Left text position (c :: rest)) :
    position < text.length ∧ text[position]? = some c ∧ text[position + 1]? = rest.head? := by
  refine ⟨hleft.lt_iff.2 (List.cons_ne_nil _ _), hleft.getElem? 0, ?_⟩
  rw [hleft.tail.getElem? 0, List.head?_eq_getElem?]

theorem Left.nil (hleft : Left text position []) : ¬position < text.length := by
  have hlength := hleft.add_length
  rw [List.length_nil] at hlength
  omega

/-- Where less is left, the scanner stands further on. -/
theorem Left.lt_of_length_lt {after : Nat} {behind : List Char} (hleft : Left text position rest)
    (hafter : Left text after behind) (hshorter : behind.length < rest.length) :
    position < after ∧ after ≤ text.length := by
  have hbefore := hleft.add_length
  have hbehind := hafter.add_length
  omega

/-! Characters that are taken or skipped. -/

section

variable (text)

/-- Takes characters from a place on, as long as they meet a condition. -/
def takeFrom (p : Char → Bool) (taken : List Char) (position : Nat) : Option (List Char × Nat) := do
  if position < text.length then
    let c ← text[position]?
    if p c then takeFrom p (taken ++ [c]) (position + 1) else some (taken, position)
  else some (taken, position)
termination_by text.length - position

/-- The place of the first character from a place on that does not meet a condition. -/
def skipFrom (p : Char → Bool) (position : Nat) : Option Nat := do
  let (_, after) ← takeFrom text p [] position
  some after

/-- The place behind the first `*/` from a place on. -/
def closeComment (position : Nat) : Option Nat := do
  if position < text.length then
    let c ← text[position]?
    if c = '*' ∧ text[position + 1]? = some '/' then some (position + 2)
    else closeComment (position + 1)
  else some position
termination_by text.length - position

end

theorem takeFrom_left (hleft : Left text position rest) (p : Char → Bool) (taken : List Char) :
    ∃ after, takeFrom text p taken position = some (taken ++ rest.takeWhile p, after) ∧
      Left text after (rest.dropWhile p) := by
  induction rest generalizing position taken with
  | nil =>
    rw [takeFrom, if_neg hleft.nil]
    exact ⟨position, by simp, hleft⟩
  | cons c rest ih =>
    obtain ⟨hlt, hchar, -⟩ := hleft.cons
    rw [takeFrom, if_pos hlt, hchar]
    by_cases hc : p c = true
    · obtain ⟨after, hrun, hrest⟩ := ih hleft.tail (taken ++ [c])
      refine ⟨after, ?_, by rwa [List.dropWhile_cons_of_pos hc]⟩
      rw [List.takeWhile_cons_of_pos hc, List.append_cons]
      simpa [hc] using hrun
    · refine ⟨position, ?_, by rwa [List.dropWhile_cons_of_neg hc]⟩
      simp [hc]

theorem skipFrom_left (hleft : Left text position rest) (p : Char → Bool) :
    ∃ after, skipFrom text p position = some after ∧ Left text after (rest.dropWhile p) := by
  obtain ⟨after, hrun, hrest⟩ := takeFrom_left hleft p []
  exact ⟨after, by rw [skipFrom, hrun]; rfl, hrest⟩

theorem closeComment_left (hleft : Left text position rest) :
    ∃ after, closeComment text position = some after ∧ Left text after (afterBlockComment rest) := by
  fun_induction afterBlockComment rest generalizing position with
  | case1 =>
    rw [closeComment, if_neg hleft.nil]
    exact ⟨position, rfl, hleft⟩
  | case2 rest =>
    obtain ⟨hlt, hchar, hnext⟩ := hleft.cons
    refine ⟨position + 2, ?_, hleft.tail.tail⟩
    rw [closeComment, if_pos hlt, hchar, hnext]
    rfl
  | case3 c rest hopen ih =>
    obtain ⟨hlt, hchar, hnext⟩ := hleft.cons
    have hclosed : ¬(c = '*' ∧ rest.head? = some '/') := by
      rintro ⟨rfl, hhead⟩
      obtain ⟨behind, rfl⟩ := List.head?_eq_some_iff.1 hhead
      exact hopen behind rfl rfl
    rw [closeComment, if_pos hlt, hchar, hnext]
    simpa [hclosed] using ih hleft.tail

/-! Comments. -/

section

variable (text)

/-- The place behind the comment that starts at a place and the blanks behind it, if there is one. -/
def commentAt (position : Nat) : Option (Option Nat) := do
  if position < text.length then
    let c ← text[position]?
    if c = '-' ∧ text[position + 1]? = some '-' then
      let lineEnd ← skipFrom text (· ≠ '\n') position
      return some (← skipFrom text Text.isBlank lineEnd)
    else if c = '/' ∧ text[position + 1]? = some '*' then
      let commentEnd ← closeComment text (position + 2)
      return some (← skipFrom text Text.isBlank commentEnd)
    else return none
  else return none

end

theorem commentAt_line {comment : List Char} (hleft : Left text position ('-' :: '-' :: comment)) :
    ∃ front, commentAt text position = some (some front) ∧
      Left text front ((comment.dropWhile (· ≠ '\n')).dropWhile Text.isBlank) := by
  obtain ⟨hlt, hchar, hnext⟩ := hleft.cons
  obtain ⟨lineEnd, hline, hbehind⟩ := skipFrom_left hleft (· ≠ '\n')
  obtain ⟨front, hblanks, hfront⟩ := skipFrom_left hbehind Text.isBlank
  refine ⟨front, ?_, hfront⟩
  rw [commentAt, if_pos hlt, hchar, hnext]
  simp only [List.head?_cons, and_self, if_true, Option.bind_eq_bind, Option.bind_some, hline, hblanks,
    Option.pure_def]

theorem commentAt_block {comment : List Char} (hleft : Left text position ('/' :: '*' :: comment)) :
    ∃ front, commentAt text position = some (some front) ∧
      Left text front ((afterBlockComment comment).dropWhile Text.isBlank) := by
  obtain ⟨hlt, hchar, hnext⟩ := hleft.cons
  obtain ⟨commentEnd, hclose, hbehind⟩ := closeComment_left hleft.tail.tail
  obtain ⟨front, hblanks, hfront⟩ := skipFrom_left hbehind Text.isBlank
  refine ⟨front, ?_, hfront⟩
  rw [commentAt, if_pos hlt, hchar, hnext]
  simp [hclose, hblanks]

theorem commentAt_outside (hposition : ¬position < text.length) :
    commentAt text position = some none := by
  rw [commentAt, if_neg hposition]
  rfl

theorem commentAt_of_not_opensComment (hleft : Left text position rest) (hrest : ¬OpensComment rest) :
    commentAt text position = some none := by
  cases rest with
  | nil => exact commentAt_outside hleft.nil
  | cons c rest =>
    obtain ⟨hlt, hchar, hnext⟩ := hleft.cons
    have hline : ¬(c = '-' ∧ rest.head? = some '-') := by
      rintro ⟨rfl, hhead⟩
      obtain ⟨behind, rfl⟩ := List.head?_eq_some_iff.1 hhead
      exact hrest (.inl (List.prefix_append _ _))
    have hblock : ¬(c = '/' ∧ rest.head? = some '*') := by
      rintro ⟨rfl, hhead⟩
      obtain ⟨behind, rfl⟩ := List.head?_eq_some_iff.1 hhead
      exact hrest (.inr (List.prefix_append _ _))
    rw [commentAt, if_pos hlt, hchar, hnext]
    simp [hline, hblock]

/-- A comment takes the scanner on, but not out of the text. -/
theorem lt_of_commentAt {front : Nat} (hcomment : commentAt text position = some (some front)) :
    position < front ∧ front ≤ text.length := by
  by_cases hposition : position < text.length
  case neg =>
    rw [commentAt_outside hposition] at hcomment
    cases hcomment
  have hleft := left_drop hposition.le
  by_cases hopens : OpensComment (text.drop position)
  case neg =>
    rw [commentAt_of_not_opensComment hleft hopens] at hcomment
    cases hcomment
  rcases hopens with ⟨comment, hdrop⟩ | ⟨comment, hdrop⟩
  · rw [← hdrop] at hleft
    obtain ⟨_, hrun, hfront⟩ := commentAt_line hleft
    rw [hcomment] at hrun
    cases hrun
    refine hleft.lt_of_length_lt hfront (Nat.lt_succ_of_le ((length_dropWhile_le _ _).trans ?_))
    exact (length_dropWhile_le _ _).trans (Nat.le_succ _)
  · rw [← hdrop] at hleft
    obtain ⟨_, hrun, hfront⟩ := commentAt_block hleft
    rw [hcomment] at hrun
    cases hrun
    refine hleft.lt_of_length_lt hfront (Nat.lt_succ_of_le ((length_dropWhile_le _ _).trans ?_))
    exact (length_afterBlockComment_le _).trans (Nat.le_succ _)

/-- The place behind the comments that start at a place, and the blanks behind each of them. -/
def skipComments (text : List Char) (position : Nat) : Option Nat :=
  match _ : commentAt text position with
  | none => none
  | some none => some position
  | some (some front) => skipComments text front
termination_by text.length - position
decreasing_by
  have hbounds := lt_of_commentAt ‹_›
  omega

theorem skipComments_of_comment {front : Nat} (hcomment : commentAt text position = some (some front)) :
    skipComments text position = skipComments text front := by
  rw [skipComments.eq_def]
  split
  all_goals simp_all

theorem skipComments_of_none (hcomment : commentAt text position = some none) :
    skipComments text position = some position := by
  rw [skipComments.eq_def]
  split
  all_goals simp_all

/-- Behind the blanks at the front of a text, comments and the blanks behind them are skipped as the lexer
    does it. -/
theorem skipComments_left (hleft : Left text position (rest.dropWhile Text.isBlank)) :
    ∃ after, skipComments text position = some after ∧ Left text after (skipGaps rest) := by
  fun_induction skipGaps rest generalizing position with
  | case1 => exact ⟨position, skipComments_of_none (commentAt_outside (Left.nil hleft)), hleft⟩
  | case2 c rest hblank ih =>
    rw [List.dropWhile_cons_of_pos hblank] at hleft
    exact ih hleft
  | case3 comment hblank ih =>
    rw [List.dropWhile_cons_of_neg hblank] at hleft
    obtain ⟨front, hcomment, hfront⟩ := commentAt_line hleft
    rw [skipComments_of_comment hcomment]
    exact ih hfront
  | case4 comment hblank ih =>
    rw [List.dropWhile_cons_of_neg hblank] at hleft
    obtain ⟨front, hcomment, hfront⟩ := commentAt_block hleft
    rw [skipComments_of_comment hcomment]
    exact ih hfront
  | case5 c rest hblank hline hblock =>
    rw [List.dropWhile_cons_of_neg hblank] at hleft
    have hopens : ¬OpensComment (c :: rest) := by
      rintro (⟨comment, heq⟩ | ⟨comment, heq⟩)
      · cases heq
        exact hline comment rfl rfl
      · cases heq
        exact hblock comment rfl rfl
    exact ⟨position, skipComments_of_none (commentAt_of_not_opensComment hleft hopens), hleft⟩

/-! The scanner. -/

section

variable (text : List Char)

/-- Whether the text goes on with a character at a place. -/
def isAt (c : Char) (position : Nat) : Option Bool := do
  if position < text.length then
    let d ← text[position]?
    some (d == c)
  else some false

/-- Takes characters up to the closing quote, which there may be none of. -/
def quotedFrom (quote : Char) (body : List Char) (position : Nat) :
    Option (Option (List Char) × Nat) := do
  if position < text.length then
    let c ← text[position]?
    if c = quote then
      if text[position + 1]? = some quote then quotedFrom quote (body ++ [quote]) (position + 2)
      else some (some body, position + 1)
    else quotedFrom quote (body ++ [c]) (position + 1)
  else some (none, position)
termination_by text.length - position

/-- What is found at a place, and the place at which the scanner stands then. -/
abbrev Found : Type :=
  Except LexFault Token × Nat

def wordAt (position : Nat) : Option Found := do
  let (word, after) ← takeFrom text isWordChar [] position
  some (.ok (Token.ofWord word), after)

/-- The number that starts at a place, behind its sign. If it runs into a word, the scanner goes back to
    this place. -/
def numberAt (negative : Bool) (position : Nat) : Option Found := do
  let (digits, after) ← takeFrom text Char.isDigit [] position
  let number : Except LexFault Token :=
    match Text.toInt64? (Text.signed negative (Text.digitsValue digits)) with
    | some n => .ok (.integer n)
    | none => .error ⟨.outOfRange, position⟩
  if after < text.length then
    let c ← text[after]?
    if isWordStart c then
      if negative then some (.error ⟨.unexpected c, after⟩, after) else wordAt text position
    else some (number, after)
  else some (number, after)

def quotedAt (quote : Char) (position : Nat) : Option Found := do
  let (body?, after) ← quotedFrom text quote [] (position + 1)
  match body? with
  | some body => some (.ok (.text (String.ofList body)), after)
  | none => some (.error ⟨.unterminated, position⟩, after)

/-- The token at a place that is not the end. -/
def tokenAt (position : Nat) : Option Found := do
  let c ← text[position]?
  match c with
  | '(' => some (.ok .openParen, position + 1)
  | ')' => some (.ok .closeParen, position + 1)
  | ',' => some (.ok .comma, position + 1)
  | ';' => some (.ok .semicolon, position + 1)
  | '*' => some (.ok .star, position + 1)
  | '=' => some (.ok .eq, position + 1)
  | '-' =>
    if text[position + 1]?.any Char.isDigit then numberAt text true (position + 1)
    else some (.error ⟨.unexpected c, position⟩, position)
  | '<' =>
    if ← isAt text '=' (position + 1) then some (.ok .le, position + 2)
    else if ← isAt text '>' (position + 1) then some (.ok .ne, position + 2)
    else some (.ok .lt, position + 1)
  | '>' =>
    if ← isAt text '=' (position + 1) then some (.ok .ge, position + 2)
    else some (.ok .gt, position + 1)
  | '!' =>
    if text[position + 1]? = some '=' then some (.ok .ne, position + 2)
    else some (.error ⟨.unexpected c, position⟩, position)
  | '\'' => quotedAt text '\'' position
  | '"' => quotedAt text '"' position
  | c =>
    if c.isDigit then numberAt text false position
    else if isWordStart c then wordAt text position
    else some (.error ⟨.unexpected c, position⟩, position)

/-- The next token from a place on, past blanks and comments. -/
def nextFrom (position : Nat) : Option Found := do
  let front ← skipFrom text Text.isBlank position
  let visible ← skipComments text front
  let start ← skipFrom text Text.isBlank visible
  if start < text.length then tokenAt text start else some (.ok .endOfInput, start)

end

theorem not_isBlank_head?_skipGaps (text : List Char) :
    ∀ c ∈ (skipGaps text).head?, Text.isBlank c = false := by
  fun_induction skipGaps text with
  | case1 =>
    intro c hc
    cases hc
  | case2 _ _ _ ih | case3 _ _ ih | case4 _ _ ih => exact ih
  | case5 c rest hblank =>
    intro d hd
    obtain rfl := Option.some.inj hd
    exact Bool.eq_false_iff.2 hblank

/-- Blanks, comments and blanks again take the scanner to the place where the next token starts. -/
theorem exists_start (hleft : Left text position rest) :
    ∃ front visible start, skipFrom text Text.isBlank position = some front ∧
      skipComments text front = some visible ∧ skipFrom text Text.isBlank visible = some start ∧
      Left text start (skipGaps rest) := by
  obtain ⟨front, hfront, hblanks⟩ := skipFrom_left hleft Text.isBlank
  obtain ⟨visible, hvisible, hgaps⟩ := skipComments_left hblanks
  obtain ⟨start, hstart, hrest⟩ := skipFrom_left hgaps Text.isBlank
  rw [Text.dropWhile_isBlank_of_head? (not_isBlank_head?_skipGaps rest)] at hrest
  exact ⟨front, visible, start, hfront, hvisible, hstart, hrest⟩

/-! Single tokens. -/

/-- The fault that a reason and the rest from the faulty place stand for. -/
def faultIn (text : List Char) (fault : LexReason × List Char) : LexFault :=
  ⟨fault.1, text.length - fault.2.length⟩

theorem Left.faultIn_eq (hleft : Left text position rest) (reason : LexReason) :
    faultIn text (reason, rest) = ⟨reason, position⟩ := by
  have hlength := hleft.add_length
  have hplace : text.length - rest.length = position := by omega
  exact congrArg (LexFault.mk reason) hplace

/-- What is found from a place on fits what is read of the text that is left there: the same token, with
    the scanner at the rest behind it, or the same fault, with the scanner somewhere further on. -/
def Fits (text : List Char) (position : Nat) (reading : Reading) (found : Found) : Prop :=
  match reading with
  | .ok (token, rest) => found.1 = .ok token ∧ Left text found.2 rest
  | .error fault => found.1 = .error (faultIn text fault) ∧ position ≤ found.2 ∧ found.2 ≤ text.length

/-- The scanner comes to an end, and what it finds fits. -/
def Finds (text : List Char) (position : Nat) (run : Option Found) (reading : Reading) : Prop :=
  ∃ found, run = some found ∧ Fits text position reading found

theorem finds_token {after : Nat} {token : Token} {run : Option Found}
    (hrun : run = some (.ok token, after)) (hafter : Left text after rest) :
    Finds text position run (.ok (token, rest)) :=
  ⟨_, hrun, rfl, hafter⟩

/-- A fault at the place at which the scanner stands. -/
theorem finds_unexpected {c : Char} {run : Option Found} (hleft : Left text position rest)
    (hrun : run = some (.error ⟨.unexpected c, position⟩, position)) :
    Finds text position run (.error (.unexpected c, rest)) := by
  refine ⟨_, hrun, by rw [hleft.faultIn_eq], Nat.le_refl _, ?_⟩
  have hlength := hleft.add_length
  omega

theorem Finds.mono {front : Nat} {run : Option Found} {reading : Reading}
    (hfinds : Finds text position run reading) (hfront : front ≤ position) :
    Finds text front run reading := by
  obtain ⟨found, hrun, hfits⟩ := hfinds
  refine ⟨found, hrun, ?_⟩
  cases reading with
  | ok read => exact hfits
  | error fault => exact ⟨hfits.1, hfront.trans hfits.2.1, hfits.2.2⟩

theorem wordAt_left (hleft : Left text position rest) :
    Finds text position (wordAt text position) (.ok (readWord rest)) := by
  obtain ⟨after, hrun, hafter⟩ := takeFrom_left hleft isWordChar []
  exact finds_token (by rw [wordAt, hrun]; rfl) hafter

theorem Left.le_of_dropWhile {after : Nat} {p : Char → Bool} (hleft : Left text position rest)
    (hafter : Left text after (rest.dropWhile p)) : position ≤ after ∧ after ≤ text.length := by
  have hbefore := hleft.add_length
  have hbehind := hafter.add_length
  have hle := length_dropWhile_le p rest
  omega

/-- Digits that do not run into a word are a number, or out of range. -/
theorem finds_integer {after : Nat} (hleft : Left text position rest)
    (hafter : Left text after (rest.dropWhile Char.isDigit)) (negative : Bool) :
    Finds text position
      (some (match Text.toInt64?
          (Text.signed negative (Text.digitsValue (rest.takeWhile Char.isDigit))) with
        | some n => .ok (.integer n)
        | none => .error ⟨.outOfRange, position⟩, after))
      (readInteger negative rest (rest.dropWhile Char.isDigit)) := by
  rw [readInteger]
  cases Text.toInt64? (Text.signed negative (Text.digitsValue (rest.takeWhile Char.isDigit))) with
  | some n => exact finds_token rfl hafter
  | none => exact ⟨_, rfl, by rw [hleft.faultIn_eq], hleft.le_of_dropWhile hafter⟩

theorem numberAt_left (hleft : Left text position rest) (negative : Bool) :
    Finds text position (numberAt text negative position) (readNumber negative rest) := by
  obtain ⟨after, hrun, hafter⟩ := takeFrom_left hleft Char.isDigit []
  have hinteger := finds_integer hleft hafter negative
  have hbounds := hleft.le_of_dropWhile hafter
  rw [numberAt, hrun, readNumber]
  simp only [Option.bind_eq_bind, Option.bind_some, List.nil_append]
  cases hdrop : rest.dropWhile Char.isDigit with
  | nil =>
    rw [hdrop] at hafter hinteger
    rw [if_neg hafter.nil]
    exact hinteger
  | cons c behind =>
    rw [hdrop] at hafter hinteger
    obtain ⟨hlt, hchar, -⟩ := hafter.cons
    rw [if_pos hlt, hchar, Option.bind_some]
    by_cases hstart : isWordStart c = true
    · cases negative with
      | false => simpa [hstart] using wordAt_left hleft
      | true => simpa [hstart] using (finds_unexpected hafter rfl).mono hbounds.1
    · simpa [hstart] using hinteger

/-! Texts in quotes. -/

section

variable {quote c : Char}

theorem quotedFrom_other (hleft : Left text position (c :: rest)) (hc : c ≠ quote) (body : List Char) :
    quotedFrom text quote body position = quotedFrom text quote (body ++ [c]) (position + 1) := by
  obtain ⟨hlt, hchar, -⟩ := hleft.cons
  rw [quotedFrom, if_pos hlt, hchar]
  exact if_neg hc

theorem quotedFrom_doubled (hleft : Left text position (quote :: quote :: rest)) (body : List Char) :
    quotedFrom text quote body position = quotedFrom text quote (body ++ [quote]) (position + 2) := by
  obtain ⟨hlt, hchar, hnext⟩ := hleft.cons
  rw [quotedFrom, if_pos hlt, hchar, hnext]
  exact (if_pos rfl).trans (if_pos rfl)

theorem quotedFrom_closed (hleft : Left text position (quote :: rest)) (hrest : rest.head? ≠ some quote)
    (body : List Char) : quotedFrom text quote body position = some (some body, position + 1) := by
  obtain ⟨hlt, hchar, hnext⟩ := hleft.cons
  rw [quotedFrom, if_pos hlt, hchar, hnext]
  exact (if_pos rfl).trans (if_neg hrest)

theorem quotedFrom_end (hleft : Left text position []) (body : List Char) :
    quotedFrom text quote body position = some (none, text.length) := by
  have hlength := hleft.add_length
  rw [List.length_nil, Nat.add_zero] at hlength
  rw [quotedFrom, if_neg hleft.nil, hlength]

/-- A text in quotes that is not closed takes the scanner to the end. -/
theorem quotedFrom_of_none (hleft : Left text position rest) (hread : readQuoted quote rest = none)
    (body : List Char) : quotedFrom text quote body position = some (none, text.length) := by
  fun_induction readQuoted quote rest generalizing position body with
  | case1 => exact quotedFrom_end hleft body
  | case2 => cases hread
  | case3 c hc => rw [quotedFrom_other hleft hc, quotedFrom_end hleft.tail]
  | case4 rest ih =>
    rw [quotedFrom_doubled hleft]
    exact ih hleft.tail.tail (Option.map_eq_none_iff.1 hread) _
  | case5 => cases hread
  | case6 c d rest hc ih =>
    rw [quotedFrom_other hleft hc]
    exact ih hleft.tail (Option.map_eq_none_iff.1 hread) _

theorem quotedFrom_of_some {others behind : List Char} (hleft : Left text position rest)
    (hread : readQuoted quote rest = some (others, behind)) (body : List Char) :
    ∃ after, quotedFrom text quote body position = some (some (body ++ others), after) ∧
      Left text after behind := by
  fun_induction readQuoted quote rest generalizing position body others with
  | case1 => cases hread
  | case2 =>
    cases hread
    refine ⟨position + 1, ?_, hleft.tail⟩
    rw [quotedFrom_closed hleft (by simp), List.append_nil]
  | case3 => cases hread
  | case4 rest ih =>
    obtain ⟨⟨inner, _⟩, hinner, heq⟩ := Option.map_eq_some_iff.1 hread
    cases heq
    obtain ⟨after, hrun, hafter⟩ := ih hleft.tail.tail hinner (body ++ [quote])
    exact ⟨after, by rw [quotedFrom_doubled hleft, hrun, List.append_assoc]; rfl, hafter⟩
  | case5 d rest hd =>
    cases hread
    refine ⟨position + 1, ?_, hleft.tail⟩
    rw [quotedFrom_closed hleft (by simpa using hd), List.append_nil]
  | case6 c d rest hc ih =>
    obtain ⟨⟨inner, _⟩, hinner, heq⟩ := Option.map_eq_some_iff.1 hread
    cases heq
    obtain ⟨after, hrun, hafter⟩ := ih hleft.tail hinner (body ++ [c])
    exact ⟨after, by rw [quotedFrom_other hleft hc, hrun, List.append_assoc]; rfl, hafter⟩

theorem quotedAt_left (hleft : Left text position (quote :: rest))
    (hquote : quote = '\'' ∨ quote = '"') :
    Finds text position (quotedAt text quote position) (readToken (quote :: rest)) := by
  rw [readToken_quote hquote, quotedAt]
  cases hread : readQuoted quote rest with
  | some found =>
    obtain ⟨others, behind⟩ := found
    obtain ⟨after, hrun, hafter⟩ := quotedFrom_of_some hleft.tail hread []
    rw [hrun]
    exact finds_token rfl hafter
  | none =>
    rw [quotedFrom_of_none hleft.tail hread]
    exact ⟨_, rfl, by rw [hleft.faultIn_eq], hleft.cons.1.le, Nat.le_refl _⟩

end

/-! The next token. -/

theorem isAt_left (hleft : Left text position rest) (c : Char) :
    isAt text c position = some (rest.head? == some c) := by
  cases rest with
  | nil => rw [isAt, if_neg hleft.nil]; rfl
  | cons d rest =>
    obtain ⟨hlt, hchar, -⟩ := hleft.cons
    rw [isAt, if_pos hlt, hchar]
    rfl

theorem readToken_unexpected {c : Char} {rest : List Char}
    (hc : c = '-' ∧ ¬rest.head?.any Char.isDigit = true ∨ c = '!' ∧ rest.head? ≠ some '=') :
    readToken (c :: rest) = .error (.unexpected c, c :: rest) := by
  rcases hc with ⟨rfl, hdigit⟩ | ⟨rfl, hequal⟩
  · rw [readToken, sign?_of_not_mem (by decide)]
    exact if_neg fun hminus : '-' = '-' ∧ _ => hdigit hminus.2
  · have hsign : sign? ('!' :: rest) = none := by
      unfold sign?
      split
      case h_13 => rfl
      all_goals simp_all
    rw [readToken, hsign]
    rfl

theorem tokenAt_left {c : Char} (hleft : Left text position (c :: rest)) :
    Finds text position (tokenAt text position) (readToken (c :: rest)) := by
  obtain ⟨-, hchar, hnext⟩ := hleft.cons
  rw [tokenAt, hchar, Option.bind_eq_bind, Option.bind_some]
  split
  -- The minus, and the signs that can be prolonged, need the character behind them.
  case h_7 =>
    rw [hnext]
    split
    · next hdigit =>
      rw [readToken_minus hdigit]
      exact (numberAt_left hleft.tail true).mono (Nat.le_succ position)
    · next hdigit =>
      rw [readToken_unexpected (.inl ⟨rfl, hdigit⟩)]
      exact finds_unexpected hleft rfl
  case h_8 =>
    rw [isAt_left hleft.tail, isAt_left hleft.tail]
    by_cases hequal : rest.head? = some '='
    · obtain ⟨behind, rfl⟩ := List.head?_eq_some_iff.1 hequal
      exact finds_token rfl hleft.tail.tail
    by_cases hgreater : rest.head? = some '>'
    · obtain ⟨behind, rfl⟩ := List.head?_eq_some_iff.1 hgreater
      exact finds_token rfl hleft.tail.tail
    · rw [readToken_of_sign? (sign?_less hequal hgreater)]
      exact finds_token (by simp [hequal, hgreater]) hleft.tail
  case h_9 =>
    rw [isAt_left hleft.tail]
    by_cases hequal : rest.head? = some '='
    · obtain ⟨behind, rfl⟩ := List.head?_eq_some_iff.1 hequal
      exact finds_token rfl hleft.tail.tail
    · rw [readToken_of_sign? (sign?_greater hequal)]
      exact finds_token (by simp [hequal]) hleft.tail
  case h_10 =>
    rw [hnext]
    split
    · next hequal =>
      obtain ⟨behind, rfl⟩ := List.head?_eq_some_iff.1 hequal
      exact finds_token rfl hleft.tail.tail
    · next hequal =>
      rw [readToken_unexpected (.inr ⟨rfl, hequal⟩)]
      exact finds_unexpected hleft rfl
  case h_11 => exact quotedAt_left hleft (.inl rfl)
  case h_12 => exact quotedAt_left hleft (.inr rfl)
  case h_13 =>
    rw [readToken_of_other (by simp_all [signStarts]) (by simp_all) (by simp_all)]
    split
    · exact numberAt_left hleft false
    split
    · exact wordAt_left hleft
    · exact finds_unexpected hleft rfl
  -- The signs that cannot be prolonged.
  all_goals exact finds_token rfl hleft.tail

/-- The scanner finds the next token from every place in the text. -/
theorem nextFrom_left (hleft : Left text position rest) :
    Finds text position (nextFrom text position) (next rest) := by
  obtain ⟨front, visible, start, hfront, hvisible, hstart, hrest⟩ := exists_start hleft
  have hbounds : position ≤ start := by
    have hbefore := hleft.add_length
    have hbehind := hrest.add_length
    have hle := length_skipGaps_le rest
    omega
  have hrun : nextFrom text position =
      if start < text.length then tokenAt text start else some (.ok .endOfInput, start) := by
    simp only [nextFrom, hfront, hvisible, hstart, Option.bind_eq_bind, Option.bind_some]
  rw [hrun, next]
  cases hgaps : skipGaps rest with
  | nil =>
    rw [hgaps] at hrest
    rw [if_neg hrest.nil]
    exact finds_token rfl hrest
  | cons c behind =>
    rw [hgaps] at hrest
    rw [if_pos hrest.cons.1]
    exact (tokenAt_left hrest).mono hbounds

theorem nextFrom_of_ok {behind : List Char} {token : Token} (hleft : Left text position rest)
    (hread : next rest = .ok (token, behind)) :
    ∃ after, nextFrom text position = some (.ok token, after) ∧ Left text after behind := by
  obtain ⟨⟨result, after⟩, hrun, hfits⟩ := nextFrom_left hleft
  rw [hread] at hfits
  obtain ⟨rfl, hafter⟩ : result = .ok token ∧ Left text after behind := hfits
  exact ⟨after, hrun, hafter⟩

theorem nextFrom_of_error {fault : LexReason × List Char} (hleft : Left text position rest)
    (hread : next rest = .error fault) :
    ∃ after, nextFrom text position = some (.error (faultIn text fault), after) ∧
      position ≤ after ∧ after ≤ text.length := by
  obtain ⟨⟨result, after⟩, hrun, hfits⟩ := nextFrom_left hleft
  rw [hread] at hfits
  obtain ⟨rfl, hafter⟩ : result = .error (faultIn text fault) ∧ position ≤ after ∧ after ≤ text.length :=
    hfits
  exact ⟨after, hrun, hafter⟩

/-! Steps of the scanner. -/

/-- What the scanner may find from a place on: a fault, the end marker at the end of the text, or a token
    that takes it further on. -/
def Advances (text : List Char) (position : Nat) : Found → Prop
  | (.error _, after) => position ≤ after ∧ after ≤ text.length
  | (.ok token, after) =>
    token = .endOfInput ∧ after = text.length ∨
      token ≠ .endOfInput ∧ position < after ∧ after ≤ text.length

theorem Advances.le {found : Found} (hadvances : Advances text position found) :
    found.2 ≤ text.length := by
  obtain ⟨fault | token, after⟩ := found
  · exact hadvances.2
  · rcases hadvances with ⟨-, hend⟩ | ⟨-, -, hle⟩
    · exact hend.le
    · exact hle

/-- A single step of the scanner: it stays in the text, advances, and does what the lexer does with the
    text that is left. -/
theorem nextFrom_advances (hposition : position ≤ text.length) :
    ∃ found, nextFrom text position = some found ∧ Advances text position found ∧
      (next (text.drop position)).mapError (faultIn text) =
        found.1.map fun token => (token, text.drop found.2) := by
  have hleft := left_drop hposition
  cases hread : next (text.drop position) with
  | error fault =>
    obtain ⟨after, hrun, hbounds⟩ := nextFrom_of_error hleft hread
    exact ⟨_, hrun, hbounds, rfl⟩
  | ok read =>
    obtain ⟨token, behind⟩ := read
    obtain ⟨after, hrun, hafter⟩ := nextFrom_of_ok hleft hread
    refine ⟨_, hrun, ?_, ?_⟩
    · rcases end_or_shorter_of_next hread with ⟨rfl, rfl⟩ | ⟨htoken, hshorter⟩
      · exact .inl ⟨rfl, hafter.add_length⟩
      · exact .inr ⟨htoken, hleft.lt_of_length_lt hafter hshorter⟩
    · rw [← hafter.drop_eq]
      rfl

/-- The places at which the scanner can come to stand, when it is asked for tokens again and again, also
    behind a fault. -/
inductive Reachable (text : List Char) : Nat → Prop
  | start : Reachable text 0
  | next {position after : Nat} {result : Except LexFault Token} (hposition : Reachable text position)
      (hnext : nextFrom text position = some (result, after)) : Reachable text after

theorem Reachable.le (hreachable : Reachable text position) : position ≤ text.length := by
  induction hreachable with
  | start => exact Nat.zero_le _
  | next _ hnext ih =>
    obtain ⟨found, hrun, hadvances, -⟩ := nextFrom_advances ih
    rw [hnext] at hrun
    cases hrun
    exact hadvances.le

/-! Runs of the scanner. -/

theorem nextFrom_outside (hposition : ¬position < text.length) :
    nextFrom text position = some (.ok .endOfInput, position) := by
  have hskip : skipFrom text Text.isBlank position = some position := by
    rw [skipFrom, takeFrom, if_neg hposition]
    rfl
  have hcomments := skipComments_of_none (commentAt_outside hposition)
  simp only [nextFrom, hskip, hcomments, Option.bind_eq_bind, Option.bind_some, if_neg hposition]

/-- The scanner, wherever it stands, is taken on by a token that is not the end marker. -/
theorem lt_of_nextFrom {after : Nat} {token : Token}
    (hnext : nextFrom text position = some (.ok token, after)) (htoken : token ≠ .endOfInput) :
    position < after ∧ after ≤ text.length := by
  by_cases hposition : position < text.length
  · obtain ⟨found, hrun, hadvances, -⟩ := nextFrom_advances hposition.le
    rw [hnext] at hrun
    cases hrun
    rcases hadvances with ⟨hend, -⟩ | ⟨-, hbounds⟩
    · exact absurd hend htoken
    · exact hbounds
  · rw [nextFrom_outside hposition] at hnext
    cases hnext
    exact absurd rfl htoken

/-- All tokens from a place on, behind those found already, up to the end marker or the first fault, and
    how many times a token was asked for. -/
def scanFrom (text : List Char) (tokens : List Token) (calls position : Nat) :
    Option (Except LexFault (List Token) × Nat) :=
  match _ : nextFrom text position with
  | none => none
  | some (.error fault, _) => some (.error fault, calls + 1)
  | some (.ok token, after) =>
    if _ : token = .endOfInput then some (.ok (tokens ++ [token]), calls + 1)
    else scanFrom text (tokens ++ [token]) (calls + 1) after
termination_by text.length - position
decreasing_by
  have hbounds := lt_of_nextFrom ‹_› ‹_›
  omega

def scan (text : List Char) : Option (Except LexFault (List Token) × Nat) :=
  scanFrom text [] 0 0

theorem scanFrom_of_error {fault : LexFault} {after : Nat}
    (hnext : nextFrom text position = some (.error fault, after)) (tokens : List Token) (calls : Nat) :
    scanFrom text tokens calls position = some (.error fault, calls + 1) := by
  rw [scanFrom.eq_def]
  split
  all_goals simp_all

theorem scanFrom_of_end {after : Nat} (hnext : nextFrom text position = some (.ok .endOfInput, after))
    (tokens : List Token) (calls : Nat) :
    scanFrom text tokens calls position = some (.ok (tokens ++ [.endOfInput]), calls + 1) := by
  rw [scanFrom.eq_def]
  split
  all_goals simp_all

theorem scanFrom_of_token {token : Token} {after : Nat}
    (hnext : nextFrom text position = some (.ok token, after)) (htoken : token ≠ .endOfInput)
    (tokens : List Token) (calls : Nat) :
    scanFrom text tokens calls position = scanFrom text (tokens ++ [token]) (calls + 1) after := by
  rw [scanFrom.eq_def]
  split
  all_goals simp_all

/-- A run of the scanner finds the tokens that are read off the rest, behind those found already, with one
    request for each of them. -/
theorem scanFrom_left (hleft : Left text position rest) (tokens : List Token) (calls : Nat) :
    ∃ more, scanFrom text tokens calls position =
        some (((readAll rest).map (tokens ++ ·)).mapError (faultIn text), calls + more) ∧
      more ≤ rest.length + 1 := by
  -- The induction is on the reader, so that the scanner may stand anywhere as long as `rest` is left there.
  fun_induction readAll rest generalizing position tokens calls with
  | case1 rest fault hread =>
    obtain ⟨after, hrun, -⟩ := nextFrom_of_error hleft hread
    exact ⟨1, scanFrom_of_error hrun tokens calls, Nat.le_add_left _ _⟩
  | case2 rest behind hread =>
    obtain ⟨after, hrun, -⟩ := nextFrom_of_ok hleft hread
    exact ⟨1, scanFrom_of_end hrun tokens calls, Nat.le_add_left _ _⟩
  | case3 rest token behind hread htoken ih =>
    obtain ⟨after, hrun, hafter⟩ := nextFrom_of_ok hleft hread
    obtain ⟨more, hothers, hmore⟩ := ih hafter (tokens ++ [token]) (calls + 1)
    have hshorter := length_lt_of_next hread htoken
    refine ⟨more + 1, ?_, by omega⟩
    have hfound : ((readAll behind).map (token :: ·)).map (tokens ++ ·) =
        (readAll behind).map ((tokens ++ [token]) ++ ·) :=
      map_append _ tokens [token]
    rw [scanFrom_of_token hrun htoken, hothers, hfound, Nat.add_assoc, Nat.add_comm 1]

/-- All tokens but the end marker take up a character each. -/
theorem length_le_of_readAll {tokens : List Token} (hread : readAll text = .ok tokens) :
    tokens.length ≤ text.length + 1 := by
  fun_induction readAll text generalizing tokens with
  | case1 => cases hread
  | case2 =>
    cases hread
    exact Nat.le_add_left _ _
  | case3 text token rest hnext htoken ih =>
    obtain ⟨others, hothers, rfl⟩ := map_cons_eq_ok_iff.1 hread
    have hfew := ih hothers
    have hshorter := length_lt_of_next hnext htoken
    rw [List.length_cons]
    omega

theorem ofText_eq_mapError (text : List Char) :
    Token.ofText text = (readAll text).mapError (faultIn text) := by
  rw [Token.ofText]
  cases readAll text <;> rfl

/-- From every place that it can come to, the scanner finds a token without a look outside the text, and
    each one but the end marker takes it on. It comes to an end within one request more than there are
    characters, with the tokens of the text, which are closed by the end marker. -/
theorem tokens_found_within_text (text : List Char) :
    (∀ position, Reachable text position → position ≤ text.length ∧
      ∃ found, nextFrom text position = some found ∧ Advances text position found ∧
        (next (text.drop position)).mapError (faultIn text) =
          found.1.map fun token => (token, text.drop found.2)) ∧
    (∃ calls, scan text = some (Token.ofText text, calls) ∧ calls ≤ text.length + 1) ∧
    ∀ tokens, Token.ofText text = .ok tokens →
      ∃ body, tokens = body ++ [.endOfInput] ∧ .endOfInput ∉ body ∧ body.length ≤ text.length := by
  refine ⟨fun position hreachable => ⟨hreachable.le, nextFrom_advances hreachable.le⟩, ?_, ?_⟩
  · obtain ⟨calls, hrun, hcalls⟩ := scanFrom_left (left_start text) [] 0
    refine ⟨calls, ?_, hcalls⟩
    rw [scan, hrun, map_append_nil, Nat.zero_add, ofText_eq_mapError]
  · intro tokens htokens
    have hread := ofText_eq_ok_iff.1 htokens
    obtain ⟨body, rfl, hbody⟩ := exists_body_of_readAll hread
    refine ⟨body, rfl, fun hmem => (hbody _ hmem).1 rfl, ?_⟩
    have hlength := length_le_of_readAll hread
    rwa [List.length_append, List.length_singleton, Nat.add_le_add_iff_right] at hlength

end TableEngine.Scanner
