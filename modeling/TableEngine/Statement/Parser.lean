import TableEngine.Error
import TableEngine.Statement

/-!
Reading statements from tokens. A parser takes tokens off the front of a list and keeps what it has
not read, also when it fails, so that reading can go on behind a faulty statement.

A statement is known by its first word: any other word at its place is an unknown command, and every
other fault is an error of syntax that points at the token where it shows.
-/

namespace TableEngine

/-- A reader of tokens. It gives a result or an error, and the tokens that it has left unread. -/
structure Parser (α : Type) where
  run : List Token → Except Error α × List Token
  run_suffix : ∀ tokens, (run tokens).2 <:+ tokens

namespace Parser

variable {α : Type}

instance : Monad Parser where
  pure a := {
    run := fun tokens => (.ok a, tokens)
    run_suffix := fun _ => List.suffix_rfl }
  bind p f := {
    run := fun tokens =>
      match p.run tokens with
      | (.ok a, rest) => (f a).run rest
      | (.error error, rest) => (.error error, rest)
    run_suffix := by
      intro tokens
      have hfirst := p.run_suffix tokens
      split
      · next a rest heq =>
        rw [heq] at hfirst
        exact ((f a).run_suffix rest).trans hfirst
      · next error rest heq =>
        rw [heq] at hfirst
        exact hfirst }

@[simp]
theorem run_pure (a : α) (tokens : List Token) : (pure a : Parser α).run tokens = (.ok a, tokens) :=
  rfl

@[simp]
theorem run_bind {β : Type} (p : Parser α) (f : α → Parser β) (tokens : List Token) :
    (p >>= f).run tokens =
      match p.run tokens with
      | (.ok a, rest) => (f a).run rest
      | (.error error, rest) => (.error error, rest) :=
  rfl

theorem length_run_le (p : Parser α) (tokens : List Token) :
    (p.run tokens).2.length ≤ tokens.length :=
  (p.run_suffix tokens).length_le

/-- The token to read next. -/
def current (tokens : List Token) : Token :=
  tokens.headD .endOfInput

/-- The error that points at the token to read next. -/
def unexpectedError (tokens : List Token) : Error :=
  .syntaxError (.unexpected (current tokens))

/-- Fails and takes nothing. -/
def fail (error : Error) : Parser α where
  run tokens := (.error error, tokens)
  run_suffix _ := List.suffix_rfl

/-- Fails at the token to read next. -/
def unexpected : Parser α where
  run tokens := (.error (unexpectedError tokens), tokens)
  run_suffix _ := List.suffix_rfl

/-- Looks at the token to read next and leaves it there. -/
def peek : Parser Token where
  run tokens := (.ok (current tokens), tokens)
  run_suffix _ := List.suffix_rfl

/-- Takes one token. -/
def advance : Parser Unit where
  run tokens := (.ok (), tokens.tail)
  run_suffix := List.tail_suffix

/-- Takes the given token if it comes next, and says whether it did. -/
def accept (token : Token) : Parser Bool where
  run tokens := if current tokens = token then (.ok true, tokens.tail) else (.ok false, tokens)
  run_suffix tokens := by
    split
    · exact List.tail_suffix tokens
    · exact List.suffix_rfl

/-- Takes the token to read next if it has a meaning, and fails at it otherwise. -/
def takeSome (meaning? : Token → Option α) : Parser α where
  run tokens :=
    match meaning? (current tokens) with
    | some a => (.ok a, tokens.tail)
    | none => (.error (unexpectedError tokens), tokens)
  run_suffix tokens := by
    split
    · exact List.tail_suffix tokens
    · exact List.suffix_rfl

/-- Takes the given token, which has to come next. -/
def expect (token : Token) : Parser Unit :=
  takeSome fun next => if next = token then some () else none

def expectKeyword (keyword : Keyword) : Parser Unit :=
  expect (.keyword keyword)

/-- The name that a token stands for: a word that is no keyword, or a number that is not negative, in
    decimal. -/
def name? : Token → Option String
  | .word s => some s
  | .integer n => if 0 ≤ n then some (Token.integer n).display else none
  | _ => none

def name : Parser String :=
  takeSome name?

/-- The literal that a token stands for: NULL, an integer, or a text with or without quotes. -/
def literal? : Token → Option Value
  | .keyword .NULL => some .null
  | .integer n => some (.integer n)
  | .text s => some (.text s)
  | .word s => some (.text s)
  | _ => none

def literal : Parser Value :=
  takeSome literal?

/-- The comparison that a token stands for. -/
def comparison? : Token → Option Comparison
  | .eq => some .eq
  | .ne => some .ne
  | .lt => some .lt
  | .gt => some .gt
  | .le => some .le
  | .ge => some .ge
  | .keyword .LIKE => some .like
  | _ => none

def comparison : Parser Comparison :=
  takeSome comparison?

/-- Puts an item in front of the items behind it, if these could be read. -/
def prepend (first : α) : Except Error (List α) × List Token → Except Error (List α) × List Token
  | (others, rest) => (others.map (first :: ·), rest)

/-- Reads one item, and one more behind every separator. The reading ends because a separator is taken
    before each further item. -/
def runSeparated (separator : Token) (item : Parser α) (tokens : List Token) :
    Except Error (List α) × List Token :=
  match _ : item.run tokens with
  | (.error error, rest) => (.error error, rest)
  | (.ok first, []) => (.ok [first], [])
  | (.ok first, next :: rest) =>
    if next = separator then prepend first (runSeparated separator item rest)
    else (.ok [first], next :: rest)
termination_by tokens.length
decreasing_by
  have hitem := item.length_run_le tokens
  simp_all only [List.length_cons]
  omega

theorem runSeparated_suffix (separator : Token) (item : Parser α) (tokens : List Token) :
    (runSeparated separator item tokens).2 <:+ tokens := by
  have hitem := item.run_suffix tokens
  fun_induction runSeparated separator item tokens with
  | case1 tokens error rest heq => simpa [heq] using hitem
  | case2 tokens first heq => exact List.nil_suffix
  | case3 tokens first rest heq ih =>
    rw [heq] at hitem
    exact ((ih (item.run_suffix rest)).trans (List.suffix_cons _ _)).trans hitem
  | case4 tokens first next rest heq hnext => simpa [heq] using hitem

/-- A list of at least one item, with separators between the items. -/
def separatedBy (separator : Token) (item : Parser α) : Parser (List α) where
  run := runSeparated separator item
  run_suffix := runSeparated_suffix separator item

/-- A list of at least one item, with commas between the items. -/
def commaList (item : Parser α) : Parser (List α) :=
  separatedBy .comma item

/-- A list between parentheses. -/
def parenthesized (inner : Parser α) : Parser α := do
  expect .openParen
  let result ← inner
  expect .closeParen
  pure result

/-- Puts the text of a token in front of the texts behind it, if these could be read. -/
def prependText (token : Token) : Except Error String × List Token → Except Error String × List Token
  | (text, rest) => (text.map (token.display ++ ·), rest)

/-- The texts of all tokens up to the first comma or closing parenthesis that is outside of `depth`
    open parentheses and those opened on the way. -/
def runRawText (depth : Nat) : List Token → Except Error String × List Token
  | [] => (.error (unexpectedError []), [])
  | token :: rest =>
    match token, depth with
    | .endOfInput, _ => (.error (unexpectedError (token :: rest)), token :: rest)
    | .comma, 0 => (.ok "", token :: rest)
    | .closeParen, 0 => (.ok "", token :: rest)
    | .closeParen, depth + 1 => prependText token (runRawText depth rest)
    | .openParen, depth => prependText token (runRawText (depth + 1) rest)
    | _, depth => prependText token (runRawText depth rest)

theorem runRawText_suffix (depth : Nat) (tokens : List Token) :
    (runRawText depth tokens).2 <:+ tokens := by
  fun_induction runRawText depth tokens with
  | case1 => exact List.suffix_rfl
  | case2 => exact List.suffix_rfl
  | case3 => exact List.suffix_rfl
  | case4 => exact List.suffix_rfl
  | case5 _ _ ih => exact ih.trans (List.suffix_cons _ _)
  | case6 _ _ ih => exact ih.trans (List.suffix_cons _ _)
  | case7 _ _ _ _ _ _ _ _ ih => exact ih.trans (List.suffix_cons _ _)

/-- The text of a column's type, which is not empty. Whether it names a type is not decided here. -/
def typeText : Parser String := do
  let text ← ⟨runRawText 0, runRawText_suffix 0⟩
  if text = "" then unexpected else pure text

def columnSpec : Parser ColumnSpec := do
  let name ← name
  let type ← typeText
  pure ⟨name, type⟩

def condition : Parser Condition := do
  let column ← name
  let comparison ← comparison
  let literal ← literal
  pure ⟨column, comparison, literal⟩

/-- The conditions of a WHERE, if there is one. -/
def conditions : Parser (List Condition) := do
  if ← accept (.keyword .WHERE) then separatedBy (.keyword .AND) condition else pure []

/-- The direction of an ORDER BY, which may be left out. -/
def direction : Parser Direction := do
  if ← accept (.keyword .DESC) then pure .descending
  else
    let _ ← accept (.keyword .ASC)
    pure .ascending

/-- The column and the direction of an ORDER BY, if there is one. -/
def ordering : Parser (Option String × Direction) := do
  if ← accept (.keyword .ORDER) then
    expectKeyword .BY
    let column ← name
    let direction ← direction
    pure (some column, direction)
  else pure (none, .ascending)

def integer? : Token → Option Int64
  | .integer n => some n
  | _ => none

/-- The number behind a LIMIT, if there is one. A negative number is taken before it is refused. -/
def limit : Parser (Option Nat) := do
  if ← accept (.keyword .LIMIT) then
    let n ← takeSome integer?
    if 0 ≤ n then pure (some n.toInt.toNat) else fail (.syntaxError (.unexpected (.integer n)))
  else pure none

def clause : Parser Clause := do
  let conditions ← conditions
  let (orderBy, direction) ← ordering
  let limit ← limit
  pure ⟨conditions, orderBy, direction, limit⟩

/-- The columns of a query. The number one stands for all columns, as the star does. -/
def projection : Parser Projection := do
  match ← peek with
  | .star =>
    advance
    pure .all
  | .integer 1 =>
    advance
    pure .all
  | _ => .columns <$> commaList name

def assignment : Parser Assignment := do
  let column ← name
  expect .eq
  let value ← literal
  pure ⟨column, value⟩

/-- What follows on CREATE. -/
def afterCreate : Parser Statement := do
  match ← peek with
  | .keyword .DATABASE =>
    advance
    .createDatabase <$> name
  | .keyword .TABLE =>
    advance
    let table ← name
    let columns ← parenthesized (commaList columnSpec)
    pure (.createTable table columns)
  | _ => fail .unknownCommand

/-- What follows on DROP. -/
def afterDrop : Parser Statement := do
  match ← peek with
  | .keyword .DATABASE =>
    advance
    .dropDatabase <$> name
  | .keyword .TABLE =>
    advance
    .dropTable <$> name
  | _ => fail .unknownCommand

/-- What follows on SHOW. -/
def afterShow : Parser Statement := do
  match ← peek with
  | .keyword .DATABASES =>
    advance
    pure .showDatabases
  | .keyword .TABLES =>
    advance
    pure .showTables
  | _ => fail .unknownCommand

/-- The columns that an insertion lists, if it lists any. -/
def targets : Parser (Option (List String)) := do
  if (← peek) = .openParen then some <$> parenthesized (commaList name) else pure none

/-- What follows on INSERT. -/
def afterInsert : Parser Statement := do
  expectKeyword .INTO
  let table ← name
  let columns ← targets
  expectKeyword .VALUES
  let tuples ← commaList (parenthesized (commaList literal))
  pure (.insert table columns tuples)

/-- What follows on SELECT. -/
def afterSelect : Parser Statement := do
  let projection ← projection
  expectKeyword .FROM
  let table ← name
  let clause ← clause
  pure (.select projection table clause)

/-- What follows on UPDATE. -/
def afterUpdate : Parser Statement := do
  let table ← name
  expectKeyword .SET
  let assignments ← commaList assignment
  let clause ← clause
  pure (.update table assignments clause)

/-- What follows on DELETE. -/
def afterDelete : Parser Statement := do
  expectKeyword .FROM
  let table ← name
  let clause ← clause
  pure (.delete table clause)

/-- A statement without its terminator. A word that starts no statement is left in place. -/
def statement : Parser Statement := do
  match ← peek with
  | .keyword .CREATE => advance; afterCreate
  | .keyword .DROP => advance; afterDrop
  | .keyword .USE => advance; .useDatabase <$> name
  | .keyword .SHOW => advance; afterShow
  | .keyword .DESCRIBE => advance; .describe <$> name
  | .keyword .INSERT => advance; afterInsert
  | .keyword .SELECT => advance; afterSelect
  | .keyword .UPDATE => advance; afterUpdate
  | .keyword .DELETE => advance; afterDelete
  | _ => fail .unknownCommand

/-- A statement and at most one semicolon, behind which nothing may follow. -/
def wholeStatement : Parser Statement := do
  let statement ← statement
  let _ ← accept .semicolon
  if (← peek) = .endOfInput then pure statement else unexpected

end Parser

namespace Statement

/-- Whether the letters that a text starts with, behind blanks, spell a command. -/
def leadsWithCommand (text : List Char) : Bool :=
  match Keyword.ofWord? ((Text.trimStart text).takeWhile Char.isAlpha) with
  | some keyword => keyword.isCommand
  | none => false

/-- The tokens of a statement. A text that cannot be read is an error of syntax only where it starts
    with a command. -/
def tokens (text : List Char) : Except Error (List Token) :=
  match Token.ofText text with
  | .ok tokens => .ok tokens
  | .error fault =>
    if leadsWithCommand text then .error (.syntaxError (.unreadable fault)) else .error .unknownCommand

/-- The statement that a text between blanks spells. -/
def parse (text : String) : Except Error Statement := do
  let tokens ← tokens (Text.trim text.toList)
  (Parser.wholeStatement.run tokens).1

end Statement

end TableEngine
