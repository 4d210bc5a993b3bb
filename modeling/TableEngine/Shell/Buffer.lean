import TableEngine.Text.Blank

/-!
How lines of input make up what is to be done. Lines are gathered until they end with a terminator;
between scripts, a line can also be a command of the shell or leave it.
-/

namespace TableEngine.Buffer

/-- What a line of input completes. -/
inductive Entry where
  /-- Nothing yet. -/
  | nothing
  /-- A command of the shell, in words. -/
  | command (words : List (List Char))
  /-- The end of the session. -/
  | leave
  /-- The statements gathered so far. -/
  | script (text : List Char)
  deriving DecidableEq

/-- Whether a text ends with a terminator, up to blanks. Quotes are not looked at. -/
def isComplete (text : List Char) : Bool :=
  match text.reverse.dropWhile Text.isBlank with
  | ';' :: _ => true
  | 'g' :: '\\' :: _ => true
  | _ => false

/-- Whether a line is one of the words that leave the shell. -/
def isLeaving (line : List Char) : Bool :=
  let word := line.map Char.toLower
  word == ['q', 'u', 'i', 't'] || word == ['e', 'x', 'i', 't']

/-- Adds a line to the lines gathered before, and gives what it completes and what is left to
    complete. Blank lines are passed over. -/
def enter (gathered line : List Char) : Entry × List Char :=
  let trimmed := Text.trim line
  if trimmed.isEmpty then (.nothing, gathered)
  else if gathered.isEmpty && trimmed.head? == some '.' then (.command (Text.words trimmed), [])
  else if gathered.isEmpty && isLeaving trimmed then (.leave, [])
  else
    let text := gathered ++ line ++ ['\n']
    if isComplete text then (.script text, []) else (.nothing, text)

/-- What lines complete one after the other, up to the one that leaves. -/
def entries (gathered : List Char) : List (List Char) → List Entry
  | [] => []
  | line :: lines =>
    let (entry, gathered) := enter gathered line
    if entry = .leave then [entry] else entry :: entries gathered lines

/-- A line without its end. In front of the line feed, one carriage return belongs to the end. -/
def chomp (line : List Char) : List Char :=
  match line.reverse with
  | '\n' :: '\r' :: reversed => reversed.reverse
  | '\n' :: reversed => reversed.reverse
  | _ => line

/-- The lines of a text with their ends. The last one may lack its end. -/
def splitLines : List Char → List (List Char)
  | [] => []
  | '\n' :: rest => ['\n'] :: splitLines rest
  | c :: rest =>
    match splitLines rest with
    | [] => [[c]]
    | line :: lines => (c :: line) :: lines

end TableEngine.Buffer
