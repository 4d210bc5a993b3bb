import TableEngine.Value

/-!
The declared type of a column: how it is written, and what it turns a value into on the way into
storage.
-/

namespace TableEngine

/-- What a column stores. CHAR and VARCHAR columns store texts. -/
inductive ColumnKind where
  | int
  | char
  | varchar
  deriving DecidableEq, Inhabited

namespace ColumnKind

/-- The word that names a kind in a declaration. -/
def keyword : ColumnKind → String
  | int => "INT"
  | char => "CHAR"
  | varchar => "VARCHAR"

/-- All kinds there are. -/
def all : List ColumnKind :=
  [varchar, char, int]

def holdsText : ColumnKind → Bool
  | int => false
  | char | varchar => true

end ColumnKind

/-- A kind with an optional size: the greatest length of a stored text, a mere display width for
    integers. -/
structure ColumnType where
  kind : ColumnKind
  size : Option UInt64
  deriving DecidableEq, Inhabited

namespace ColumnType

/-- The written form of a type, such as `INT` or `VARCHAR(10)`. -/
def display (type : ColumnType) : String :=
  match type.size with
  | none => type.kind.keyword
  | some size => type.kind.keyword ++ "(" ++ String.ofList (Text.natDigits size.toNat) ++ ")"

/-- The blanks that may surround the parts of a size: spaces, tabs and line ends. -/
def isGap (c : Char) : Bool :=
  c == ' ' || c == '\t' || c == '\r' || c == '\n'

/-- What follows a word at the front of a text, if the word stands there in any letter case. -/
def afterWord? : (word text : List Char) → Option (List Char)
  | [], rest => some rest
  | _ :: _, [] => none
  | w :: word, c :: rest => if c.toUpper = w then afterWord? word rest else none

/-- Reads a size in parentheses, which has to make up the whole text. A size is not zero. -/
def readSize? (text : List Char) : Option UInt64 :=
  match text.dropWhile isGap with
  | '(' :: inner =>
    let number := inner.dropWhile isGap
    let digits := number.takeWhile Char.isDigit
    let size := Text.digitsValue digits
    if (number.dropWhile Char.isDigit).dropWhile isGap = [')'] ∧ digits ≠ [] ∧ 0 < size ∧
        size < UInt64.size then
      some (UInt64.ofNat size)
    else none
  | _ => none

/-- Reads a declared type: a kind in any letter case, then nothing or a size. -/
def parse? (spec : String) : Option ColumnType :=
  let text := Text.trim spec.toList
  ColumnKind.all.findSome? fun kind =>
    match afterWord? kind.keyword.toList text with
    | none => none
    | some [] => some ⟨kind, none⟩
    | some rest => (readSize? rest).map fun size => ⟨kind, some size⟩

/-- The first characters of a text, as far as a size allows. -/
def clip (size : Option UInt64) (text : List Char) : List Char :=
  match size with
  | none => text
  | some size => text.take size.toNat

/-- What a text column stores for a text: its first characters as far as the size allows, and NULL in
    place of an empty text. -/
def truncate (size : Option UInt64) (text : List Char) : Value :=
  let kept := clip size text
  if kept = [] then .null else .text (String.ofList kept)

/-- The stored form of a value. Integer columns read an integer off the front of a text and store
    NULL if there is none in range. Text columns store integers as their decimal text. -/
def coerce (type : ColumnType) (value : Value) : Value :=
  match type.kind, value with
  | _, .null => .null
  | .int, .integer n => .integer n
  | .int, .text s =>
    match Text.readLeadingInt64? (Text.trimStart s.toList) with
    | some n => .integer n
    | none => .null
  | .char, value | .varchar, value => truncate type.size value.display.toList

end ColumnType

end TableEngine
