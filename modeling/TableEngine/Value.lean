import TableEngine.Text.Blank
import TableEngine.Text.LetterCase
import TableEngine.Text.Decimal

/-!
The values that cells hold and statements write: NULL, a 64-bit integer or a text. This module fixes
how a value is printed, when it counts as a number, and the order that sorting uses.
-/

namespace TableEngine

/-- A cell of a table or a literal of a statement. -/
inductive Value where
  | null
  | integer (n : Int64)
  | text (s : String)
  deriving DecidableEq, Inhabited

namespace Value

def isNull : Value → Bool
  | null => true
  | _ => false

/-- The plain text of a value, as results show it. -/
def display : Value → String
  | null => "NULL"
  | integer n => String.ofList (Text.intDigits n.toInt)
  | text s => s

/-- The text between two quotes, in which every quote of the text itself is written twice. -/
def quoted (text : List Char) : List Char :=
  '\'' :: text.flatMap (fun c => if c = '\'' then ['\'', '\''] else [c]) ++ ['\'']

/-- The value as a literal of a statement, where a text stands in quotes. -/
def literal : Value → String
  | null => "NULL"
  | integer n => String.ofList (Text.intDigits n.toInt)
  | text s => String.ofList (quoted s.toList)

/-- The number that a value reads as. A text reads as one if it is a whole integer between blanks. -/
def asInteger : Value → Option Int64
  | null => none
  | integer n => some n
  | text s => Text.readInt64? (Text.trim s.toList)

/-- The order used for sorting: NULL, then the integers, then the texts without regard to case.
    Texts that differ in case alone are ordered by their characters. -/
def compare : Value → Value → Ordering
  | null, null => .eq
  | null, _ => .lt
  | _, null => .gt
  | integer a, integer b => Ord.compare a b
  | integer _, text _ => .lt
  | text _, integer _ => .gt
  | text a, text b =>
    (Ord.compare (Text.lower a.toList) (Text.lower b.toList)).then (Ord.compare a.toList b.toList)

end Value

end TableEngine
