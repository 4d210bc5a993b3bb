import TableEngine.Text.Decimal

/-!
JSON texts as lists of tokens. The same tokens are written and read: a writer composes them with
`Json.object` and `Json.array`, and `TableEngine.Json.Layout` prints them in one line or indented.
-/

namespace TableEngine.Json

inductive Token where
  | openObject
  | closeObject
  | openArray
  | closeArray
  | comma
  | colon
  | null
  | boolean (b : Bool)
  | integer (n : Int)
  /-- A number that is not written as an integer. Minus zero is one of these. -/
  | otherNumber
  | text (s : String)
  /-- A text whose escapes do not make up characters. -/
  | brokenText
  /-- The end of what can be read of a text that is not JSON. -/
  | fault
  deriving DecidableEq, Inhabited

/-- Values one after the other, with commas between them. -/
def separated : List (List Token) → List Token
  | [] => []
  | [value] => value
  | value :: values => value ++ .comma :: separated values

/-- The array of some values. -/
def array (values : List (List Token)) : List Token :=
  .openArray :: separated values ++ [.closeArray]

/-- The object of some named values. -/
def object (members : List (String × List Token)) : List Token :=
  .openObject :: separated (members.map fun (name, value) => .text name :: .colon :: value) ++
    [.closeObject]

/-- The array of some texts. -/
def texts (texts : List String) : List Token :=
  array (texts.map fun text => [.text text])

end TableEngine.Json
