import TableEngine.Json.Token

/-!
Printing JSON: in one line without blanks, or with every member on a line of its own, indented by two
blanks for each level. Empty objects and arrays stay closed up in both.
-/

namespace TableEngine.Json

/-- A character within quotes. Quotes, backslashes and control characters are escaped, with a short
    escape where there is one; all other characters stand for themselves. -/
def escape (c : Char) : List Char :=
  match c with
  | '"' => ['\\', '"']
  | '\\' => ['\\', '\\']
  | '\x08' => ['\\', 'b']
  | '\x0C' => ['\\', 'f']
  | '\n' => ['\\', 'n']
  | '\r' => ['\\', 'r']
  | '\t' => ['\\', 't']
  | c =>
    if c.toNat < 0x20 then
      ['\\', 'u', '0', '0', Nat.digitChar (c.toNat / 16), Nat.digitChar (c.toNat % 16)]
    else [c]

/-- A text in quotes. -/
def quoted (text : List Char) : List Char :=
  '"' :: text.flatMap escape ++ ['"']

/-- The characters of a token. The tokens that no writer makes have none. -/
def Token.chars : Token → List Char
  | openObject => ['{']
  | closeObject => ['}']
  | openArray => ['[']
  | closeArray => [']']
  | comma => [',']
  | colon => [':']
  | null => ['n', 'u', 'l', 'l']
  | boolean true => ['t', 'r', 'u', 'e']
  | boolean false => ['f', 'a', 'l', 's', 'e']
  | integer n => Text.intDigits n
  | text s => quoted s.toList
  | otherNumber | brokenText | fault => []

/-- The layout in one line. -/
def compact (tokens : List Token) : List Char :=
  tokens.flatMap Token.chars

/-- A line end and the indentation of a level. -/
def newLine (level : Nat) : List Char :=
  '\n' :: List.replicate (2 * level) ' '

/-- The indented layout of tokens within `level` open objects and arrays. -/
def indented (level : Nat) : List Token → List Char
  | [] => []
  | .openObject :: .closeObject :: rest => '{' :: '}' :: indented level rest
  | .openArray :: .closeArray :: rest => '[' :: ']' :: indented level rest
  | .openObject :: rest => '{' :: newLine (level + 1) ++ indented (level + 1) rest
  | .openArray :: rest => '[' :: newLine (level + 1) ++ indented (level + 1) rest
  | .closeObject :: rest => newLine (level - 1) ++ '}' :: indented (level - 1) rest
  | .closeArray :: rest => newLine (level - 1) ++ ']' :: indented (level - 1) rest
  | .comma :: rest => ',' :: newLine level ++ indented level rest
  | .colon :: rest => ':' :: ' ' :: indented level rest
  | token :: rest => token.chars ++ indented level rest

end TableEngine.Json
