import TableEngine.Regex

/-!
Patterns of LIKE. A percent sign matches any run of characters, line ends included, and every other
character matches itself in any letter case. A pattern has to match the whole text.

A pattern is written as a regular expression, and the rest is left to the library: the pieces between
the percent signs are escaped and joined by `.*`.
-/

namespace TableEngine.Pattern

open Regex (Library)

/-- The sign that matches any run of characters. -/
def wildcard : Char :=
  '%'

section

variable [Library]

/-- The pieces of a pattern as they are read in any text, with any run of characters between them. -/
def body (pattern : List Char) : List Char :=
  ['.', '*'].intercalate ((pattern.splitOn wildcard).map Library.escape)

/-- A pattern as an expression that reads whole texts, in any letter case and across line ends. -/
def source (pattern : List Char) : List Char :=
  ['(', '?', 'i', 's', ')', '^'] ++ body pattern ++ ['$']

/-- The test whether a text matches a pattern, unless the pattern is refused. -/
def compile (pattern : List Char) : Option (List Char → Bool) :=
  Library.compile (source pattern)

end

end TableEngine.Pattern
