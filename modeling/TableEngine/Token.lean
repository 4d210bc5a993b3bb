import TableEngine.Value

/-!
The words and signs that statements are made of. A list of tokens always ends with the marker
`Token.endOfInput`, so that the place behind the last token can be named in an error as well.
-/

namespace TableEngine

/-- The reserved words, written as they are printed. -/
inductive Keyword where
  | CREATE | DROP | USE | SHOW | DESCRIBE | INSERT | SELECT | UPDATE | DELETE
  | DATABASE | DATABASES | TABLE | TABLES | INTO | VALUES | SET | FROM | WHERE | AND | ORDER | BY
  | ASC | DESC | LIMIT | LIKE | NULL
  deriving DecidableEq, Inhabited

namespace Keyword

def text : Keyword → String
  | CREATE => "CREATE"
  | DROP => "DROP"
  | USE => "USE"
  | SHOW => "SHOW"
  | DESCRIBE => "DESCRIBE"
  | INSERT => "INSERT"
  | SELECT => "SELECT"
  | UPDATE => "UPDATE"
  | DELETE => "DELETE"
  | DATABASE => "DATABASE"
  | DATABASES => "DATABASES"
  | TABLE => "TABLE"
  | TABLES => "TABLES"
  | INTO => "INTO"
  | VALUES => "VALUES"
  | SET => "SET"
  | FROM => "FROM"
  | WHERE => "WHERE"
  | AND => "AND"
  | ORDER => "ORDER"
  | BY => "BY"
  | ASC => "ASC"
  | DESC => "DESC"
  | LIMIT => "LIMIT"
  | LIKE => "LIKE"
  | NULL => "NULL"

/-- The keywords that a statement can start with. -/
def commands : List Keyword :=
  [CREATE, DROP, USE, SHOW, DESCRIBE, INSERT, SELECT, UPDATE, DELETE]

/-- All keywords. -/
def all : List Keyword :=
  commands ++ [DATABASE, DATABASES, TABLE, TABLES, INTO, VALUES, SET, FROM, WHERE, AND, ORDER, BY,
    ASC, DESC, LIMIT, LIKE, NULL]

def isCommand (keyword : Keyword) : Bool :=
  commands.contains keyword

/-- The keyword that a word spells in any letter case. -/
def ofWord? (word : List Char) : Option Keyword :=
  match Text.capitals? word with
  | none => none
  | some capitals => all.find? fun keyword => keyword.text.toList == capitals

end Keyword

/-- One word or sign of a statement. -/
inductive Token where
  | keyword (k : Keyword)
  | integer (n : Int64)
  /-- A text in quotes, without them. -/
  | text (s : String)
  /-- A word that is no keyword. -/
  | word (s : String)
  | eq
  | ne
  | lt
  | gt
  | le
  | ge
  | star
  | openParen
  | closeParen
  | comma
  | semicolon
  /-- The marker behind the last token. -/
  | endOfInput
  deriving DecidableEq, Inhabited

namespace Token

/-- The written form of a token. A text is shown between quotes as it is, without doubling. -/
def display : Token → String
  | keyword k => k.text
  | integer n => String.ofList (Text.intDigits n.toInt)
  | text s => "'" ++ s ++ "'"
  | word s => s
  | eq => "="
  | ne => "<>"
  | lt => "<"
  | gt => ">"
  | le => "<="
  | ge => ">="
  | star => "*"
  | openParen => "("
  | closeParen => ")"
  | comma => ","
  | semicolon => ";"
  | endOfInput => "EOF"

/-- The token that a word stands for. -/
def ofWord (word : List Char) : Token :=
  match Keyword.ofWord? word with
  | some k => .keyword k
  | none => .word (String.ofList word)

end Token

end TableEngine
