import TableEngine.Text.Blank

/-!
Scripts: texts that hold several statements. A statement ends at a semicolon or at the sign `\g`, in
both cases outside of quotes.
-/

namespace TableEngine.Script

def isQuote (c : Char) : Bool :=
  c == '\'' || c == '"'

/-- The quote that is open behind a character, when `quote` is open in front of it. Two quotes of a
    kind that stand side by side close and open again, so a doubled quote needs no rule of its own. -/
def quoteAfter (quote : Option Char) (c : Char) : Option Char :=
  match quote with
  | some q => if c = q then none else some q
  | none => if isQuote c then some c else none

/-- Puts a character in front of the first piece. -/
def push (c : Char) : List (List Char) → List (List Char)
  | [] => [[c]]
  | piece :: pieces => (c :: piece) :: pieces

/-- Cuts a text, in front of which `quote` is open, at its terminators. There is one piece more than
    there are terminators. -/
def cut : (quote : Option Char) → List Char → List (List Char)
  | _, [] => [[]]
  | none, ';' :: rest => [] :: cut none rest
  | none, '\\' :: 'g' :: rest => [] :: cut none rest
  | quote, c :: rest => push c (cut (quoteAfter quote c) rest)

/-- The statements of a script, without the blanks around them and without blank pieces. -/
def pieces (text : List Char) : List (List Char) :=
  ((cut none text).map Text.trim).filter (!·.isEmpty)

/-- The texts of the statements of a script. -/
def statements (text : String) : List String :=
  (pieces text.toList).map String.ofList

end TableEngine.Script
