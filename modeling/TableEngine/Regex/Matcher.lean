import TableEngine.Regex.Size

/-!
The library of regular expressions that the program uses. An expression is read from its text, and is
looked for in a text by asking, for its end parts from the shortest to the longest, at which places they
read what comes next. The work is thus bounded by the product of the two lengths, however many items read
runs of characters.
-/

namespace TableEngine.Regex

/-! Reading expressions. -/

/-- What a sign reads that stands for an item. A backslash, a star and signs of which no use is made stand
    for none. -/
def Item.ofSign? (sign : Char) : Option Item :=
  if sign = '.' then some (.one .dot)
  else if sign = '^' then some .start
  else if sign = '$' then some .finish
  else if sign ∈ specials then none
  else some (.one (.character sign))

/-- Reads items behind those that were read already, the last one first. A star changes the last one. -/
def readItems? : (done : List Item) → List Char → Option (List Item)
  | done, [] => some done.reverse
  | .one atom :: done, '*' :: source => readItems? (.many atom :: done) source
  | done, '\\' :: c :: source =>
    if isEscapable c then readItems? (.one (.character c) :: done) source else none
  | done, sign :: source =>
    match Item.ofSign? sign with
    | some item => readItems? (item :: done) source
    | none => none

def readExpression? (source : List Char) : Option Expression :=
  let flags? : Option Flags :=
    [⟨true, true⟩, ⟨true, false⟩, ⟨false, true⟩].find? fun flags => flags.source.isPrefixOf source
  let flags := flags?.getD ⟨false, false⟩
  (readItems? [] (source.drop flags.source.length)).map (Expression.mk flags)

/-! Looking for expressions. -/

/-- A character of a text, and the one that stands for all those that count as the same. -/
structure Sign where
  c : Char
  letter : Char

def Flags.sign (flags : Flags) (c : Char) : Sign :=
  ⟨c, flags.letter c⟩

/-- An atom whose character stands for all those that count as the same. -/
def Atom.plain (flags : Flags) : Atom → Atom
  | character c => character (flags.letter c)
  | dot => dot

def Atom.readsSign (flags : Flags) : Atom → Sign → Bool
  | character c, sign => sign.letter == c
  | dot, sign => flags.dotAll || sign.c != '\n'

/-! At which places, from the front of a text to its end, an item reads what comes next up to one of the
places that are marked. -/

section

variable (test : Sign → Bool)

def oneUpTo : List Sign → (marks : List Bool) → List Bool
  | sign :: text, _ :: later => (test sign && later.headD false) :: oneUpTo text later
  | _, _ => [false]

def manyUpTo : List Sign → (marks : List Bool) → List Bool
  | sign :: text, here :: later =>
    let later := manyUpTo text later
    (here || test sign && later.headD false) :: later
  | _, marks => marks

end

def startAt : (marks : List Bool) → List Bool
  | [] => []
  | here :: later => here :: later.map fun _ => false

def finishAt : (marks : List Bool) → List Bool
  | [] => []
  | [last] => [last]
  | _ :: later => false :: finishAt later

def Item.upTo (flags : Flags) (text : List Sign) (marks : List Bool) : Item → List Bool
  | one atom => oneUpTo ((atom.plain flags).readsSign flags) text marks
  | many atom => manyUpTo ((atom.plain flags).readsSign flags) text marks
  | start => startAt marks
  | finish => finishAt marks

/-- At which places of a text items read what comes next. -/
def places (flags : Flags) (text : List Sign) (items : List Item) : List Bool :=
  items.foldr (fun item marks => item.upTo flags text marks) (true :: text.map fun _ => true)

def Expression.test (expression : Expression) (text : List Char) : Bool :=
  (places expression.flags (text.map expression.flags.sign) expression.items).any id

/-- Writes a backslash in front of each character that does not stand for itself. -/
def escape (text : List Char) : List Char :=
  text.flatMap fun c => if c ∈ specials then ['\\', c] else [c]

/-- The test for an expression, unless it cannot be read or takes too much room. -/
def compile (source : List Char) : Option (List Char → Bool) := do
  let expression ← readExpression? source
  if fits expression then some expression.test else none

instance : Library where
  escape
  compile

end TableEngine.Regex
