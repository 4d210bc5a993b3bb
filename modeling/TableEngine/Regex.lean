import TableEngine.Text.LetterCase

/-!
Regular expressions as far as patterns need them: a sequence of items, each of which reads a part of a
text or asks for one of its ends. Expressions are written down (`Expression.Spelled`) for a library that
compiles them (`Library`). What such a library promises is that it finds a compiled expression in exactly
the texts in which it occurs (`Library.Documented`); an expression that it has no room for is refused.
-/

namespace TableEngine.Regex

/-- How characters are read in the whole expression. -/
structure Flags where
  /-- Characters are the same if they differ in case alone. -/
  caseless : Bool
  /-- A dot reads line feeds, too. -/
  dotAll : Bool
  deriving DecidableEq

/-- What reads a single character. -/
inductive Atom where
  | character (c : Char)
  | dot
  deriving DecidableEq

inductive Item where
  | one (atom : Atom)
  /-- As many characters as there may be, also none. -/
  | many (atom : Atom)
  /-- The start of the text. -/
  | start
  /-- The end of the text. -/
  | finish
  deriving DecidableEq

structure Expression where
  flags : Flags
  items : List Item
  deriving DecidableEq

/-! What expressions read. -/

/-- The character that stands for all those that count as the same. -/
def Flags.letter (flags : Flags) (c : Char) : Char :=
  if flags.caseless then Text.fold c else c

def Atom.reads (flags : Flags) : Atom → Char → Bool
  | character c, d => flags.letter d == flags.letter c
  | dot, d => flags.dotAll || d != '\n'

/-- Whether an item reads a part of a text that stands between two others. -/
def Item.Reads (flags : Flags) : Item → (before part after : List Char) → Prop
  | one atom, _, part, _ => ∃ c, part = [c] ∧ atom.reads flags c = true
  | many atom, _, part, _ => ∀ c ∈ part, atom.reads flags c = true
  | start, before, part, _ => before = [] ∧ part = []
  | finish, _, part, after => part = [] ∧ after = []

/-- Whether items read what comes next, one after the other, behind a part of a text. -/
def ReadsFrom (flags : Flags) : List Item → (before rest : List Char) → Prop
  | [], _, _ => True
  | item :: items, before, rest => ∃ part after, rest = part ++ after ∧
      item.Reads flags before part after ∧ ReadsFrom flags items (before ++ part) after

/-- Whether an expression reads some part of a text. -/
def Expression.Occurs (expression : Expression) (text : List Char) : Prop :=
  ∃ before rest, text = before ++ rest ∧ ReadsFrom expression.flags expression.items before rest

/-! How expressions are written. -/

/-- Characters that do not stand for themselves. -/
def specials : List Char :=
  ['\\', '.', '+', '*', '?', '(', ')', '|', '[', ']', '\x7b', '\x7d', '^', '$', '#', '&', '-', '~']

/-- Characters that stand for themselves behind a backslash: all of ASCII but digits, letters and angle
    brackets. -/
def isEscapable (c : Char) : Bool :=
  c.toNat < 0x80 && !c.isAlphanum && c != '<' && c != '>'

inductive Atom.Spelled : Atom → List Char → Prop
  | dot : Spelled .dot ['.']
  | plain {c : Char} (hc : c ∉ specials) : Spelled (.character c) [c]
  | escaped {c : Char} (hc : isEscapable c = true) : Spelled (.character c) ['\\', c]

inductive Item.Spelled : Item → List Char → Prop
  | one {atom : Atom} {source : List Char} (hatom : atom.Spelled source) : Spelled (.one atom) source
  | many {atom : Atom} {source : List Char} (hatom : atom.Spelled source) :
      Spelled (.many atom) (source ++ ['*'])
  | start : Spelled .start ['^']
  | finish : Spelled .finish ['$']

/-- Items are written one after the other. -/
inductive Spelled : List Item → List Char → Prop
  | nil : Spelled [] []
  | cons {item : Item} {items : List Item} {front back : List Char} (hitem : item.Spelled front)
      (hitems : Spelled items back) : Spelled (item :: items) (front ++ back)

/-- Flags are set in a group of their own, unless there are none. -/
def Flags.source : Flags → List Char
  | ⟨false, false⟩ => []
  | ⟨true, false⟩ => ['(', '?', 'i', ')']
  | ⟨false, true⟩ => ['(', '?', 's', ')']
  | ⟨true, true⟩ => ['(', '?', 'i', 's', ')']

def Expression.Spelled (expression : Expression) (source : List Char) : Prop :=
  ∃ body, Regex.Spelled expression.items body ∧ source = expression.flags.source ++ body

/-! Libraries. -/

/-- The items that read a text as it stands. -/
def literally (text : List Char) : List Item :=
  text.map fun c => .one (.character c)

/-- A library of regular expressions. -/
class Library where
  /-- Writes a text so that it is read as it stands. -/
  escape : List Char → List Char
  /-- The test whether an expression occurs in a text, unless the expression cannot be compiled. -/
  compile : List Char → Option (List Char → Bool)

/-- What is documented of a library: a text that it has escaped may be used to read the text, and the
    test for an expression finds it wherever it occurs. Nothing is said of which expressions can be
    compiled. -/
structure Library.Documented [Library] : Prop where
  escape_spelled : ∀ text, Spelled (literally text) (Library.escape text)
  test_iff : ∀ {expression : Expression} {source : List Char} {test : List Char → Bool},
    expression.Spelled source → Library.compile source = some test →
      ∀ text, test text = true ↔ expression.Occurs text

end TableEngine.Regex
