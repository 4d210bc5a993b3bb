import TableEngine.Regex
import TableEngine.Text.ByteForm

/-!
How much room an expression takes in the library that the program uses, and how much it may take. An
expression stands for two recognisers, automata over the UTF-8 bytes of a text of which one reads
forwards and one backwards, and it is refused if either is too large. The bound is on the room for the
automaton and not on the length of the expression: any run of characters has to read characters of any
length in bytes and weighs as much as a dozen letters.

States are numbered in the order in which they are made. Where a character has several forms, states
that go on alike are made once. Reading forwards this always succeeds; reading backwards it is left to
a memory of limited size, so that now and then a state is made again.
-/

namespace TableEngine.Regex

open TableEngine.Text (ByteRange ByteForm)

/-- How many parts of each kind a recogniser has. -/
structure Size where
  states : Nat
  /-- Ranges of bytes that lead on from states that read one of several bytes. -/
  ranges : Nat
  /-- Ways on from states that choose without reading. -/
  choices : Nat
  deriving DecidableEq

namespace Size

instance : Add Size where
  add a b := ⟨a.states + b.states, a.ranges + b.ranges, a.choices + b.choices⟩

/-- The room that a recogniser takes, in bytes. -/
def bytes (size : Size) : Nat :=
  32 * size.states + 8 * size.ranges + 4 * size.choices

end Size

/-- What a recogniser reads for a single character. -/
inductive Part where
  /-- Any character. -/
  | any
  /-- A character that stands for itself alone, which has so many bytes. -/
  | bytes (count : Nat)
  /-- One of so many ASCII characters. -/
  | ascii (count : Nat)
  /-- One of several characters, by their forms. -/
  | variants (forms : List ByteForm)
  deriving DecidableEq

/-- The forms of all characters but the line feed, in rising order. -/
def anyOther : List ByteForm :=
  [⟨0x00, 0x09⟩] :: [⟨0x0B, 0x7F⟩] :: ByteForm.anyCharacter.tail

def Part.ofAtom (flags : Flags) : Atom → Part
  | .dot => if flags.dotAll then .any else .variants anyOther
  | .character c =>
    match if flags.caseless then Text.caseVariants c else [c] with
    | [c] => .bytes c.utf8Size
    | cs =>
      if cs.all (·.toNat < 0x80) then .ascii cs.length
      else .variants (ByteForm.ofChars cs)

/-- A state that chooses whether to go through a part once more. -/
def loop : Size :=
  ⟨1, 0, 2⟩

/-- A state that asks for an end of the text. -/
def anchor : Size :=
  ⟨1, 0, 0⟩

namespace Forwards

/-- What is left to read of the forms that begin in a given way. -/
def rests (forms : List ByteForm) (opening : ByteForm) : List ByteForm :=
  forms.filterMap fun form =>
    if opening.isPrefixOf form then some (form.drop opening.length) else none

/-- The ways in which a form begins, from nothing up to all but its last range. -/
def openings (form : ByteForm) : List ByteForm :=
  (List.range form.length).map form.take

/-- The parts that read one of several forms: a state for everything that can be left to read, with a
    range for each way on, and a state after them. -/
def ofForms (forms : List ByteForm) : Size :=
  let states := ((forms.flatMap openings).eraseDups.map (rests forms)).eraseDups
  let ranges := states.flatMap fun left => (left.filterMap List.head?).eraseDups
  ⟨states.length + 1, ranges.length, 0⟩

def anyCharacter : Size :=
  ofForms ByteForm.anyCharacter

def ofPart : Part → Size
  | .any => anyCharacter
  | .bytes count => ⟨count, 0, 0⟩
  | .ascii count => ⟨2, count, 0⟩
  | .variants forms => ofForms forms

def ofItem (flags : Flags) : Item → Size
  | .one atom => ofPart (.ofAtom flags atom)
  | .many atom => loop + ofPart (.ofAtom flags atom)
  | .start | .finish => anchor

/-- The recogniser of an expression. Both ends of the match take a state, as do one in front of it and
    one behind. -/
def ofExpression (expression : Expression) : Size :=
  expression.items.foldl (fun size item => size + ofItem expression.flags item) ⟨4, 0, 0⟩

end Forwards

namespace Backwards

/-- What a state does that reads one range of bytes. -/
structure Link where
  range : ByteRange
  /-- The state that comes next. -/
  next : Nat
  deriving DecidableEq

/-- The number of slots in the memory of links. -/
def slots : UInt64 :=
  1000

/-- The slot in which a link is remembered, by the FNV-1a hash of its parts. -/
def Link.slot (link : Link) : UInt64 :=
  let hash := [link.next.toUInt64, link.range.first.toUInt64, link.range.last.toUInt64].foldl
    (fun hash part => (hash ^^^ part) * 1099511628211) 14695981039346656037
  hash % slots

/-- States that are being made for a character. -/
structure Chain where
  /-- The number of states so far, which is the number that the next one gets. -/
  states : Nat
  /-- By slot, the link remembered last and the state that was made for it. -/
  memory : List (UInt64 × Link × Nat)

/-- The state made for a link, unless another link has taken its slot since. -/
def Chain.find? (chain : Chain) (link : Link) : Option Nat :=
  match chain.memory.lookup link.slot with
  | some (known, state) => if known = link then some state else none
  | none => none

/-- A state for a link: the one that is remembered, or else a new one. -/
def Chain.add (chain : Chain) (link : Link) : Chain × Nat :=
  match chain.find? link with
  | some state => (chain, state)
  | none => (⟨chain.states + 1, (link.slot, link, chain.states) :: chain.memory⟩, chain.states)

/-- Makes the states that read a form backwards and end in a given state. -/
def Chain.addForm (chain : Chain) (last : Nat) (form : ByteForm) : Chain :=
  (form.foldl (fun (chain, next) range => chain.add ⟨range, next⟩) (chain, last)).1

/-- Adds the parts that read one of several forms: a state that chooses a form, the state in which all
    forms end, and states in between. -/
def addForms (size : Size) (forms : List ByteForm) : Size :=
  let last := size.states + 1
  let chain := forms.foldl (fun (chain : Chain) form => chain.addForm last form) ⟨last + 1, []⟩
  { size with states := chain.states, choices := size.choices + forms.length }

def addPart (size : Size) : Part → Size
  | .any => addForms size ByteForm.anyCharacter
  | .bytes count => size + ⟨count, 0, 0⟩
  | .ascii count => size + ⟨2, count, 0⟩
  | .variants forms => addForms size forms

def addItem (flags : Flags) (size : Size) : Item → Size
  | .one atom => addPart size (.ofAtom flags atom)
  | .many atom => addPart (size + loop) (.ofAtom flags atom)
  | .start | .finish => size + anchor

/-- The recogniser of an expression. The state in front of the match is made first, then those for the
    items from the last to the first, then the state behind the match. -/
def ofExpression (expression : Expression) : Size :=
  expression.items.foldr (fun item size => addItem expression.flags size item) ⟨1, 0, 0⟩ + ⟨1, 0, 0⟩

end Backwards

/-- The room that a recogniser may take, ten mebibytes. -/
def maxBytes : Nat :=
  10 * 1024 * 1024

/-- Whether neither recogniser of an expression is too large. -/
def fits (expression : Expression) : Bool :=
  (Forwards.ofExpression expression).bytes ≤ maxBytes &&
    (Backwards.ofExpression expression).bytes ≤ maxBytes

end TableEngine.Regex
