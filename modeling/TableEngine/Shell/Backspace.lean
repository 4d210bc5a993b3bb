import TableEngine.Text.Cluster

/-!
Backspaces in a line of input. Each takes back what people take for one character, a letter with its
accents for instance, out of what the line holds so far. In front of the first character they do
nothing.
-/

namespace TableEngine.Backspace

/-- The character that takes back another. -/
def sign : Char :=
  '\x08'

/-- The part of a line that has been read. -/
structure Typed where
  /-- Its characters, the last one first. -/
  reversed : List Char
  /-- The lengths in bytes of the clusters that can be taken back, the last one first. There is one
      byte for each length, so that of longer clusters the remainder modulo 256 is known. -/
  lengths : List UInt8
  deriving DecidableEq

/-- Drops characters from the front until they make up a number of bytes. -/
def dropBytes : Nat → List Char → List Char
  | _, [] => []
  | n, c :: rest => if n = 0 then c :: rest else dropBytes (n - c.utf8Size) rest

/-- The length of a text in bytes, as far as one byte tells it. -/
def byteLength (text : List Char) : UInt8 :=
  UInt8.ofNat (String.ofList text).utf8ByteSize

/-- Reads the next cluster of a line. -/
def Typed.read (typed : Typed) (cluster : List Char) : Typed :=
  if cluster = [sign] then
    match typed.lengths with
    | [] => typed
    | length :: lengths => ⟨dropBytes length.toNat typed.reversed, lengths⟩
  else ⟨cluster.reverse ++ typed.reversed, byteLength cluster :: typed.lengths⟩

/-- A line as its backspaces leave it. The clusters are those of the line as it came in, in which no
    mark reaches across a backspace. -/
def apply (line : List Char) : List Char :=
  if line.contains sign then
    ((Text.clusters line).foldl Typed.read ⟨[], []⟩).reversed.reverse
  else line

end TableEngine.Backspace
