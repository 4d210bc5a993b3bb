/-!
The UTF-8 forms of characters, gathered. Characters that follow one another often differ in the last
byte alone and then share a form, which is a range of bytes for each place.
-/

namespace TableEngine.Text

/-- The bytes from the first to the last. -/
structure ByteRange where
  first : UInt8
  last : UInt8
  deriving DecidableEq

/-- The ranges from which the bytes of a character come, one after the other. -/
abbrev ByteForm :=
  List ByteRange

namespace ByteForm

/-- The forms of all characters, in rising order. -/
def anyCharacter : List ByteForm := [
  [⟨0x00, 0x7F⟩],
  [⟨0xC2, 0xDF⟩, ⟨0x80, 0xBF⟩],
  [⟨0xE0, 0xE0⟩, ⟨0xA0, 0xBF⟩, ⟨0x80, 0xBF⟩],
  [⟨0xE1, 0xEC⟩, ⟨0x80, 0xBF⟩, ⟨0x80, 0xBF⟩],
  [⟨0xED, 0xED⟩, ⟨0x80, 0x9F⟩, ⟨0x80, 0xBF⟩],
  [⟨0xEE, 0xEF⟩, ⟨0x80, 0xBF⟩, ⟨0x80, 0xBF⟩],
  [⟨0xF0, 0xF0⟩, ⟨0x90, 0xBF⟩, ⟨0x80, 0xBF⟩, ⟨0x80, 0xBF⟩],
  [⟨0xF1, 0xF3⟩, ⟨0x80, 0xBF⟩, ⟨0x80, 0xBF⟩, ⟨0x80, 0xBF⟩],
  [⟨0xF4, 0xF4⟩, ⟨0x80, 0x8F⟩, ⟨0x80, 0xBF⟩, ⟨0x80, 0xBF⟩]]

/-- Whether `d` comes right after `c` and differs from it in the last byte alone. -/
def follows (c d : Char) : Bool :=
  c.toNat + 1 == d.toNat &&
    (String.utf8EncodeChar c).dropLast == (String.utf8EncodeChar d).dropLast

/-- Cuts characters in rising order into runs that share a form, each given by its ends. -/
def runs : List Char → List (Char × Char)
  | [] => []
  | c :: rest =>
    match runs rest with
    | (first, last) :: others =>
      if follows c first then (c, last) :: others else (c, c) :: (first, last) :: others
    | [] => [(c, c)]

/-- The form that a run of characters shares. -/
def ofRun (first last : Char) : ByteForm :=
  List.zipWith ByteRange.mk (String.utf8EncodeChar first) (String.utf8EncodeChar last)

/-- The forms of several characters, in rising order. -/
def ofChars (cs : List Char) : List ByteForm :=
  (runs (cs.mergeSort fun c d => c.toNat ≤ d.toNat)).map fun (first, last) => ofRun first last

end ByteForm

end TableEngine.Text
