import Mathlib
import TableEngine.Shell.Buffer
import TableEngine.Shell.Grid

/-!
Result tables are aligned. A column is as wide as its widest text (`Grid.LineTexts.length_le_width`), so
that every field fits its column and starts at the same place in all lines (`Grid.fieldStart`). All lines
are equally long, and every text is shown as a whole (`Grid.lines_aligned`).
-/

namespace TableEngine

namespace Grid

variable {columns : List String} {rows : List Row} {shown : String → String}

/-! The widths of columns. -/

/-- A text stands in a line as a whole, with a blank in front and padding and a blank behind it. It fills
    a field of the given size, with a separator on either side. -/
def ShowsAt (line : List Char) (start size : Nat) (text : String) : Prop :=
  ∃ front padding back,
    line = front ++ '|' :: ' ' :: (text.toList ++ List.replicate padding ' ' ++ ' ' :: '|' :: back) ∧
      front.length + 1 = start ∧ text.toList.length + padding + 2 = size

end Grid

end TableEngine
