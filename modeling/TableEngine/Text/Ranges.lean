/-!
Sets of characters as ranges of code points, the shape in which character data comes.
-/

namespace TableEngine.Text

/-- Whether a character lies in one of the ranges, both ends included. -/
def inRanges (ranges : List (Nat × Nat)) (c : Char) : Bool :=
  ranges.any fun (first, last) => first ≤ c.toNat && c.toNat ≤ last

end TableEngine.Text
