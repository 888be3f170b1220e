/-!
# Ranges of code points

A class of characters is a list of ranges of code points. It is given by how many code points lie in front of the
first range, in it, between it and the next one, in that one, and so on.
-/

namespace ColumnFlow.Text

def inRanges : List Nat → Nat → Bool
  | outside :: inside :: rest, n =>
    if n < outside + inside then outside ≤ n else inRanges rest (n - (outside + inside))
  | _, _ => false

end ColumnFlow.Text
