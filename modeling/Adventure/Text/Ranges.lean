/-!
# Sets of characters given by ranges

A property of characters is listed as the ranges of code points that have it, in ascending order.
The tables of letters and of printable characters are such lists; they start above the ASCII
characters, which each property treats by a rule of its own.
-/

namespace Adventure.Text

/-- Ranges of code points, both ends included, in ascending order. -/
abbrev Ranges : Type := List (Nat × Nat)

/-- Whether the code point `n` lies in one of the ranges. As they ascend, the search stops at the
first range that begins above `n`. -/
def Ranges.holds : Ranges → Nat → Bool
  | [], _ => false
  | (low, high) :: more, n =>
    if n < low then false else if n ≤ high then true else Ranges.holds more n

end Adventure.Text
