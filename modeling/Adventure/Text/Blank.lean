/-!
# Blanks

Blanks separate the words of a program and are trimmed from the ends of what is typed.
-/

namespace Adventure.Text

/-- Whether `c` is a blank: one of the six ASCII blanks, the next-line control, or a space of
another kind. -/
def isBlank (c : Char) : Bool :=
  let n := c.toNat
  (9 ≤ n && n ≤ 13) || n == 0x20 || n == 0x85 || n == 0xA0 || n == 0x1680 ||
    (0x2000 ≤ n && n ≤ 0x200A) || n == 0x2028 || n == 0x2029 || n == 0x202F || n == 0x205F ||
    n == 0x3000

/-- `cs` without the blanks at its front and at its end. -/
def trimmed (cs : List Char) : List Char :=
  ((cs.dropWhile isBlank).reverse.dropWhile isBlank).reverse

end Adventure.Text
