/-!
# The fewest digits that read back

A binary floating point number stands for an interval of reals: all those that are closer to it
than to its neighbours, and those halfway between if its significand is even. Of the decimal
numbers in that interval, the ones with the fewest digits are wanted, and of those the one closest
to the number itself.

All comparisons are made between natural numbers, so nothing is rounded on the way.
-/

namespace Adventure

/-- The number `significand * 2 ^ exponent`. -/
structure Binary where
  significand : Nat
  exponent : Int
  /-- whether the neighbour below is only half as far as the one above -/
  narrow : Bool
  deriving DecidableEq, Repr

/-- The number `digits * 10 ^ exponent`. -/
structure Decimal where
  digits : Nat
  exponent : Int
  deriving DecidableEq, Repr

namespace Binary

/-- The factors `(a, b)` with which `d * 10 ^ grid` and `x * 2 ^ scale` compare as `d * a` and
`x * b` do. -/
def factors (scale grid : Int) : Nat × Nat :=
  (Nat.pow 10 grid.toNat * Nat.pow 2 (-scale).toNat,
    Nat.pow 2 scale.toNat * Nat.pow 10 (-grid).toNat)

/-- Whether `d * 10 ^ grid` lies in the interval that the number stands for. The number and the
ends of the interval are counted in quarters of its last place. -/
def admits (x : Binary) (grid : Int) (d : Nat) : Bool :=
  let (a, b) := factors (x.exponent - 2) grid
  let low := 4 * x.significand - if x.narrow then 1 else 2
  let high := 4 * x.significand + 2
  if x.significand % 2 = 0 then low * b ≤ d * a && d * a ≤ high * b
  else low * b < d * a && d * a < high * b

/-- The multiple of `10 ^ grid` that is closest to the number among those next to it that its
interval holds; between two at the same distance, the even one. -/
def nearest? (x : Binary) (grid : Int) : Option Decimal :=
  let (a, b) := factors (x.exponent - 2) grid
  let value := 4 * x.significand * b
  let below := value / a
  let above := below + 1
  let pick :=
    match x.admits grid below, x.admits grid above with
    | true, true =>
      if 2 * value < (below + above) * a then some below
      else if (below + above) * a < 2 * value then some above
      else some (if below % 2 = 0 then below else above)
    | true, false => some below
    | false, true => some above
    | false, false => none
  pick.map fun d => ⟨d, grid⟩

/-- Whether the number is below `10 ^ k`. -/
def below (x : Binary) (k : Int) : Bool :=
  let (a, b) := factors x.exponent k
  x.significand * b < a

/-- The number of digits before the point: the least `k` such that the number is below `10 ^ k`.
The binary logarithm tells it up to one. -/
def scale (x : Binary) : Int :=
  let guess := ((x.significand.log2 : Int) + x.exponent) * 30103 / 100000
  if x.below (guess - 1) then guess - 1
  else if x.below guess then guess
  else if x.below (guess + 1) then guess + 1
  else guess + 2

/-- The number itself in decimal. -/
def exact (x : Binary) : Decimal :=
  if 0 ≤ x.exponent then ⟨x.significand * Nat.pow 2 x.exponent.toNat, 0⟩
  else ⟨x.significand * Nat.pow 5 (-x.exponent).toNat, x.exponent⟩

/-- The decimal number with the fewest digits that reads back as the number. Seventeen digits are
always enough. -/
def shortest (x : Binary) : Decimal :=
  let k := x.scale
  ((List.range 17).findSome? fun (n : Nat) => x.nearest? (k - (n + 1))).getD x.exact

end Binary

namespace Decimal

/-- The digits without trailing zeros, and the exponent of ten of the first digit. At most `fuel`
zeros are removed. -/
def significantFrom (fuel : Nat) (d : Decimal) : List Char × Int :=
  match fuel with
  | fuel + 1 =>
    if d.digits ≠ 0 ∧ d.digits % 10 = 0 then
      significantFrom fuel ⟨d.digits / 10, d.exponent + 1⟩
    else
      let cs := Nat.toDigits 10 d.digits
      (cs, d.exponent + cs.length - 1)
  | 0 =>
    let cs := Nat.toDigits 10 d.digits
    (cs, d.exponent + cs.length - 1)

/-- The digits without trailing zeros, and the exponent of ten of the first digit. -/
def significant (d : Decimal) : List Char × Int :=
  d.significantFrom (Nat.toDigits 10 d.digits).length

end Decimal

end Adventure
