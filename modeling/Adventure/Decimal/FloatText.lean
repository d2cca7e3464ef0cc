import Adventure.Decimal.Shortest

/-!
# Floating point numbers as text

A number is written with the fewest digits that read back. It is written with a point if its first
digit stands for a power of ten from `-4` to `5`, and with an exponent of at least two digits
otherwise. A number written with a point always has a digit after it.
-/

namespace Adventure

namespace FloatText

/-- The exponents of ten of the first digit for which a number is written without an exponent: from
the first of the two up to, but without, the second. -/
def plainExponents : Int × Int := (-4, 6)

/-- The parts of the bits of a number: whether it is negative, its biased exponent, and its
fraction. -/
def parts (x : Float) : Bool × Nat × Nat :=
  let bits := x.toBits.toNat
  (Nat.pow 2 63 ≤ bits, bits / Nat.pow 2 52 % Nat.pow 2 11, bits % Nat.pow 2 52)

/-- The magnitude of a finite number that is not zero, from the parts of its bits. -/
def magnitude (exponent fraction : Nat) : Binary :=
  if exponent = 0 then ⟨fraction, -1074, false⟩
  else ⟨Nat.pow 2 52 + fraction, exponent - 1075, fraction = 0 ∧ 1 < exponent⟩

/-- Digits with a point, where the first digit stands for `10 ^ first`. -/
def plain (digits : List Char) (first : Int) : List Char :=
  if first < 0 then
    '0' :: '.' :: (List.replicate (-first - 1).toNat '0' ++ digits)
  else
    let before := first.toNat + 1
    let whole := digits.take before ++ List.replicate (before - digits.length) '0'
    match digits.drop before with
    | [] => whole ++ ['.', '0']
    | fraction => whole ++ '.' :: fraction

/-- Digits with an exponent, where the first digit stands for `10 ^ first`. -/
def exponential (digits : List Char) (first : Int) : List Char :=
  let mantissa :=
    match digits with
    | d :: e :: more => d :: '.' :: e :: more
    | _ => digits
  let power := Nat.toDigits 10 first.natAbs
  mantissa ++ 'e' :: (if first < 0 then '-' else '+') ::
    (List.replicate (2 - power.length) '0' ++ power)

/-- A number as text. -/
def ofFloat (x : Float) : String :=
  let (negative, exponent, fraction) := parts x
  let sign := if negative then ['-'] else []
  if exponent = 2047 then
    if fraction = 0 then (if negative then "-Inf" else "+Inf") else "NaN"
  else if exponent = 0 ∧ fraction = 0 then
    String.ofList (sign ++ ['0', '.', '0'])
  else
    let (digits, first) := (magnitude exponent fraction).shortest.significant
    let body :=
      if plainExponents.1 ≤ first ∧ first < plainExponents.2 then plain digits first
      else exponential digits first
    String.ofList (sign ++ body)

end FloatText

end Adventure
