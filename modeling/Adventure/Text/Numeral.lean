import Adventure.Text.Quoted

/-!
# Numerals

Reading whole numbers of a given number of bits. A numeral is read from the left and refused at the
first character that decides: one that is no digit makes it malformed, one that carries the
magnitude past that many bits puts it out of range.

Two notations are in use. The decimal one has an optional sign and decimal digits. The prefixed
one also takes a base from the front (`0x`, `0o`, `0b`, or a bare `0` for octal) and allows low
lines between digits.
-/

namespace Adventure.Text

namespace Numeral

/-- Why a numeral is refused. -/
inductive Fault where
  /-- it has a character that does not belong there, or no digits -/
  | malformed
  /-- its value does not fit -/
  | outOfRange
  deriving DecidableEq, Repr

/-- The fault in words. -/
def Fault.message : Fault → String
  | malformed => "invalid syntax"
  | outOfRange => "value out of range"

/-- The value of a digit in bases up to 36, letters of either case counting on from ten. -/
def digit? (c : Char) : Option Nat :=
  if '0' ≤ c ∧ c ≤ '9' then some (c.toNat - '0'.toNat)
  else if 'a' ≤ c ∧ c ≤ 'z' then some (c.toNat - 'a'.toNat + 10)
  else if 'A' ≤ c ∧ c ≤ 'Z' then some (c.toNat - 'A'.toNat + 10)
  else none

/-- The magnitude, of at most so many bits, that digits write in `base` after digits worth
`value`. -/
def magnitudeFrom (bits base value : Nat) : List Char → Except Fault Nat
  | [] => .ok value
  | c :: more =>
    match digit? c with
    | none => .error .malformed
    | some d =>
      if base ≤ d then .error .malformed
      else if Nat.pow 2 bits ≤ value * base + d then .error .outOfRange
      else magnitudeFrom bits base (value * base + d) more

/-- The number of magnitude `n` with or without a minus sign, if it fits so many bits. -/
def signed (bits : Nat) (negative : Bool) (n : Nat) : Except Fault Int64 :=
  if negative then
    if n ≤ Nat.pow 2 (bits - 1) then .ok (Int64.ofInt (-n)) else .error .outOfRange
  else
    if n < Nat.pow 2 (bits - 1) then .ok (Int64.ofInt n) else .error .outOfRange

/-- Whether a minus sign stands in front, and what follows the sign. -/
def splitSign : List Char → Bool × List Char
  | '+' :: cs => (false, cs)
  | '-' :: cs => (true, cs)
  | cs => (false, cs)

/-- Reads a decimal numeral of at most so many bits, of which there are no more than 64. -/
def decimalWithin (bits : Nat) (text : String) : Except Fault Int64 := do
  let (negative, digits) := splitSign text.toList
  if digits.isEmpty then throw .malformed
  signed bits negative (← magnitudeFrom bits 10 0 digits)

/-- Reads a decimal numeral. -/
def decimal (text : String) : Except Fault Int64 :=
  decimalWithin 64 text

/-- The base that the front of a numeral names, and what follows it. A base mark counts only with
something after it. -/
def splitBase : List Char → Nat × List Char
  | '0' :: mark :: c :: cs =>
    match mark.toLower with
    | 'b' => (2, c :: cs)
    | 'o' => (8, c :: cs)
    | 'x' => (16, c :: cs)
    | _ => (8, mark :: c :: cs)
  | '0' :: cs => (8, cs)
  | cs => (10, cs)

/-- Whether every low line in `cs` follows a digit and precedes one, given whether a digit stands
before `cs`. -/
def lowLinesFit (afterDigit : Bool) : List Char → Bool
  | [] => true
  | '_' :: c :: cs => afterDigit && c != '_' && lowLinesFit true cs
  | ['_'] => false
  | _ :: cs => lowLinesFit true cs

/-- Reads a numeral that may name its base and may hold low lines between digits. -/
def prefixed (text : String) : Except Fault Int64 := do
  let (negative, written) := splitSign text.toList
  if written.isEmpty then throw .malformed
  let (base, digits) := splitBase written
  let n ← magnitudeFrom 64 base 0 (digits.filter (· != '_'))
  if !lowLinesFit (base != 10) digits then throw .malformed
  signed 64 negative n

/-- The message of a reader, named by `reader`, that refuses `text`. -/
def refusal (reader text : String) (fault : Fault) : String :=
  s!"strconv.{reader}: parsing {quoted text}: {fault.message}"

end Numeral

end Adventure.Text
