import Adventure.Chance.Table
import Adventure.Fault

/-!
# Chance

Dice are rolled with a generator that adds up two places of a ring of words. The same seed always
gives the same rolls.

A number below a bound is drawn by rejection: draws that would favour small numbers are thrown away
and drawn again. Nothing but the words themselves says that this ends, so a draw makes only so many
attempts, and a draw that never succeeded has no result.
-/

namespace Adventure

/-- A generator of random words: a ring of words and two places in it. -/
structure Generator where
  words : Array UInt64
  tap : Nat
  feed : Nat
  deriving DecidableEq, Repr

namespace Generator

/-- The number of words in the ring. -/
def size : Nat := 607

/-- The distance of the two places at the start. -/
def lag : Nat := 273

/-- The modulus of the small generator that fills the ring. -/
def modulus : Nat := Nat.pow 2 31 - 1

/-- The next number of the small generator that fills the ring. -/
def stir (x : Nat) : Nat :=
  48271 * x % modulus

/-- The small generator after `n` steps. -/
def stirTimes : Nat → Nat → Nat
  | 0, x => x
  | n + 1, x => stirTimes n (stir x)

/-- The number that the small generator starts from. Zero is a fixed point, so another number
stands for it. -/
def startOf (seed : Int64) : Nat :=
  let s := (seed.toInt % (modulus : Int)).toNat
  if s = 0 then 89482311 else s

/-- The words of the ring, each made of three numbers of the small generator and a word of the
table. -/
def fill : List UInt64 → Nat → Array UInt64 → Array UInt64
  | [], _, words => words
  | start :: more, x, words =>
    let a := stir x
    let b := stir a
    let c := stir b
    fill more c (words.push (start ^^^ a.toUInt64 <<< 40 ^^^ b.toUInt64 <<< 20 ^^^ c.toUInt64))

/-- The generator that a seed starts. -/
def ofSeed (seed : Int64) : Generator :=
  ⟨fill startingWords.toList (stirTimes 20 (startOf seed)) #[], 0, size - lag⟩

/-- The place before `i` in the ring. -/
def back (i : Nat) : Nat :=
  if i = 0 then size - 1 else i - 1

/-- The next word. -/
def word (g : Generator) : UInt64 × Generator :=
  let tap := back g.tap
  let feed := back g.feed
  let x := g.words.getD feed 0 + g.words.getD tap 0
  (x, ⟨g.words.setIfInBounds feed x, tap, feed⟩)

/-- The next number of 63 bits. -/
def bits63 (g : Generator) : Nat × Generator :=
  let (x, g) := g.word
  ((x &&& 0x7fffffffffffffff).toNat, g)

/-- The next number of 31 bits. -/
def bits31 (g : Generator) : Nat × Generator :=
  let (x, g) := g.bits63
  (x / Nat.pow 2 32, g)

/-- The first number below `limit` that `draw` gives within so many attempts. -/
def drawBelow (draw : Generator → Nat × Generator) (limit : Nat) :
    (attempts : Nat) → Generator → Option (Nat × Generator)
  | 0, _ => none
  | attempts + 1, g =>
    let (x, g) := draw g
    if x < limit then some (x, g) else drawBelow draw limit attempts g

/-- The greatest multiple of `n` up to `range`. -/
def lastMultiple (range n : Nat) : Nat :=
  range - range % n

/-- A number below `n`, for a positive `n` below `2 ^ 63`. -/
def below (attempts n : Nat) (g : Generator) : Option (Nat × Generator) :=
  let (draw, range) := if n < Nat.pow 2 31 then (bits31, Nat.pow 2 31) else (bits63, Nat.pow 2 63)
  (drawBelow draw (lastMultiple range n) attempts g).map fun (x, g) => (x % n, g)

/-- The sum of `count` dice with `faces` faces each, added to `total`. -/
def rollFrom (attempts faces : Nat) : (count : Nat) → Int64 → Generator → Option (Int64 × Generator)
  | 0, total, g => some (total, g)
  | count + 1, total, g =>
    match g.below attempts faces with
    | none => none
    | some (x, g) => rollFrom attempts faces count (total + Int64.ofNat (x + 1)) g

/-- The sum of some dice, if there are such dice. -/
def roll (attempts : Nat) (d : Dice) (g : Generator) : Except Fault (Option (Int64 × Generator)) :=
  if d.faces ≤ 0 || d.count < 0 then .error (.impossibleDice d)
  else .ok (rollFrom attempts d.faces.toInt.toNat d.count.toInt.toNat 0 g)

end Generator

end Adventure
