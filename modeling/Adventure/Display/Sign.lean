import Adventure.Display.Joining
import Adventure.Display.Wide
import Adventure.Text.Utf8

/-!
# Signs

A sign is what a reader sees as one: a character with all the characters that join it. Signs are
found among the bytes of a text, and each takes a number of columns.
-/

namespace Adventure.Display

/-- How many columns a character takes by itself. Two dashes are longer than wide characters. -/
def columnsOf (j : Joining) (c : Char) : Nat :=
  match j with
  | .control | .mark | .joiner => 0
  | .flagHalf => 2
  | .pictograph => if colourRanges.holds c.toNat then 2 else 1
  | _ =>
    if c.toNat = 0x2E3A then 3
    else if c.toNat = 0x2E3B then 4
    else if wideRanges.holds c.toNat then 2
    else 1

/-- What matters about a sign for what may join it. -/
inductive Ending where
  /-- only marks join it -/
  | complete
  /-- nothing joins it -/
  | closed
  /-- anything but a control joins it -/
  | expectant
  /-- the beginning of a Korean syllable -/
  | lead
  /-- a Korean syllable up to its vowel -/
  | vowel
  /-- a Korean syllable with its end -/
  | trail
  /-- a pictograph with its marks -/
  | pictograph
  /-- a pictograph and a joiner -/
  | joined
  /-- half of a flag -/
  | flagHalf
  deriving DecidableEq, Repr

namespace Ending

/-- The ending of a sign of one character. -/
def ofJoining : Joining → Ending
  | .control => closed
  | .prepended => expectant
  | .flagHalf => flagHalf
  | .lead => lead
  | .vowel | .openSyllable => vowel
  | .trail | .closedSyllable => trail
  | .pictograph => pictograph
  | .alone | .mark | .joiner | .spacingMark => complete

/-- The ending after one more character, or nothing if that character begins another sign. -/
def join : Ending → Joining → Option Ending
  | closed, _ => none
  | _, .control => none
  | lead, .lead => some lead
  | lead, .vowel => some vowel
  | lead, .openSyllable => some vowel
  | lead, .closedSyllable => some trail
  | vowel, .vowel => some vowel
  | vowel, .trail => some trail
  | trail, .trail => some trail
  | pictograph, .mark => some pictograph
  | pictograph, .joiner => some joined
  | joined, .pictograph => some pictograph
  | flagHalf, .flagHalf => some complete
  | _, .mark => some complete
  | _, .joiner => some complete
  | _, .spacingMark => some complete
  | expectant, j => some (ofJoining j)
  | _, _ => none

end Ending

/-- A sign as far as it is read. -/
structure Sign where
  /-- how its first character joins -/
  first : Joining
  ending : Ending
  /-- how many columns it takes -/
  width : Nat
  deriving DecidableEq, Repr

namespace Sign

/-- The sign of one character. -/
def ofChar (c : Char) : Sign :=
  let j := Joining.ofChar c
  ⟨j, .ofJoining j, columnsOf j c⟩

/-- The width of a sign after the character `c` has joined it. A pictograph keeps its width unless
it is told to be shown as text or in colour; flags and Korean syllables keep it always. -/
def widthWith (s : Sign) (c : Char) : Nat :=
  match s.first with
  | .pictograph => if c.toNat = 0xFE0E then 1 else if c.toNat = 0xFE0F then 2 else s.width
  | .flagHalf | .lead => s.width
  | _ => s.width + columnsOf (.ofChar c) c

/-- The sign with one more character, or nothing if that character begins another sign. -/
def push? (s : Sign) (c : Char) : Option Sign :=
  (s.ending.join (.ofChar c)).map fun ending => { s with ending, width := s.widthWith c }

/-- How many of the bytes after a sign still belong to it, and the width of the whole. -/
def extent (s : Sign) : List UInt8 → Nat × Nat
  | [] => (0, s.width)
  | a :: rest =>
    let (c, taken) := Text.leadingChar a rest
    match s.push? c with
    | none => (0, s.width)
    | some s =>
      let (more, width) := s.extent (rest.drop taken)
      (1 + taken + more, width)
termination_by bytes => bytes.length
decreasing_by simp only [List.length_drop, List.length_cons]; omega

/-- The sign at the front of the bytes `a :: rest`: how many bytes of `rest` belong to it, and its
width. -/
def leading (a : UInt8) (rest : List UInt8) : Nat × Nat :=
  let (c, taken) := Text.leadingChar a rest
  let (more, width) := (ofChar c).extent (rest.drop taken)
  (taken + more, width)

end Sign

end Adventure.Display
