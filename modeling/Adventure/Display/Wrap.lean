import Adventure.Display.Pen
import Adventure.Text.Lines

/-!
# Wrapping

A text that is too wide is broken at the spaces between its words, which are dropped, or after a
hyphen; a word that is too long for a row of its own is cut. Each row ends the pen and the link that
it was drawn with, and the next row begins them again.
-/

namespace Adventure.Display

/-- A text while it is being broken into rows. -/
structure Wrapping where
  /-- what is written, in reverse -/
  written : List UInt8
  /-- how many columns of the current row are taken -/
  column : Nat
  /-- how many spaces come after it -/
  gap : Nat
  /-- the word after those, in reverse -/
  word : List UInt8
  /-- how many columns the word takes -/
  wordWidth : Nat
  /-- the pen as it was set last -/
  pen : Pen
  /-- the link as it was set last -/
  link : Link
  /-- the pen of what is written -/
  writtenPen : Pen
  /-- the link of what is written -/
  writtenLink : Link
  deriving DecidableEq, Repr

namespace Wrapping

/-- The state before the first element. -/
def start : Wrapping := ⟨[], 0, 0, [], 0, .plain, .none, .plain, .none⟩

/-- Writes some bytes. -/
def write (w : Wrapping) (bytes : List UInt8) : Wrapping :=
  { w with written := bytes.reverse ++ w.written }

/-- Writes the pending spaces. -/
def putGap (w : Wrapping) : Wrapping :=
  { w.write (.replicate w.gap 0x20) with column := w.column + w.gap, gap := 0 }

/-- Writes the pending word, if there is one, after the pending spaces. -/
def putWord (w : Wrapping) : Wrapping :=
  if w.word.isEmpty then w
  else
    let w := w.putGap
    { w with
      written := w.word ++ w.written, column := w.column + w.wordWidth, word := [], wordWidth := 0
      writtenPen := w.pen, writtenLink := w.link }

/-- Goes on with the next row, which drops the pending spaces. -/
def breakRow (w : Wrapping) : Wrapping :=
  let w := w.write (w.writtenPen.finish ++ w.writtenLink.finish ++ [Text.lineFeed] ++
    w.writtenLink.begin ++ w.writtenPen.begin)
  { w with column := 0, gap := 0 }

/-- Writes what is pending at the end of a line. Spaces at the end stay if they fit. -/
def endLine (width : Nat) (w : Wrapping) : Wrapping :=
  let w :=
    if w.wordWidth ≠ 0 then w
    else if width < w.column + w.gap then { w with column := 0, gap := 0 }
    else { w.write (.replicate w.gap 0x20) with gap := 0 }
  w.putWord

/-- Takes an element that takes no column. -/
def takeSilent (width : Nat) (w : Wrapping) (e : Element) : Wrapping :=
  if e.bytes = [Text.lineFeed] then (w.endLine width).breakRow
  else
    let w := { w with word := e.bytes.reverse ++ w.word }
    match e.effect with
    | .none => w
    | .pen parameters => { w with pen := w.pen.applyAll parameters }
    | .link data => { w with link := w.link.read data }

/-- Takes an element of a word. -/
def takeSign (width : Nat) (w : Wrapping) (e : Element) : Wrapping :=
  let w := if width < w.wordWidth + e.width then w.putWord else w
  let w := { w with word := e.bytes.reverse ++ w.word, wordWidth := w.wordWidth + e.width }
  if width < w.column + w.wordWidth + w.gap then w.breakRow else w

/-- Takes the next element. -/
def take (width : Nat) (w : Wrapping) (e : Element) : Wrapping :=
  if e.width = 0 then w.takeSilent width e
  else if e.bytes = [0x20] then { w.putWord with gap := w.putWord.gap + 1 }
  else if e.bytes = [0x2D] then
    let w := w.putGap
    if w.column + w.wordWidth + 1 ≤ width then
      let w := w.putWord
      { w.write e.bytes with column := w.column + 1 }
    else w.takeSign width e
  else w.takeSign width e

/-- The text, when there are no more elements. Here the link is ended before the pen. -/
def finish (width : Nat) (w : Wrapping) : List UInt8 :=
  let w := w.endLine width
  (w.write (w.writtenLink.finish ++ w.writtenPen.finish)).written.reverse

end Wrapping

/-- A text broken into rows of the given width. -/
def wrapped (width : Nat) (bytes : List UInt8) : List UInt8 :=
  ((elements bytes).foldl (Wrapping.take width) .start).finish width

end Adventure.Display
