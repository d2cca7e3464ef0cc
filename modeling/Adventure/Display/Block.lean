import Adventure.Display.Columns
import Adventure.Display.Wrap

/-!
# Blocks of rows

Rows that are shown one below the other, filled up with spaces so that all are equally wide.
-/

namespace Adventure.Display

/-- Four spaces stand for a tab. -/
def untabbed (cs : List Char) : List Char :=
  cs.flatMap fun c => if c = '\t' then [' ', ' ', ' ', ' '] else [c]

/-- Lines of characters as one list of bytes. -/
def bytesOf (lines : List (List Char)) : List UInt8 :=
  Text.encodeUtf8 (['\n'].intercalate lines)

/-- The rows of a text. -/
def rowsOf (bytes : List UInt8) : List (List UInt8) :=
  parts Text.lineFeed bytes

/-- Rows one below the other. -/
def shown (rows : List (List UInt8)) : String :=
  .ofList (Text.decodeUtf8 ([Text.lineFeed].intercalate rows))

/-- A row filled up with spaces to the given width. -/
def padded (width : Nat) (row : List UInt8) : List UInt8 :=
  row ++ .replicate (width - columns row) 0x20

/-- The width of the widest row. -/
def widest (rows : List (List UInt8)) : Nat :=
  rows.foldl (fun n row => max n (columns row)) 0

/-- Rows filled up to the same width, at least the given one. A single row stays as it is if no
width is given. -/
def block (width : Nat) (rows : List (List UInt8)) : List (List UInt8) :=
  if rows.length ≤ 1 ∧ width = 0 then rows else rows.map (padded (max width (widest rows)))

/-- A text whose lines are filled up to the same width. -/
def framed (s : String) : String :=
  shown (block 0 (rowsOf (bytesOf (Text.lines (untabbed s.toList)))))

end Adventure.Display
