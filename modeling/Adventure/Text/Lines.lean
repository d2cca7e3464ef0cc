import Adventure.Text.Utf8

/-!
# Lines of a text

A line ends with a line feed, and a carriage return in front of the line feed belongs to the end.

A stream of bytes is read through a buffer that holds only so many of them. A line that does not fit
is handed out in pieces, each of which fills the buffer. A piece never ends with a carriage return,
since a line feed may follow: the carriage return begins the next piece.
-/

namespace Adventure.Text

/-- The lines of a text that starts with `line`, read so far in reverse. The last one is what
follows the last line end, and may be empty. -/
def linesFrom (line : List Char) : List Char → List (List Char)
  | [] => [line.reverse]
  | '\r' :: '\n' :: cs => line.reverse :: linesFrom [] cs
  | '\n' :: cs => line.reverse :: linesFrom [] cs
  | c :: cs => linesFrom (c :: line) cs

/-- The parts of a text between its line ends. -/
def lines (cs : List Char) : List (List Char) :=
  linesFrom [] cs

/-- The byte of a line feed. -/
def lineFeed : UInt8 := 0x0A

/-- The byte of a carriage return. -/
def carriageReturn : UInt8 := 0x0D

/-- How many bytes the buffer holds. -/
def capacity : Nat := 4096

/-- What is handed out at once when a stream is read. -/
structure Piece where
  bytes : List UInt8
  /-- whether the line ends with this piece -/
  ends : Bool
  deriving DecidableEq, Repr

/-- The text of a piece. -/
def Piece.text (p : Piece) : String :=
  .ofList (decodeUtf8 p.bytes)

/-- A line, in reverse, without a carriage return at its end. -/
def withoutReturn : List UInt8 → List UInt8
  | [] => []
  | b :: line => if b = carriageReturn then line else b :: line

/-- The pieces of a stream that starts with `line`, read so far in reverse, when the buffer has
`room` for more bytes. What follows the last line end is a piece unless it is empty. -/
def piecesFrom (room : Nat) (line : List UInt8) : List UInt8 → List Piece
  | [] => if line.isEmpty then [] else [⟨line.reverse, true⟩]
  | b :: bs =>
    if b = lineFeed then ⟨(withoutReturn line).reverse, true⟩ :: piecesFrom capacity [] bs
    else if 1 < room then piecesFrom (room - 1) (b :: line) bs
    else if b = carriageReturn then
      ⟨line.reverse, false⟩ :: piecesFrom (capacity - 1) [carriageReturn] bs
    else ⟨(b :: line).reverse, false⟩ :: piecesFrom capacity [] bs

/-- The pieces of a stream. -/
def pieces (s : String) : List Piece :=
  piecesFrom capacity [] (encodeUtf8 s.toList)

/-- The lines of a stream as they are handed out. -/
def streamLines (s : String) : List String :=
  (pieces s).map Piece.text

end Adventure.Text
