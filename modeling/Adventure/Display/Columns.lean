import Adventure.Display.Element

/-!
# Columns

How many columns a row takes, and the part of a row that fits into a number of columns. A row is
read byte by byte in one of a few modes. Signs and plain characters take columns; everything that a
terminal obeys instead of showing it takes none.

Here a sequence is not broken off by a byte that it cannot contain, and only commands and device
strings can hold characters beyond ASCII: elsewhere such a character ends the sequence and is shown.
-/

namespace Adventure.Display

/-- Where in a sequence a row is. -/
inductive Mode where
  /-- in no sequence -/
  | ground
  /-- after an escape -/
  | escape
  /-- after an escape and an intermediate byte -/
  | escapeBetween
  /-- among the parameters of a control sequence -/
  | control
  /-- after an intermediate byte of a control sequence -/
  | controlBetween
  /-- in a command -/
  | command
  /-- at the beginning of a device control sequence -/
  | device
  /-- among the parameters of a device control sequence -/
  | deviceNumbers
  /-- after an intermediate byte of a device control sequence -/
  | deviceBetween
  /-- in the string of a device control sequence -/
  | deviceString
  /-- in another string -/
  | message
  deriving DecidableEq, Repr

namespace Mode

/-- Whether a sign that is not ASCII begins with the byte `b`. -/
def startsSign (m : Mode) (b : UInt8) : Bool :=
  0xC2 ≤ b && b ≤ 0xF4 && m ≠ command && m ≠ deviceString

/-- Whether the byte `b` is shown as it is. -/
def shows (m : Mode) (b : UInt8) : Bool :=
  m = ground && 0x20 ≤ b && b ≤ 0x7E

/-- The mode after a byte beyond ASCII that is not part of a string. -/
def ofHigh (b : UInt8) : Mode :=
  if b = 0x90 then device
  else if b = 0x98 || b = 0x9E || b = 0x9F then message
  else if b = 0x9B then control
  else if b = 0x9D then command
  else ground

/-- Whether `b` is an ASCII control that does not end a sequence. -/
def isPassing (b : UInt8) : Bool := b < 0x20 || b = 0x7F

/-- The mode after the ASCII byte `b`. -/
def ofAscii (m : Mode) (b : UInt8) : Mode :=
  match m with
  | ground => ground
  | escape =>
    if isPassing b then escape
    else if isIntermediate b then escapeBetween
    else if b = 0x5B then control
    else if b = 0x5D then command
    else if b = 0x50 then device
    else if b = 0x58 || b = 0x5E || b = 0x5F then message
    else ground
  | escapeBetween => if isPassing b || isIntermediate b then escapeBetween else ground
  | control =>
    if isPassing b || isNumeric b || isMarker b then control
    else if isIntermediate b then controlBetween
    else ground
  | controlBetween => if isPassing b || isIntermediate b then controlBetween else ground
  | command => if b = 0x07 then ground else command
  | device =>
    if 0x08 ≤ b && b ≤ 0x0D then deviceString
    else if isPassing b then device
    else if isIntermediate b then deviceBetween
    else if isFinal b then deviceString
    else deviceNumbers
  | deviceNumbers =>
    if isPassing b || isNumeric b || isMarker b then deviceNumbers
    else if isIntermediate b then deviceBetween
    else deviceString
  | deviceBetween => if isPassing b || isIntermediate b then deviceBetween else deviceString
  | deviceString => deviceString
  | message => message

/-- The mode after the byte `b`. -/
def next (m : Mode) (b : UInt8) : Mode :=
  if b = 0x18 || b = 0x1A || b = 0x9C then ground
  else if b = escapeByte then (if m = device then deviceString else escape)
  else if b < 0x80 then m.ofAscii b
  else if m = command || m = deviceString then m
  else ofHigh b

/-- The columns that a row takes from a mode on. -/
def columns (m : Mode) : List UInt8 → Nat
  | [] => 0
  | b :: rest =>
    if m.startsSign b then
      let (more, width) := Sign.leading b rest
      width + ground.columns (rest.drop more)
    else (if m.shows b then 1 else 0) + (m.next b).columns rest
termination_by bytes => bytes.length
decreasing_by all_goals simp only [List.length_drop, List.length_cons]; omega

/-- The part of a row, from a mode on, that fits into the columns `room`. After the first sign that
does not fit no sign is kept, but everything that takes no column by itself is, as it may be needed
to end what was begun. -/
def fitting (m : Mode) (room : Option Nat) : List UInt8 → List UInt8
  | [] => []
  | b :: rest =>
    if m.startsSign b then
      let (more, width) := Sign.leading b rest
      match room with
      | none => m.fitting none (rest.drop more)
      | some n =>
        if width ≤ n then b :: rest.take more ++ ground.fitting (some (n - width)) (rest.drop more)
        else m.fitting none (rest.drop more)
    else if m.shows b then
      match room with
      | none | some 0 => m.fitting none rest
      | some (n + 1) => b :: m.fitting (some n) rest
    else b :: (m.next b).fitting room rest
termination_by bytes => bytes.length
decreasing_by all_goals simp only [List.length_drop, List.length_cons]; omega

end Mode

/-- How many columns a row takes. -/
def columns (row : List UInt8) : Nat :=
  Mode.ground.columns row

/-- The part of a row that fits into the given number of columns. -/
def fitting (width : Nat) (row : List UInt8) : List UInt8 :=
  if columns row ≤ width then row else Mode.ground.fitting (some width) row

end Adventure.Display
