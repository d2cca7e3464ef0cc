import Adventure.Display.Sign

/-!
# Elements of a displayed text

A text for a terminal is made of signs, of controls, and of sequences that begin with an escape or
with one of the single bytes that stand for an escape and a letter. Sequences take no column. Two of
them matter here: one sets the pen that draws what follows, the other makes it a link.

A sequence that is broken off by a byte it cannot contain ends before that byte.
-/

namespace Adventure.Display

/-- The byte that begins sequences. -/
def escapeByte : UInt8 := 0x1B

/-- A number among the parameters of a sequence. -/
structure Parameter where
  /-- zero if the number is missing -/
  value : Nat
  /-- whether the next number belongs to this one -/
  more : Bool
  deriving DecidableEq, Repr

/-- What a sequence does to the text after it. -/
inductive Effect where
  | none
  /-- it changes the pen -/
  | pen (parameters : List Parameter)
  /-- it begins or ends a link -/
  | link (data : List UInt8)
  deriving DecidableEq, Repr

/-- A part of a displayed text that is not divided. -/
structure Element where
  bytes : List UInt8
  /-- how many columns it takes -/
  width : Nat
  effect : Effect
  deriving DecidableEq, Repr

/-- The parts of a list of bytes between the separators, when it starts with `part`, read so far in
reverse. -/
def partsFrom (separator : UInt8) (part : List UInt8) : List UInt8 → List (List UInt8)
  | [] => [part.reverse]
  | b :: bs =>
    if b = separator then part.reverse :: partsFrom separator [] bs
    else partsFrom separator (b :: part) bs

/-- The parts of a list of bytes between the separators. -/
def parts (separator : UInt8) (bytes : List UInt8) : List (List UInt8) :=
  partsFrom separator [] bytes

namespace Parameter

/-- The word that stands for a missing number. -/
def missing : Nat := 0x7FFFFFFF

/-- The word that holds the number with the given digits. Words have 64 bits. -/
def word (digits : List UInt8) : Nat :=
  digits.foldl
    (fun n d => ((if n = missing then 0 else n) * 10 + (d.toNat - 0x30)) % 0x10000000000000000)
    missing

/-- The parameter that a word holds: the low 31 bits are the number, and any bit above them says
that the next number belongs to it, as a colon does. -/
def ofWord (n : Nat) (colon : Bool) : Parameter :=
  let low := n % 0x80000000
  ⟨if low = missing then 0 else low, colon || 0x80000000 ≤ n⟩

/-- The parameters that bytes spell, when `digits` of a number have been read, in reverse. -/
def listFrom (digits : List UInt8) : List UInt8 → List Parameter
  | [] => [ofWord (word digits.reverse) false]
  | b :: bs =>
    if b = 0x3A then ofWord (word digits.reverse) true :: listFrom [] bs
    else if b = 0x3B then ofWord (word digits.reverse) false :: listFrom [] bs
    else listFrom (b :: digits) bs

/-- How many parameters a sequence has room for. -/
def limit : Nat := 32

/-- The parameters that bytes spell: numbers between semicolons or colons. The number at the end,
which no separator follows, counts only if there is room for another one after it. -/
def list (bytes : List UInt8) : List Parameter :=
  let all := listFrom [] bytes
  if all.length < limit then all else all.dropLast.take limit

end Parameter

/-- Whether `b` is a byte that marks a private sequence. -/
def isMarker (b : UInt8) : Bool := 0x3C ≤ b && b ≤ 0x3F

/-- Whether `b` is a digit or stands between numbers. -/
def isNumeric (b : UInt8) : Bool := 0x30 ≤ b && b ≤ 0x3B

/-- Whether `b` can stand before the last byte of a sequence. -/
def isIntermediate (b : UInt8) : Bool := 0x20 ≤ b && b ≤ 0x2F

/-- Whether `b` ends a sequence with parameters. -/
def isFinal (b : UInt8) : Bool := 0x40 ≤ b && b ≤ 0x7E

/-- The string at the front of some bytes, and what ends it: a bell if `bell` says so, or the string
terminator in either form. Another escape or a cancelling byte ends it too, and does not belong to
it. -/
def stringAt (bell : Bool) : List UInt8 → List UInt8 × List UInt8
  | [] => ([], [])
  | b :: rest =>
    if bell && b = 0x07 then ([], [b])
    else if b = 0x18 || b = 0x1A then ([], [])
    else if b = 0x9C then ([], [b])
    else if b = escapeByte then (if rest.head? = some 0x5C then ([], [b, 0x5C]) else ([], []))
    else
      let (data, stop) := stringAt bell rest
      (b :: data, stop)

namespace Element

/-- An element that takes no column and has no effect. -/
def silent (bytes : List UInt8) : Element := ⟨bytes, 0, .none⟩

/-- A sequence that is a string after its `opening`. Only a `command` can be ended by a bell, and
the eighth command is the one for links. -/
def ofString (opening : List UInt8) (command : Bool) (rest : List UInt8) : Element :=
  let (data, stop) := stringAt command rest
  let links := command && Parameter.word (data.takeWhile fun b => 0x30 ≤ b && b ≤ 0x39) = 8
  ⟨opening ++ data ++ stop, 0, if links then .link data else .none⟩

/-- What the parts of a sequence with parameters say. -/
structure Form where
  /-- whether a string follows -/
  device : Bool
  /-- whether it can set the pen -/
  graphic : Bool

/-- A sequence with parameters after its `opening`. -/
def ofParameters (opening : List UInt8) (form : Form) (rest : List UInt8) : Element :=
  let markers := rest.takeWhile isMarker
  let rest := rest.dropWhile isMarker
  let numbers := rest.takeWhile isNumeric
  let rest := rest.dropWhile isNumeric
  let between := rest.takeWhile isIntermediate
  let head := opening ++ markers ++ numbers ++ between
  match rest.dropWhile isIntermediate with
  | [] => silent head
  | b :: rest =>
    if !isFinal b then silent head
    else if form.device then
      let (data, stop) := stringAt false rest
      silent (head ++ b :: data ++ stop)
    else if form.graphic && markers.isEmpty && between.isEmpty && b = 0x6D then
      ⟨head ++ [b], 0, .pen (Parameter.list numbers)⟩
    else silent (head ++ [b])

/-- The sequence after an escape. -/
def ofEscape (rest : List UInt8) : Element :=
  let between := rest.takeWhile isIntermediate
  let bare := between.isEmpty
  match rest.dropWhile isIntermediate with
  | [] => silent (escapeByte :: between)
  | b :: rest =>
    let opening := escapeByte :: between ++ [b]
    if b = 0x5B then ofParameters opening ⟨false, bare⟩ rest
    else if b = 0x50 then ofParameters opening ⟨bare, false⟩ rest
    else if b = 0x5D then ofString opening bare rest
    else if b = 0x58 || b = 0x5E || b = 0x5F then ofString opening false rest
    else if 0x30 ≤ b && b ≤ 0x7E then silent opening
    else silent (escapeByte :: between)

/-- The element at the front of the bytes `b :: rest`. -/
def leading (b : UInt8) (rest : List UInt8) : Element :=
  if b = escapeByte then ofEscape rest
  else if b = 0x9B then ofParameters [b] ⟨false, true⟩ rest
  else if b = 0x90 then ofParameters [b] ⟨true, false⟩ rest
  else if b = 0x9D then ofString [b] true rest
  else if b = 0x98 || b = 0x9E || b = 0x9F then ofString [b] false rest
  else if 0x20 ≤ b && b ≤ 0x7E then ⟨[b], 1, .none⟩
  else if b < 0xC0 then silent [b]
  else
    let (more, width) := Sign.leading b rest
    ⟨b :: rest.take more, width, .none⟩

end Element

/-- The elements of a text. -/
def elements : List UInt8 → List Element
  | [] => []
  | b :: rest =>
    let e := Element.leading b rest
    e :: elements (rest.drop (e.bytes.length - 1))
termination_by bytes => bytes.length
decreasing_by simp only [List.length_drop, List.length_cons]; omega

end Adventure.Display
