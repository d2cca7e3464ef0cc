/-!
# Text as bytes

Programs are stored as UTF-8. Bytes that do not form a character are not an error: each byte that
cannot begin a well-formed sequence stands for the replacement character, and reading goes on with
the byte after it.
-/

namespace Adventure.Text

/-- The character that stands for a byte that is no text. -/
def replacement : Char := Char.ofNat 0xFFFD

/-- Whether `b` can stand inside a sequence of several bytes. -/
def isContinuation (b : UInt8) : Bool :=
  0x80 ≤ b && b ≤ 0xBF

/-- The payload of a continuation byte. -/
def payload (b : UInt8) : Nat :=
  b.toNat % 0x40

/-- The least and the greatest byte that may follow the lead byte `a` of a sequence. The bounds
exclude overlong forms, surrogates and code points above the last one. -/
def secondBounds (a : UInt8) : UInt8 × UInt8 :=
  if a == 0xE0 then (0xA0, 0xBF)
  else if a == 0xED then (0x80, 0x9F)
  else if a == 0xF0 then (0x90, 0xBF)
  else if a == 0xF4 then (0x80, 0x8F)
  else (0x80, 0xBF)

/-- The character at the front of the bytes `a :: rest`, and how many bytes of `rest` belong to
it. -/
def leadingChar (a : UInt8) (rest : List UInt8) : Char × Nat :=
  let (low, high) := secondBounds a
  if a < 0x80 then (Char.ofNat a.toNat, 0)
  else if 0xC2 ≤ a && a ≤ 0xDF then
    match rest with
    | b :: _ =>
      if low ≤ b && b ≤ high then (Char.ofNat (a.toNat % 0x20 * 0x40 + payload b), 1)
      else (replacement, 0)
    | _ => (replacement, 0)
  else if 0xE0 ≤ a && a ≤ 0xEF then
    match rest with
    | b :: c :: _ =>
      if low ≤ b && b ≤ high && isContinuation c then
        (Char.ofNat ((a.toNat % 0x10 * 0x40 + payload b) * 0x40 + payload c), 2)
      else (replacement, 0)
    | _ => (replacement, 0)
  else if 0xF0 ≤ a && a ≤ 0xF4 then
    match rest with
    | b :: c :: d :: _ =>
      if low ≤ b && b ≤ high && isContinuation c && isContinuation d then
        (Char.ofNat
          (((a.toNat % 0x08 * 0x40 + payload b) * 0x40 + payload c) * 0x40 + payload d), 3)
      else (replacement, 0)
    | _ => (replacement, 0)
  else (replacement, 0)

/-- The bytes of a text. -/
def encodeUtf8 (cs : List Char) : List UInt8 :=
  cs.flatMap String.utf8EncodeChar

/-- The text that `bytes` hold. -/
def decodeUtf8 : List UInt8 → List Char
  | [] => []
  | a :: rest =>
    let (c, taken) := leadingChar a rest
    c :: decodeUtf8 (rest.drop taken)
termination_by bytes => bytes.length
decreasing_by simp only [List.length_drop, List.length_cons]; omega

end Adventure.Text
