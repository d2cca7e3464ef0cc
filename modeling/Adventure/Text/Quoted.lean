import Adventure.Text.Printable

/-!
# Quoted text

A text is quoted by standing between double quotes, with an escape for each character that would
end the text, start an escape, or not be seen. Seven controls have a letter of their own, other
ASCII controls are written with two hexadecimal digits, and other characters that cannot be shown
with four or eight.
-/

namespace Adventure.Text

/-- `n` in lower-case hexadecimal, filled up with zeros to at least `width` digits. -/
def hexadecimal (width n : Nat) : List Char :=
  let digits := Nat.toDigits 16 n
  List.replicate (width - digits.length) '0' ++ digits

/-- How `c` is written inside double quotes. -/
def escaped (c : Char) : List Char :=
  match c.toNat with
  | 0x22 => ['\\', '"']
  | 0x5C => ['\\', '\\']
  | 0x07 => ['\\', 'a']
  | 0x08 => ['\\', 'b']
  | 0x0C => ['\\', 'f']
  | 0x0A => ['\\', 'n']
  | 0x0D => ['\\', 'r']
  | 0x09 => ['\\', 't']
  | 0x0B => ['\\', 'v']
  | n =>
    if isPrintable c then [c]
    else if n < 0x80 then '\\' :: 'x' :: hexadecimal 2 n
    else if n < 0x10000 then '\\' :: 'u' :: hexadecimal 4 n
    else '\\' :: 'U' :: hexadecimal 8 n

/-- The text `s` as it stands between the double quotes. -/
def escapedText (s : String) : List Char :=
  s.toList.flatMap escaped

/-- The text `s` in double quotes. -/
def quoted (s : String) : String :=
  String.ofList ('"' :: escapedText s ++ ['"'])

end Adventure.Text
