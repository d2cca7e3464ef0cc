import Adventure.Text.Quoted

/-!
# Strings in JSON

Text between quotation marks, safe to stand inside a web page: the signs that could open or close a
tag are written by their code points, and so are the two separators that end a line of a script.
-/

namespace Adventure.Text

/-- A character by its code point. -/
def codePoint (c : Char) : List Char :=
  '\\' :: 'u' :: hexadecimal 4 c.toNat

/-- How a character is written inside a JSON string. -/
def jsonChar (c : Char) : List Char :=
  match c with
  | '"' => ['\\', '"']
  | '\\' => ['\\', '\\']
  | '\x08' => ['\\', 'b']
  | '\x0c' => ['\\', 'f']
  | '\n' => ['\\', 'n']
  | '\r' => ['\\', 'r']
  | '\t' => ['\\', 't']
  | '<' | '>' | '&' | '\u2028' | '\u2029' => codePoint c
  | c => if c < ' ' then codePoint c else [c]

/-- A text as a JSON string. -/
def jsonString (s : String) : String :=
  String.ofList ('"' :: s.toList.flatMap jsonChar ++ ['"'])

end Adventure.Text
