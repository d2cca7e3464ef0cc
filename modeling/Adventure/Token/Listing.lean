import Adventure.ProgramFile

/-!
# Token listings

A listing shows the tokens of a program file, one on a line, up to the end of the file or the first
error.
-/

namespace Adventure

/-- Why a listing stops early. -/
inductive ListingError where
  /-- the file could not be opened -/
  | unopened (e : OpenError)
  /-- the text cannot be split into tokens from here on -/
  | lexical (e : LexicalError)

/-- A token on a line of its own. -/
def Token.listingLine (t : Token) : String :=
  t.describe ++ "\n"

/-- The listing of a file, and why it stops early if it does. -/
def ProgramFile.listing : ProgramFile → String × Option ListingError
  | .error e => ("", some (.unopened e))
  | .ok s =>
    let ts := s.tokens
    (String.join (ts.listed.map Token.listingLine), ts.failure.map .lexical)

end Adventure
