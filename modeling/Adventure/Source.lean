/-!
# Source text and places in it

A source is a text that is read from front to back. It knows the characters that are still to come,
the place of the last one taken, and how it ends: normally, or with a failure of the stream behind
it that shows only after the last character.
-/

namespace Adventure

/-- A place in a source. Lines count from one; the column is the number of characters taken on the
current line. -/
structure Position where
  /-- the number of the line -/
  line : Nat
  /-- how many characters of the line have been taken -/
  column : Nat
  deriving DecidableEq, Repr

namespace Position

/-- The place before the first character. -/
def start : Position := ⟨1, 0⟩

/-- The place after `c` has been taken at `p`. -/
def step (p : Position) (c : Char) : Position :=
  if c = '\n' then ⟨p.line + 1, 0⟩ else ⟨p.line, p.column + 1⟩

/-- The place after all of `cs` has been taken at `p`. -/
def after (p : Position) (cs : List Char) : Position :=
  cs.foldl step p

@[simp] theorem after_nil (p : Position) : p.after [] = p := rfl

@[simp] theorem after_cons (p : Position) (c : Char) (cs : List Char) :
    p.after (c :: cs) = (p.step c).after cs := rfl

theorem after_append (p : Position) (cs ds : List Char) :
    p.after (cs ++ ds) = (p.after cs).after ds :=
  List.foldl_append

/-- How a place is named in messages. -/
def describe (p : Position) : String :=
  s!"line {p.line}, char {p.column}"

end Position

/-- A text that is being read. -/
structure Source where
  /-- the characters still to come -/
  rest : List Char
  /-- the place of the last character taken -/
  position : Position
  /-- what the stream fails with after its last character, if it does not end normally; an error
  that is the end of the file, or wraps it, is a normal end and no failure -/
  failure : Option String
  deriving DecidableEq, Repr

namespace Source

/-- The text `cs`, unread, that ends normally or with `failure`. -/
def ofChars (cs : List Char) (failure : Option String) : Source :=
  ⟨cs, .start, failure⟩

/-- The text `s`, unread, that ends normally. -/
def ofString (s : String) : Source :=
  .ofChars s.toList none

/-- The source after `taken`, the characters at its front, have been read. -/
def advance (s : Source) (taken : List Char) : Source :=
  { s with rest := s.rest.drop taken.length, position := s.position.after taken }

@[simp] theorem rest_advance (s : Source) (taken : List Char) :
    (s.advance taken).rest = s.rest.drop taken.length := rfl

@[simp] theorem position_advance (s : Source) (taken : List Char) :
    (s.advance taken).position = s.position.after taken := rfl

@[simp] theorem failure_advance (s : Source) (taken : List Char) :
    (s.advance taken).failure = s.failure := rfl

/-- The source after the longest front part whose characters all satisfy `p`. -/
def skip (s : Source) (p : Char → Bool) : Source :=
  s.advance (s.rest.takeWhile p)

@[simp] theorem rest_skip (s : Source) (p : Char → Bool) :
    (s.skip p).rest = s.rest.dropWhile p := by
  have h : s.rest = s.rest.takeWhile p ++ s.rest.dropWhile p :=
    List.takeWhile_append_dropWhile.symm
  conv => lhs; rw [skip, rest_advance]; arg 2; rw [h]
  exact List.drop_left

end Source

end Adventure
