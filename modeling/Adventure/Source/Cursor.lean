import Adventure.Source

/-!
# Reading character by character

A cursor fetches the characters of a stream one at a time, and is at most one character ahead of
what was taken. A character that was looked at is kept until it is taken, and that there was none is
kept as well. Once the stream has stopped the cursor remembers why, and fetches nothing more.
-/

namespace Adventure

/-- Why a stream has no more characters. -/
inductive StreamEnd where
  /-- it has ended normally, with the end of the file or an error that wraps it -/
  | normal
  /-- it has failed with an error that is not and does not wrap the end of the file -/
  | failed (text : String)
  deriving DecidableEq, Repr

/-- The end of a stream that fails with `failure`, if it does. -/
def StreamEnd.ofFailure : Option String → StreamEnd
  | none => normal
  | some text => failed text

/-- A stream that is read character by character. -/
structure Cursor where
  /-- the characters that were not fetched yet -/
  unread : List Char
  /-- what the stream fails with after its last character, if it does not end normally -/
  failure : Option String
  /-- the place of the last character taken -/
  position : Position
  /-- what was looked at and not taken: a character, or the end -/
  ahead : Option (Option Char)
  /-- why the stream has stopped, if it has -/
  stop : Option StreamEnd
  deriving DecidableEq, Repr

namespace Cursor

/-- A cursor at the front of `s`. -/
def ofSource (s : Source) : Cursor :=
  ⟨s.rest, s.failure, s.position, none, none⟩

/-- Fetches a character from the stream; `none` if it has stopped. -/
def fetch (c : Cursor) : Option Char × Cursor :=
  match c.stop with
  | some _ => (none, c)
  | none =>
    match c.unread with
    | [] => (none, { c with stop := some (.ofFailure c.failure) })
    | x :: unread => (some x, { c with unread })

/-- The next character, without taking it; `none` at the end. -/
def peek (c : Cursor) : Option Char × Cursor :=
  match c.ahead with
  | some x => (x, c)
  | none => (c.fetch.1, { c.fetch.2 with ahead := some c.fetch.1 })

/-- Takes the next character; `none` at the end. -/
def next (c : Cursor) : Option Char × Cursor :=
  let taken := { c.peek.2 with ahead := none }
  match c.peek.1 with
  | none => (none, taken)
  | some x => (some x, { taken with position := taken.position.step x })

/-- What the stream failed with, once its end has been looked at. -/
def failure? (c : Cursor) : Option String :=
  match c.stop with
  | some (.failed text) => some text
  | _ => none

end Cursor

end Adventure
