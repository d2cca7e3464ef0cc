import Adventure.Text.Lines

/-!
# Histories

What was typed in sessions, one entry on a line, the latest last. Only so many entries are kept.
-/

namespace Adventure

/-- What was typed. -/
structure History where
  /-- the entries, the latest first -/
  latest : List String
  deriving DecidableEq, Repr

namespace History

/-- How many entries are kept. -/
def limit : Nat := 1000

/-- The history in which nothing was typed. -/
def empty : History := ⟨[]⟩

/-- The history with one more entry. -/
def push (h : History) (entry : String) : History :=
  ⟨(entry :: h.latest).take limit⟩

/-- The history that a text holds, an entry on a line. A line that is too long to be handed out
whole is no entry, and nothing is read beyond it. -/
def ofText (text : String) : History :=
  (((Text.pieces text).takeWhile Text.Piece.ends).map Text.Piece.text).foldl push empty

/-- Notes what was typed, on one line, unless it is what was typed last. -/
def note (h : History) (typed : String) : History :=
  let entry := typed.map fun c => if c = '\n' then ' ' else c
  if h.latest.head? = some entry then h else h.push entry

/-- The history as a text. -/
def text (h : History) : String :=
  String.join (h.latest.reverse.map (· ++ "\n"))

end History

end Adventure
