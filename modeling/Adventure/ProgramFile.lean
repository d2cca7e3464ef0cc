import Adventure.Machine
import Adventure.Parsing.Program

/-!
# Program files

A program comes from a file. The file may not open, its text may not parse, and the program may not
load; whichever of these comes first is why there is no machine for it. A program that loads is set
up with the seed of its dice and a limit on its calls.
-/

namespace Adventure

/-- Why a file could not be opened. -/
structure OpenError where
  path : String
  /-- what the system says about it -/
  reason : String
  deriving DecidableEq, Repr

namespace OpenError

/-- There is no file at `path`. -/
def missing (path : String) : OpenError :=
  ⟨path, "no such file or directory"⟩

/-- What failed. -/
def cause (e : OpenError) : String :=
  "open " ++ e.path ++ ": " ++ e.reason

/-- The whole message. -/
def message (e : OpenError) : String :=
  "open program: " ++ e.cause

end OpenError

/-- A file as it was found: the source that it holds, or why it could not be opened. -/
abbrev ProgramFile := Except OpenError Source

/-- What is wrong with a program. -/
inductive ProgramError where
  /-- its file could not be opened -/
  | unopened (e : OpenError)
  /-- its text is no program -/
  | unparsed (e : ParseError)
  /-- it does not load, or does not run to its end -/
  | runtime (e : RuntimeError)
  deriving DecidableEq, Repr

namespace ProgramError

/-- The whole message. -/
def message : ProgramError → String
  | unopened e => e.message
  | unparsed e => e.message
  | runtime e => e.message

/-- The kind of the run-time error, if it is one. -/
def faultKind? : ProgramError → Option FaultKind
  | runtime e => some e.fault.kind
  | _ => none

end ProgramError

/-- How a machine is set up before it runs. -/
structure Setup where
  /-- the seed of the dice; zero leaves them as they are -/
  seed : Int64
  /-- the limit on calls in progress; the default one unless positive -/
  maxDepth : Int
  deriving DecidableEq, Repr

namespace Machine

/-- The machine of the program that a source holds. -/
def ofSource (s : Source) (g : Generator) : Except ProgramError Machine :=
  match s.parse with
  | .error e => .error (.unparsed e)
  | .ok p =>
    match ofProgram p g with
    | .error e => .error (.runtime e)
    | .ok m => .ok m

/-- The machine of the program that a file holds. -/
def ofFile (file : ProgramFile) (g : Generator) : Except ProgramError Machine :=
  match file with
  | .error e => .error (.unopened e)
  | .ok s => ofSource s g

/-- The machine with its dice seeded, unless the seed is zero, and its calls limited. -/
def setUp (m : Machine) (s : Setup) : Machine :=
  (if s.seed = 0 then m else m.reseed s.seed).limitDepth s.maxDepth

end Machine

end Adventure
