import Adventure.ProgramFile

/-!
# Interpreters

An interpreter reads a program once and runs it as often as it is asked to. What keeps a program
from being run is kept too: text that does not parse is complained about once, when it is read,
while a program that does not load is complained about whenever it is asked to run.
-/

namespace Adventure

/-- A program that was read, and what became of it. -/
inductive Interpreter where
  /-- the text is no program -/
  | unparsed (error : ParseError)
  /-- the program does not load -/
  | unloaded (program : Program) (error : RuntimeError)
  /-- the program can run; the error is that of its last run -/
  | ready (program : Program) (machine : Machine) (error : Option RuntimeError)

/-- What one run has shown. -/
structure Execution where
  /-- whether the run went well -/
  ok : Bool
  outputs : List Output
  /-- the message of the error that ended it -/
  complaint : Option String

namespace Execution

/-- The outputs as they are written to a stream. -/
def shown (x : Execution) : String :=
  String.join (x.outputs.map Output.written)

end Execution

/-- A message on a line of its own, or nothing. -/
def complaintLine : Option String → String
  | some message => message ++ "\n"
  | none => ""

namespace Interpreter

/-- Reads the program of a source. Dice that are not seeded come from `fresh`. -/
def ofSource (fresh : Generator) (setup : Setup) (s : Source) : Interpreter :=
  match s.parse with
  | .error e => .unparsed e
  | .ok p =>
    match Machine.ofProgram p fresh with
    | .error e => .unloaded p e
    | .ok m => .ready p (m.setUp setup) none

/-- Whether the program can run. -/
def usable : Interpreter → Bool
  | ready .. => true
  | _ => false

/-- The program that was read. -/
def program? : Interpreter → Option Program
  | unparsed _ => none
  | unloaded p _ | ready p _ _ => some p

/-- The machine that runs the program. -/
def machine? : Interpreter → Option Machine
  | ready _ m _ => some m
  | _ => none

/-- The last error. -/
def error? : Interpreter → Option ProgramError
  | unparsed e => some (.unparsed e)
  | unloaded _ e => some (.runtime e)
  | ready _ _ e => e.map .runtime

/-- What is complained about as soon as the program has been read. -/
def greeting : Interpreter → Option String
  | unparsed e => some e.message
  | _ => none

/-- Runs the program, if it can run. There is no result if the run does not end within `steps`. -/
def execute (steps : Nat) : Interpreter → Option (Execution × Interpreter)
  | unparsed e => some (⟨false, [], none⟩, unparsed e)
  | unloaded p e => some (⟨false, [], some e.message⟩, unloaded p e)
  | ready p m _ =>
    match m.run steps with
    | .done _ m => some (⟨true, m.outputs, none⟩, ready p m none)
    | .failed e m => some (⟨false, m.outputs, some e.message⟩, ready p m (some e))
    | .unfinished => none

end Interpreter

end Adventure
