import Adventure.Interpreter
import Adventure.Settings

/-!
# Batch runs

A batch run takes a program file, runs it once and ends. What the program shows goes to one stream;
complaints about it, and a log of the stages of the run if one is wanted, go to another.
-/

namespace Adventure

/-- What is left of a batch run. -/
structure Batch where
  /-- whether the program ran to its end -/
  ok : Bool
  /-- what the program has shown -/
  shown : String
  /-- the log and the complaints, in the order in which they were written -/
  remarks : String
  deriving DecidableEq, Repr

namespace Batch

/-- A line of the log, if there is one. -/
def logged (s : Settings) (text : String) : String :=
  if s.verbose then "dndlang: " ++ text ++ "\n" else ""

/-- A complaint, its line end included, as it is written: it is painted if the settings ask for
colours. -/
def complained (paint : String → String) (s : Settings) : Option String → String
  | none => ""
  | some message => s.painted paint (complaintLine (some message))

/-- The log of the calls in progress when a run failed. -/
def tracedCalls (s : Settings) : Option RuntimeError → String
  | none => ""
  | some e =>
    if e.trace.isEmpty then ""
    else logged s ("call trace (innermost first): [" ++ " ".intercalate e.trace ++ "]")

/-- What is logged about a program that can run. -/
def loaded (s : Settings) (p : Program) (m : Machine) : String :=
  logged s ("loaded " ++ toString p.functions.length ++ " function(s), " ++
    toString m.templates.length ++ " template(s)")

/-- Carries out a program that was read. If the run is `cancelled`, the program is asked to stop
before it starts. -/
def ofInterpreter (paint : String → String) (steps : Nat) (s : Settings) (cancelled : Bool) :
    Interpreter → Option Batch
  | .unparsed e => some ⟨false, "", complained paint s (some e.message)⟩
  | .unloaded _ e => some ⟨false, "", complained paint s (some e.message)⟩
  | .ready p m error =>
    let m' := if cancelled then m.interrupt else m
    let before := loaded s p m ++ if cancelled then logged s "interrupt received" else ""
    match (Interpreter.ready p m' error).execute steps with
    | none => none
    | some (x, i) =>
      let trace := match i with | .ready _ _ e => tracedCalls s e | _ => ""
      let finish := logged s ("finished ok=" ++ if x.ok then "true" else "false")
      some ⟨x.ok, x.shown, before ++ complained paint s x.complaint ++ trace ++ finish⟩

/-- Runs the program of a file. There is no result if the run does not end within `steps`. -/
def run (paint : String → String) (steps : Nat) (fresh : Generator) (s : Settings)
    (cancelled : Bool) (file : ProgramFile) : Option (Except OpenError Batch) :=
  match file with
  | .error e => some (.error e)
  | .ok source =>
    (ofInterpreter paint steps s cancelled (.ofSource fresh s.setup source)).map fun b =>
      .ok { b with remarks := logged s ("parsing " ++ s.path) ++ b.remarks }

end Batch

end Adventure
