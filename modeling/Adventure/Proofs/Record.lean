import Adventure.Proofs.Evaluator

/-!
# Runs with a record of what happens

The interpreter tells how a computation ends and nothing about the way there. The `recorder` also
keeps a record: a list of moments, each with an event and the world at that time. Control reaches a
statement and the statement is over; a call is attempted, its body is entered and left; dice are
rolled, a text is shown, a pass of a loop ends; something goes wrong. Whether a statement is reached
with a request to stop pending, or a call is attempted where it is too deep, is decided after the
event is on record.

Nothing is recorded while an error makes its way out, so the last moment of a run that fails is the
one in which the error was raised. A run that does not end within its steps has a record too, of
what happened up to there.

The records add to the outcomes and do not change them: `Record.Tells` in `Adventure.Proofs.History`
includes that both are the same.
-/

namespace Adventure

/-- An event and the world in which it happens. -/
structure Moment where
  event : Record.Event
  world : World

/-- A computation with what happened in it. -/
structure Record (σ α : Type) where
  /-- what happened, in order -/
  moments : List Moment
  /-- how it ended -/
  outcome : Outcome σ α

namespace Record

variable {σ τ α β : Type}

/-- Nothing happens. -/
def silent (o : Outcome σ α) : Record σ α :=
  ⟨[], o⟩

/-- Something goes wrong in the world `w`, which leaves the state `s`. -/
def raise (f : Fault) (w : World) (s : σ) : Record σ α :=
  ⟨[⟨.raise f, w⟩], .failed (.ofFault f) s⟩

/-- An event in the world `w`, and then what `a` records. -/
def note (event : Record.Event) (w : World) (a : Record σ α) : Record σ α :=
  { a with moments := ⟨event, w⟩ :: a.moments }

/-- Goes on with `f` after a computation that ended with a value. -/
def bind (a : Record σ α) (f : α → σ → Record σ β) : Record σ β :=
  match a.outcome with
  | .done v s => { f v s with moments := a.moments ++ (f v s).moments }
  | .failed e s => ⟨a.moments, .failed e s⟩
  | .unfinished => ⟨a.moments, .unfinished⟩

/-- The record with another state at the end. -/
def mapState (f : σ → τ) (a : Record σ α) : Record τ α :=
  ⟨a.moments, a.outcome.mapState f⟩

/-- The record with another error at the end. -/
def mapError (f : RuntimeError → RuntimeError) (a : Record σ α) : Record σ α :=
  ⟨a.moments, a.outcome.mapError f⟩

/-- What `a` records and, if it ended with a value, an event in the world of its state. -/
def noteEnd (event : Record.Event) (world : σ → World) (a : Record σ α) : Record σ α :=
  a.bind fun v s => (silent (.done v s)).note event (world s)

end Record

/-- A record is told of all events. -/
instance : Account Record where
  done v s := .silent (.done v s)
  unfinished := .silent .unfinished
  raise := .raise
  bind := .bind
  mapState := .mapState
  mapError := .mapError
  note := .note
  noteEnd := .noteEnd

/-- Rolls the dice that a value holds. -/
abbrev World.recordRoll (attempts : Nat) (v : Value) (w : World) : Record World Value :=
  Account.roll attempts v w

/-- The interpreter that keeps a record. -/
def recorder : Evaluator Record World Store :=
  .standard

namespace Machine

/-- Carries out instructions at the top level. -/
def recordPerform (steps : Nat) (m : Machine) (statements : List Statement) :
    Record Machine Unit :=
  (recorder.instructions m.rules steps statements ⟨m.scope, m.world⟩).mapState fun s =>
    { m with scope := s.scope, world := s.world }

/-- Runs the instructions of the machine's program. -/
def recordRun (steps : Nat) (m : Machine) : Record Machine Unit :=
  recordPerform steps m.quiet m.instructions

/-- Registers another program and carries out its instructions. -/
def recordEvaluate (steps : Nat) (m : Machine) (p : Program) : Record Machine Unit :=
  match m.quiet.load p with
  | .ok m => recordPerform steps m p.instructions
  | .error e => .silent (.failed e m.quiet)

end Machine

end Adventure
