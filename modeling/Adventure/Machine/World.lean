import Adventure.Chance
import Adventure.Scope

/-!
# What a running program acts on

Expressions act on the world: they draw from the generator, call functions and, through those, show
values and notice that they are interrupted. Statements act on the world and on the variables of
their scope. A computation ends with a value or with an error, either way in some state, or it does
not end within the steps it was given.
-/

namespace Adventure

/-- Something that a program shows. -/
structure Output where
  text : String
  /-- whether a line ends after the text -/
  newline : Bool
  deriving DecidableEq, Repr

/-- An output as it is written to a stream. -/
def Output.written (o : Output) : String :=
  if o.newline then o.text ++ "\n" else o.text

/-- Somebody who is told of every output and may ask the program to stop. -/
structure Listener where
  /-- whether an output is a reason to stop, given the outputs that came before it -/
  asks : (earlier : List Output) → Output → Bool

/-- The listener after it was told of an output. -/
def Listener.told (l : Listener) (o : Output) : Listener :=
  ⟨fun earlier => l.asks (o :: earlier)⟩

/-- What all scopes of a running program share. -/
structure World where
  /-- where dice rolls come from -/
  generator : Generator
  /-- the number of calls in progress -/
  depth : Nat
  /-- whether the program has been asked to stop -/
  interrupted : Bool
  /-- what the program has shown so far -/
  outputs : Array Output
  /-- who is told of outputs, if anybody is -/
  listener : Option Listener

/-- The variables of a scope and the world around it. -/
structure Store where
  scope : Scope
  world : World

/-- What stays the same while instructions are carried out. -/
structure Rules where
  /-- the functions that can be called -/
  functions : List Function
  /-- how many calls may be in progress -/
  maxDepth : Nat

/-- How a computation ends. -/
inductive Outcome (σ α : Type) where
  /-- with a value -/
  | done (value : α) (state : σ)
  /-- with an error -/
  | failed (error : RuntimeError) (state : σ)
  /-- not within the steps it was given -/
  | unfinished

namespace Outcome

variable {σ τ α β : Type}

/-- Goes on with `f` after a computation that ended with a value. -/
@[inline] def bind (o : Outcome σ α) (f : α → σ → Outcome σ β) : Outcome σ β :=
  match o with
  | done a s => f a s
  | failed e s => failed e s
  | unfinished => unfinished

/-- The outcome in another state. -/
@[inline] def mapState (f : σ → τ) : Outcome σ α → Outcome τ α
  | done a s => done a (f s)
  | failed e s => failed e (f s)
  | unfinished => unfinished

/-- The outcome with another error. -/
@[inline] def mapError (f : RuntimeError → RuntimeError) : Outcome σ α → Outcome σ α
  | done a s => done a s
  | failed e s => failed (f e) s
  | unfinished => unfinished

/-- The outcome of an operation that leaves the state as it is. -/
@[inline] def ofExcept (s : σ) : Except Fault α → Outcome σ α
  | .ok a => done a s
  | .error f => failed (.ofFault f) s

@[simp] theorem bind_done (a : α) (s : σ) (f : α → σ → Outcome σ β) :
    (done a s).bind f = f a s := rfl

@[simp] theorem bind_failed (e : RuntimeError) (s : σ) (f : α → σ → Outcome σ β) :
    (failed e s).bind f = failed e s := rfl

@[simp] theorem bind_unfinished (f : α → σ → Outcome σ β) :
    (unfinished : Outcome σ α).bind f = unfinished := rfl

/-- **Going on twice** is going on with what goes on. -/
theorem bind_assoc {γ : Type} (o : Outcome σ α) (f : α → σ → Outcome σ β)
    (g : β → σ → Outcome σ γ) : (o.bind f).bind g = o.bind fun a s => (f a s).bind g := by
  cases o <;> rfl

end Outcome

namespace World

/-- Whether the program is asked to stop when it shows the output now. -/
def asks (w : World) (o : Output) : Bool :=
  w.listener.any (·.asks [] o)

/-- Shows a text on a line of its own. -/
def display (text : String) (w : World) : World :=
  let o : Output := ⟨text, true⟩
  { w with
    outputs := w.outputs.push o
    interrupted := w.interrupted || w.asks o
    listener := w.listener.map (·.told o) }

/-- Rolls the dice that a value holds. -/
def roll (attempts : Nat) (v : Value) (w : World) : Outcome World Value :=
  match v.dice? with
  | none => .failed (.ofFault (.rollOf v.kind)) w
  | some d =>
    match w.generator.roll attempts d with
    | .error f => .failed (.ofFault f) w
    | .ok none => .unfinished
    | .ok (some (total, g)) => .done (.int total) { w with generator := g }

end World

end Adventure
