import Adventure.Machine.Evaluation

/-!
# Machines

A machine holds what a program has registered and what it has done so far: its functions and
templates, its variables, and the world. It is made from a program, can run the instructions of
that program any number of times, and can be handed more programs, whose functions and templates
are registered beside the old ones.

A program is registered as a whole or not at all.
-/

namespace Adventure

/-- How many calls may be in progress if nothing else is said. -/
def defaultMaxDepth : Nat := 1000

/-- A program that can be run. -/
structure Machine where
  /-- the instructions that a run carries out -/
  instructions : List Statement
  /-- the functions that are registered -/
  functions : List Function
  /-- the templates that are registered, in their order -/
  templates : List Template
  /-- the variables of the top level -/
  scope : Scope
  /-- what the program acts on -/
  world : World
  /-- how many calls may be in progress -/
  maxDepth : Nat

namespace Machine

/-- The first of some names with lines that is taken already, or that came before among them. -/
def firstClash (taken : List String) : List (String × Int) → Option (String × Int)
  | [] => none
  | (name, line) :: more =>
    if name ∈ taken then some (name, line) else firstClash (name :: taken) more

/-- What keeps a program from being registered: the first function whose name is taken, or else the
first such template. -/
def clash (m : Machine) (p : Program) : Option (String × Int) :=
  (firstClash (m.functions.map (·.name)) (p.functions.map fun f => (f.name, f.line))).or
    (firstClash (m.templates.map (·.name)) (p.templates.map fun t => (t.name, t.line)))

/-- Registers the functions and templates of a program. -/
def load (m : Machine) (p : Program) : Except RuntimeError Machine :=
  match m.clash p with
  | some (name, line) => .error ⟨.alreadyDefined name, line, []⟩
  | none =>
    .ok { m with functions := m.functions ++ p.functions, templates := m.templates ++ p.templates }

/-- A machine without functions and templates, for the given instructions. -/
def blank (instructions : List Statement) (g : Generator) : Machine :=
  ⟨instructions, [], [], .empty, ⟨g, 0, false, #[], none⟩, defaultMaxDepth⟩

/-- The machine of a program. -/
def ofProgram (p : Program) (g : Generator) : Except RuntimeError Machine :=
  (blank p.instructions g).load p

/-- Rolls dice from a seed. -/
def reseed (m : Machine) (seed : Int64) : Machine :=
  { m with world.generator := .ofSeed seed }

/-- Limits the calls in progress. A limit that is not positive stands for the default one. -/
def limitDepth (m : Machine) (depth : Int) : Machine :=
  { m with maxDepth := if depth ≤ 0 then defaultMaxDepth else depth.toNat }

/-- Tells somebody else of outputs, or nobody. -/
def setListener (m : Machine) (listener : Option Listener) : Machine :=
  { m with world.listener := listener }

/-- Asks the program to stop. -/
def interrupt (m : Machine) : Machine :=
  { m with world.interrupted := true }

/-- The number of calls in progress. -/
def depth (m : Machine) : Nat :=
  m.world.depth

/-- What the last run has shown. -/
def outputs (m : Machine) : List Output :=
  m.world.outputs.toList

/-- The template of the given name. -/
def template? (m : Machine) (name : String) : Option Template :=
  m.templates.find? (·.name == name)

/-- What stays the same while the machine carries out instructions. -/
def rules (m : Machine) : Rules :=
  ⟨m.functions, m.maxDepth⟩

/-- The machine with nothing shown. -/
def quiet (m : Machine) : Machine :=
  { m with world.outputs := #[] }

/-- Carries out instructions at the top level. -/
def perform (steps : Nat) (m : Machine) (statements : List Statement) : Outcome Machine Unit :=
  (m.rules.instructions steps statements ⟨m.scope, m.world⟩).mapState fun s =>
    { m with scope := s.scope, world := s.world }

/-- Runs the instructions of the machine's program. -/
def run (steps : Nat) (m : Machine) : Outcome Machine Unit :=
  perform steps m.quiet m.instructions

/-- Registers another program and carries out its instructions. Nothing is carried out if the
program cannot be registered. -/
def evaluate (steps : Nat) (m : Machine) (p : Program) : Outcome Machine Unit :=
  match m.quiet.load p with
  | .ok m => perform steps m p.instructions
  | .error e => .failed e m.quiet

end Machine

end Adventure
