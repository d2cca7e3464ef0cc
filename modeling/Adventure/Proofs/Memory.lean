import Adventure.Proofs.Evaluator

/-!
# Programs that can reach every scope

The interpreter hands each expression and each statement the scope that it is about, and no other,
so that there is nothing to be said about the others. The `rememberer` works on a memory that holds
the scopes of all calls, the finished ones included, and knows the current scope by its number.
A variable is looked up when its turn comes, a call makes a new scope before it looks at its
arguments, and a parameter is declared and then assigned. Nothing in these definitions keeps a
function from the variables of its callers; that it leaves them alone is a property, which is proved
in `Adventure.Proofs.Isolation` together with the agreement of the two interpreters.
-/

namespace Adventure

/-- Declares a variable in the scope of number `k` and gives it a value. -/
def Family.introduce (F : Family) (k : Nat) (name : String) (v : Value) : Except Fault Family :=
  (F.declare k name).bind fun F => F.assign k name v

/-- All scopes of a running program, and the world. -/
structure Memory where
  family : Family
  world : World

namespace Memory

/-- The memory in another world. -/
def inWorld (M : Memory) (w : World) : Memory :=
  { M with world := w }

/-- What is seen from the scope of number `k`. -/
def store (k : Nat) (M : Memory) : Store :=
  ⟨M.family.scope k, M.world⟩

/-- The outcome of an operation on the scopes, seen from the one of number `k`. -/
def update (k : Nat) (M : Memory) : Except Fault Family → Except Fault (Nat × Memory) :=
  Except.map fun family => (k, { M with family })

end Memory

/-- A scope is known by its number, and every scope can be reached from the state. -/
instance : Realm Memory Nat where
  world := Memory.world
  inWorld := Memory.inWorld
  get k x M := M.family.get k x
  function _ name M := M.family.function name
  fresh M := (M.family.scopes.length, { M with family := M.family.child })
  introduce p v c M := M.update c (M.family.introduce c p v)

instance : Site (Nat × Memory) Nat Memory where
  join k M := (k, M)
  scope := Prod.fst
  state := Prod.snd
  declare x | (k, M) => M.update k (M.family.declare k x)
  assign x v | (k, M) => M.update k (M.family.assign k x v)

/-- The interpreter that keeps the scopes of all calls. -/
def rememberer : Evaluator Outcome Memory (Nat × Memory) :=
  .standard

/-- Carries out the instructions of the top level, which has the scope of number 0. -/
def Rules.instructionsIn (r : Rules) (steps : Nat) (statements : List Statement) (M : Memory) :
    Outcome Memory Unit :=
  (rememberer.instructions r steps statements (0, M)).mapState Prod.snd

end Adventure
