import Adventure.Proofs.History
import Adventure.Proofs.Loading

/-!
# The machines that can be reached

A machine is made from a program, and then is run, is handed more programs, and has its dice, its
limit, its listener and the request to stop changed, in any order and any number of times. A run may
end with a value or an error, and a program that cannot be registered leaves a machine too.
`Reached` are all machines that this leads to, with programs of some sort. All of them are at rest:
no call is in progress, and every statement that they hold is of one of these programs
(`Machine.Reached.atRest`).
-/

namespace Adventure

/-- The state in which a computation ends, unless it is unfinished. -/
def Outcome.state? {σ α : Type} : Outcome σ α → Option σ
  | done _ s => some s
  | failed _ s => some s
  | unfinished => none

theorem Outcome.state?_mapState {σ τ α : Type} (f : σ → τ) (o : Outcome σ α) :
    (o.mapState f).state? = o.state?.map f := by
  cases o <;> rfl

/-- A computation ends at the depth at which it started. -/
theorem Course.depth_eq {σ α : Type} {r : Rules} {known : Statement → Prop} {world : σ → World}
    {w : World} {moments : List Moment} {o : Outcome σ α} {s : σ}
    (h : Course r known world w moments o) (hs : o.state? = some s) :
    (world s).depth = w.depth := by
  cases o with
  | done v s' =>
    obtain rfl : s' = s := Option.some.inj hs
    exact (h []).depth_eq
  | failed e s' =>
    obtain rfl : s' = s := Option.some.inj hs
    obtain ⟨_, _, -, -, -, hworld⟩ := h
    rw [hworld]
  | unfinished => cases hs

/-- A computation adds to the outputs what its moments show. -/
theorem Course.outputs_eq {σ α : Type} {r : Rules} {known : Statement → Prop} {world : σ → World}
    {w : World} {moments : List Moment} {o : Outcome σ α} {s : σ}
    (h : Course r known world w moments o) (hs : o.state? = some s) :
    (world s).outputs.toList = w.outputs.toList ++ moments.filterMap Moment.shown? := by
  cases o with
  | done v s' =>
    obtain rfl : s' = s := Option.some.inj hs
    exact (h []).outputs_eq
  | failed e s' =>
    obtain rfl : s' = s := Option.some.inj hs
    obtain ⟨frames, w', hfails, -, -, hworld⟩ := h
    obtain ⟨before, s₁, last, rfl, hpath, hstop⟩ := (hfails []).exists_stop
    obtain ⟨hsame, hlast⟩ := hstop.outputs_eq
    rw [hworld, List.filterMap_append, hlast, List.append_nil, ← hpath.outputs_eq]
    exact congrArg Array.toList hsame
  | unfinished => cases hs

namespace Machine

/-- The machines that can be reached with programs that are `ok`. -/
inductive Reached (ok : Program → Prop) : Machine → Prop where
  | start {p : Program} {g : Generator} {m : Machine} (hp : ok p) (h : ofProgram p g = .ok m) :
      Reached ok m
  | run {m m' : Machine} (steps : Nat) (h : Reached ok m) (hend : (m.run steps).state? = some m') :
      Reached ok m'
  | evaluate {m m' : Machine} {p : Program} (steps : Nat) (h : Reached ok m) (hp : ok p)
      (hend : (m.evaluate steps p).state? = some m') : Reached ok m'
  | reseed {m : Machine} (seed : Int64) (h : Reached ok m) : Reached ok (m.reseed seed)
  | limitDepth {m : Machine} (depth : Int) (h : Reached ok m) : Reached ok (m.limitDepth depth)
  | setListener {m : Machine} (listener : Option Listener) (h : Reached ok m) :
      Reached ok (m.setListener listener)
  | interrupt {m : Machine} (h : Reached ok m) : Reached ok m.interrupt

/-- No call is in progress, and the statements of the machine are known. -/
structure AtRest (known : Statement → Prop) (m : Machine) : Prop where
  depth : m.world.depth = 0
  instructions : ∀ st ∈ Statement.allStatements m.instructions, known st
  functions : ∀ f ∈ m.functions, ∀ st ∈ Statement.blockStatements f.body, known st

variable {known : Statement → Prop} {m m' : Machine} {p : Program}

theorem known_of_program (hp : ∀ st ∈ p.statements, known st) :
    (∀ f ∈ p.functions, ∀ st ∈ Statement.blockStatements f.body, known st) ∧
      ∀ st ∈ Statement.allStatements p.instructions, known st := by
  refine ⟨fun f hf st hst => hp st ?_, fun st hst => hp st ?_⟩
  · exact List.mem_append_left _ (List.mem_flatMap.mpr ⟨f, hf, hst⟩)
  · exact List.mem_append_right _ hst

theorem AtRest.quiet (h : m.AtRest known) : m.quiet.AtRest known :=
  ⟨h.depth, h.instructions, h.functions⟩

theorem AtRest.load (h : m.AtRest known) (hp : ∀ st ∈ p.statements, known st)
    (hload : m.load p = .ok m') : m'.AtRest known := by
  obtain ⟨-, rfl⟩ := (load_eq_ok_iff m p m').mp hload
  exact ⟨h.depth, h.instructions,
    List.forall_mem_append.mpr ⟨h.functions, (known_of_program hp).1⟩⟩

/-- The record of instructions at the top level tells of them. -/
theorem tells_perform
    (hfunctions : ∀ f ∈ m.functions, ∀ st ∈ Statement.blockStatements f.body, known st)
    (steps : Nat) {statements : List Statement}
    (hknown : ∀ st ∈ Statement.allStatements statements, known st) :
    (m.recordPerform steps statements).Tells m.rules known world m.world
      (m.perform steps statements) :=
  (Rules.tells_instructions hfunctions steps statements hknown ⟨m.scope, m.world⟩).mapState
    fun _ => rfl

theorem AtRest.tells_perform (h : m.AtRest known) (steps : Nat) {statements : List Statement}
    (hknown : ∀ st ∈ Statement.allStatements statements, known st) :
    (m.recordPerform steps statements).Tells m.rules known world m.world
      (m.perform steps statements) :=
  Machine.tells_perform h.functions steps hknown

theorem AtRest.perform (h : m.AtRest known) {steps : Nat} {statements : List Statement}
    (hknown : ∀ st ∈ Statement.allStatements statements, known st)
    (hend : (m.perform steps statements).state? = some m') : m'.AtRest known := by
  have hdepth : m'.world.depth = m.world.depth :=
    (h.tells_perform steps hknown).course.depth_eq hend
  rw [Machine.perform, Outcome.state?_mapState] at hend
  obtain ⟨s, -, rfl⟩ := Option.map_eq_some_iff.mp hend
  exact ⟨hdepth.trans h.depth, h.instructions, h.functions⟩

theorem AtRest.evaluate (h : m.AtRest known) (hp : ∀ st ∈ p.statements, known st) {steps : Nat}
    (hend : (m.evaluate steps p).state? = some m') : m'.AtRest known := by
  unfold Machine.evaluate at hend
  rcases hload : m.quiet.load p with e | m₁
  · rw [hload] at hend
    obtain rfl : m.quiet = m' := Option.some.inj hend
    exact h.quiet
  · rw [hload] at hend
    exact (h.quiet.load hp hload).perform (known_of_program hp).2 hend

/-- **Machines that are reached are at rest.** -/
theorem Reached.atRest {ok : Program → Prop} (hok : ∀ p, ok p → ∀ st ∈ p.statements, known st)
    (h : m.Reached ok) : m.AtRest known := by
  induction h with
  | start hp hstart =>
    have hknown := known_of_program (hok _ hp)
    obtain ⟨-, rfl⟩ := (load_eq_ok_iff _ _ _).mp hstart
    exact ⟨rfl, hknown.2, hknown.1⟩
  | run steps _ hend ih => exact ih.quiet.perform ih.instructions hend
  | evaluate steps _ hp hend ih => exact ih.evaluate (hok _ hp) hend
  | reseed seed _ ih =>
    constructor <;> dsimp only [Machine.reseed]
    · exact ih.depth
    · exact ih.instructions
    · exact ih.functions
  | limitDepth depth _ ih => exact ⟨ih.depth, ih.instructions, ih.functions⟩
  | setListener listener _ ih => exact ⟨ih.depth, ih.instructions, ih.functions⟩
  | interrupt _ ih => exact ⟨ih.depth, ih.instructions, ih.functions⟩

/-- The record of a run tells of the run. -/
theorem AtRest.tells_run (h : m.AtRest known) (steps : Nat) :
    (m.recordRun steps).Tells m.rules known world m.quiet.world (m.run steps) :=
  h.quiet.tells_perform steps h.instructions

/-- The record of a program that is registered tells of its instructions. -/
theorem AtRest.tells_evaluate (h : m.AtRest known) (hp : ∀ st ∈ p.statements, known st)
    (hload : m.quiet.load p = .ok m') (steps : Nat) :
    (m.recordEvaluate steps p).Tells m'.rules known world m'.world (m.evaluate steps p) := by
  rw [recordEvaluate, Machine.evaluate, hload]
  exact (h.quiet.load hp hload).tells_perform steps (known_of_program hp).2

end Machine

end Adventure
