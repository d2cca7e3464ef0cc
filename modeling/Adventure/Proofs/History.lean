import Adventure.Proofs.Record
import Adventure.Proofs.Statements

/-!
# What the record of a run looks like

Between two moments of a run one is at a spot: inside some statements and calls, in some world. An
event leads from one spot to the next. `Step` says which events are possible at a spot and where
they lead, `Path` strings steps together, and `Stop` says in which ways a run fails. What holds of
every moment of every run is read off from these and from nothing else.

That the runs of the interpreter are of this sort is `Rules.tellsAt`. The statement is made for all
frames `K` around a computation, because a computation does not know what it is a part of: it starts
at the frames `K` and, if it ends with a value, is back there. If it fails, it has got to some
frames inside of `K`, and the error has their line and their calls (`Course`).
-/

namespace Adventure

/-! ## Frames -/

/-- What a run can be inside of. -/
inductive Frame where
  /-- a statement that is carried out -/
  | statement (st : Statement)
  /-- a call of a function -/
  | call (name : String)

namespace Frame

/-- The functions that are being carried out, the innermost first. -/
def calls : List Frame → List String
  | [] => []
  | .statement _ :: K => calls K
  | .call name :: K => name :: calls K

/-- The innermost statement. -/
def innermost : List Frame → Option Statement
  | [] => none
  | .statement st :: _ => some st
  | .call _ :: K => innermost K

/-- The line that an error gets on its way out of the frames: that of the innermost statement whose
line is not zero. -/
def line : List Frame → Int
  | [] => 0
  | .statement st :: K => if st.line = 0 then line K else st.line
  | .call _ :: K => line K

@[simp] theorem calls_append (K L : List Frame) : calls (K ++ L) = calls K ++ calls L := by
  induction K with
  | nil => rfl
  | cons frame K ih => cases frame <;> simp [calls, ih]

/-- A statement around the frames gives its line if none of them has one. -/
theorem line_append_statement (K : List Frame) (st : Statement) :
    line (K ++ [.statement st]) = if line K = 0 then st.line else line K := by
  induction K with
  | nil => simp only [List.nil_append, line]; split <;> simp_all
  | cons frame K ih =>
    cases frame with
    | statement st' => simp only [List.cons_append, line, ih]; split <;> simp_all
    | call name => exact ih

/-- A call around the frames gives no line. -/
@[simp] theorem line_append_call (K : List Frame) (name : String) :
    line (K ++ [.call name]) = line K := by
  induction K with
  | nil => rfl
  | cons frame K ih => cases frame <;> simp only [List.cons_append, line, ih]

/-- An error with a line was raised inside of a statement. -/
theorem exists_innermost {K : List Frame} (h : line K ≠ 0) : ∃ st, innermost K = some st := by
  induction K with
  | nil => exact absurd rfl h
  | cons frame K ih =>
    cases frame with
    | statement st => exact ⟨st, rfl⟩
    | call name => exact ih h

/-- The innermost statement is among the frames. -/
theorem mem_of_innermost {K : List Frame} {st : Statement} (h : innermost K = some st) :
    .statement st ∈ K := by
  induction K with
  | nil => cases h
  | cons frame K ih =>
    cases frame with
    | statement st' =>
      obtain rfl : st' = st := Option.some.inj h
      exact List.mem_cons_self
    | call name => exact List.mem_cons_of_mem _ (ih h)

/-- The line is that of the innermost statement, if it has one. -/
theorem line_of_innermost {K : List Frame} {st : Statement} (h : innermost K = some st)
    (hst : st.line ≠ 0) : line K = st.line := by
  induction K with
  | nil => cases h
  | cons frame K ih =>
    cases frame with
    | statement st' =>
      obtain rfl : st' = st := Option.some.inj h
      exact if_neg hst
    | call name => exact ih h

end Frame

/-- What an event does to the frames. -/
def Record.Event.act : Record.Event → List Frame → List Frame
  | .reach st, K => .statement st :: K
  | .enter name, K => .call name :: K
  | .finish, K | .leave, K => K.tail
  | .attempt _, K | .roll, K | .display _, K | .pass, K | .raise _, K => K

/-- The frames that a run is in after the given moments, where it was in `K` before. -/
def framesAfter (K : List Frame) (moments : List Moment) : List Frame :=
  moments.foldl (fun K m => m.event.act K) K

/-! ## Steps -/

/-- Where a run is between two moments. -/
structure Spot where
  /-- what it is inside of, the innermost first -/
  frames : List Frame
  world : World

/-- Whether the fault is that of an operation: neither the depth of calls nor a request to stop. -/
def Fault.isLocal : Fault → Bool
  | .tooDeep | .interrupted => false
  | _ => true

/-- Whether the fault is that of an operation on values, variables, dice or arguments. -/
def Fault.isOperational : Fault → Bool
  | .unsupportedExpression _ | .unsupportedStatement _ | .tooDeep | .interrupted => false
  | _ => true

theorem Fault.isLocal_of_isOperational {f : Fault} (h : f.isOperational = true) :
    f.isLocal = true := by
  cases f <;> first | rfl | cases h

section Steps

variable (r : Rules) (known : Statement → Prop)

/-- The events that are possible at a spot if nothing goes wrong, and where they lead. Only
statements that are `known` are reached. -/
inductive Step : Spot → Record.Event → Spot → Prop where
  | reach {K : List Frame} {w : World} {st : Statement} (hst : known st)
      (hgo : w.interrupted = false) : Step ⟨K, w⟩ (.reach st) ⟨.statement st :: K, w⟩
  | finish {K : List Frame} {w : World} {st : Statement} :
      Step ⟨.statement st :: K, w⟩ .finish ⟨K, w⟩
  | attempt {K : List Frame} {w : World} {name : String} (hdepth : w.depth < r.maxDepth) :
      Step ⟨K, w⟩ (.attempt name) ⟨K, w⟩
  | enter {K : List Frame} {w : World} {name : String} (hdepth : w.depth < r.maxDepth) :
      Step ⟨K, w⟩ (.enter name) ⟨.call name :: K, { w with depth := w.depth + 1 }⟩
  | leave {K : List Frame} {w : World} {name : String} :
      Step ⟨.call name :: K, w⟩ .leave ⟨K, { w with depth := w.depth - 1 }⟩
  | roll {K : List Frame} {w : World} {g : Generator} :
      Step ⟨K, w⟩ .roll ⟨K, { w with generator := g }⟩
  | display {K : List Frame} {w : World} {text : String} :
      Step ⟨K, w⟩ (.display text) ⟨K, w.display text⟩
  | pass {K : List Frame} {w : World} (hgo : w.interrupted = false) : Step ⟨K, w⟩ .pass ⟨K, w⟩

/-- Steps one after the other. -/
inductive Path : Spot → List Moment → Spot → Prop where
  | nil (s : Spot) : Path s [] s
  | cons {s s₁ s₂ : Spot} {event : Record.Event} {moments : List Moment}
      (h : Step r known s event s₁) (more : Path s₁ moments s₂) :
      Path s (⟨event, s.world⟩ :: moments) s₂

/-- The last moments of a run that fails: an operation goes wrong, a call is too deep, or there is a
request to stop, which is found when a statement is reached or a pass of a loop is over. -/
inductive Stop : Spot → List Moment → Fault → Spot → Prop where
  | fault {K : List Frame} {w : World} {f : Fault} (hf : f.isLocal = true) :
      Stop ⟨K, w⟩ [⟨.raise f, w⟩] f ⟨K, w⟩
  | tooDeep {K : List Frame} {w : World} {name : String} (hdepth : r.maxDepth ≤ w.depth) :
      Stop ⟨K, w⟩ [⟨.attempt name, w⟩, ⟨.raise .tooDeep, w⟩] .tooDeep ⟨K, w⟩
  | reach {K : List Frame} {w : World} {st : Statement} (hst : known st)
      (hstop : w.interrupted = true) :
      Stop ⟨K, w⟩ [⟨.reach st, w⟩, ⟨.raise .interrupted, w⟩] .interrupted
        ⟨.statement st :: K, { w with interrupted := false }⟩
  | pass {K : List Frame} {w : World} (hstop : w.interrupted = true) :
      Stop ⟨K, w⟩ [⟨.pass, w⟩, ⟨.raise .interrupted, w⟩] .interrupted
        ⟨K, { w with interrupted := false }⟩

/-- Steps one after the other, until the run fails. -/
inductive Fails : Spot → List Moment → Fault → Spot → Prop where
  | stop {s s' : Spot} {moments : List Moment} {f : Fault} (h : Stop r known s moments f s') :
      Fails s moments f s'
  | cons {s s₁ s' : Spot} {event : Record.Event} {moments : List Moment} {f : Fault}
      (h : Step r known s event s₁) (more : Fails s₁ moments f s') :
      Fails s (⟨event, s.world⟩ :: moments) f s'

end Steps

variable {r : Rules} {known : Statement → Prop} {s s₁ s₂ : Spot} {moments moments' : List Moment}
  {f : Fault}

/-- Steps go on where others have stopped. -/
theorem Path.append (h : Path r known s moments s₁) (h' : Path r known s₁ moments' s₂) :
    Path r known s (moments ++ moments') s₂ := by
  induction h with
  | nil s => exact h'
  | cons hstep _ ih => exact .cons hstep (ih h')

/-- A run that fails may have taken steps before. -/
theorem Path.fails (h : Path r known s moments s₁) (h' : Fails r known s₁ moments' f s₂) :
    Fails r known s (moments ++ moments') f s₂ := by
  induction h with
  | nil s => exact h'
  | cons hstep _ ih => exact .cons hstep (ih h')

/-- A run that fails has taken steps up to its last moments. -/
theorem Fails.exists_stop (h : Fails r known s moments f s₂) :
    ∃ before s₁ last, moments = before ++ last ∧ Path r known s before s₁ ∧
      Stop r known s₁ last f s₂ := by
  induction h with
  | stop hstop => exact ⟨[], _, _, rfl, .nil _, hstop⟩
  | cons hstep _ ih =>
    obtain ⟨before, s₁, last, rfl, hpath, hstop⟩ := ih
    exact ⟨_ :: before, s₁, last, rfl, .cons hstep hpath, hstop⟩

/-- The last moments of a run that fails are at one place, and the very last is when the fault is
raised. -/
theorem Stop.exists_raise (h : Stop r known s moments f s₂) :
    (∃ before, moments = before ++ [⟨.raise f, s.world⟩]) ∧ ∀ m ∈ moments, m.world = s.world := by
  cases h with
  | fault hf => exact ⟨⟨[], rfl⟩, by simp⟩
  | tooDeep hdepth => exact ⟨⟨[⟨.attempt _, _⟩], rfl⟩, by simp⟩
  | reach hst hstop => exact ⟨⟨[⟨.reach _, _⟩], rfl⟩, by simp⟩
  | pass hstop => exact ⟨⟨[⟨.pass, _⟩], rfl⟩, by simp⟩

/-! ## What every step keeps -/

/-- **What every step keeps, every path keeps.** Each moment on the way is a step from a spot where
it holds. -/
theorem Path.invariant {I : Spot → Prop}
    (hI : ∀ s event s₁, Step r known s event s₁ → I s → I s₁) (h : Path r known s moments s₁)
    (hs : I s) :
    I s₁ ∧ ∀ m ∈ moments, ∃ s s₁, I s ∧ s.world = m.world ∧ Step r known s m.event s₁ := by
  induction h with
  | nil s => exact ⟨hs, by simp⟩
  | cons hstep _ ih =>
    obtain ⟨hend, hmoments⟩ := ih (hI _ _ _ hstep hs)
    exact ⟨hend, List.forall_mem_cons.mpr ⟨⟨_, _, hs, rfl, hstep⟩, hmoments⟩⟩

/-- What a step does to the frames shows in its event. -/
theorem Step.frames_eq {event : Record.Event} (h : Step r known s event s₁) :
    s₁.frames = event.act s.frames := by
  cases h <;> rfl

/-- The frames show in the moments. -/
theorem Path.frames_eq (h : Path r known s moments s₁) :
    s₁.frames = framesAfter s.frames moments := by
  induction h with
  | nil s => rfl
  | cons hstep _ ih => rw [ih, hstep.frames_eq, framesAfter, framesAfter, List.foldl_cons]

/-- The frames in which a run fails show in the moments. -/
theorem Stop.frames_eq (h : Stop r known s moments f s₂) :
    s₂.frames = framesAfter s.frames moments := by
  cases h <;> rfl

/-- The depth is the number of calls that the run is inside of, over the depth that it has where it
is inside of none. -/
def Spot.Balanced (base : Nat) (s : Spot) : Prop :=
  s.world.depth = base + (Frame.calls s.frames).length

/-- A step keeps the calls among the frames as many as are in progress. -/
theorem Step.balanced {base : Nat} {event : Record.Event} (h : Step r known s event s₁)
    (hs : s.Balanced base) : s₁.Balanced base := by
  cases h <;> simp only [Spot.Balanced, Frame.calls, World.display, List.length_cons] at hs ⊢ <;>
    omega

/-- A run that fails keeps them so. -/
theorem Stop.balanced {base : Nat} (h : Stop r known s moments f s₂) (hs : s.Balanced base) :
    s₂.Balanced base := by
  cases h <;> exact hs

theorem Path.balanced {base : Nat} (h : Path r known s moments s₁) (hs : s.Balanced base) :
    s₁.Balanced base :=
  (h.invariant (fun _ _ _ hstep => hstep.balanced) hs).1

/-- A computation that ends where it started ends at the depth at which it started. -/
theorem Path.depth_eq {w w' : World} (h : Path r known ⟨[], w⟩ moments ⟨[], w'⟩) :
    w'.depth = w.depth :=
  h.balanced rfl

/-- No call is entered where as many are in progress as there may be. -/
theorem Step.depth_le {event : Record.Event} (h : Step r known s event s₁)
    (hs : s.world.depth ≤ r.maxDepth) : s₁.world.depth ≤ r.maxDepth := by
  cases h <;> simp only [World.display] at hs ⊢ <;> omega

/-- What is shown at a moment. -/
def Moment.shown? (m : Moment) : Option Output :=
  match m.event with
  | .display text => some ⟨text, true⟩
  | _ => none

/-- A step shows what its event says. -/
theorem Step.outputs_eq {event : Record.Event} (h : Step r known s event s₁) :
    s₁.world.outputs.toList =
      s.world.outputs.toList ++ (Moment.shown? ⟨event, s.world⟩).toList := by
  cases h <;> simp [Moment.shown?, World.display]

/-- The outputs grow by what the moments show and by nothing else. -/
theorem Path.outputs_eq (h : Path r known s moments s₁) :
    s₁.world.outputs.toList = s.world.outputs.toList ++ moments.filterMap Moment.shown? := by
  induction h with
  | nil s => exact (List.append_nil _).symm
  | cons hstep _ ih =>
    rw [ih, hstep.outputs_eq, List.append_assoc, List.filterMap_cons]
    split
    · next hnone => rw [hnone]; rfl
    · next output hsome => rw [hsome]; rfl

/-- A run shows nothing when it fails. -/
theorem Stop.outputs_eq (h : Stop r known s moments f s₂) :
    s₂.world.outputs = s.world.outputs ∧ moments.filterMap Moment.shown? = [] := by
  cases h <;> exact ⟨rfl, rfl⟩

/-- The statements that a run is inside of are known. -/
def Spot.Known (known : Statement → Prop) (s : Spot) : Prop :=
  ∀ st, .statement st ∈ s.frames → known st

/-- A step goes to no statement that is not known. -/
theorem Step.keepsKnown {event : Record.Event} (h : Step r known s event s₁) (hs : s.Known known) :
    s₁.Known known := by
  cases h <;> simp_all [Spot.Known]

theorem Stop.keepsKnown (h : Stop r known s moments f s₂) (hs : s.Known known) :
    s₂.Known known := by
  cases h <;> simp_all [Spot.Known]

/-! ## The courses of computations -/

variable {σ τ α β : Type}

/-- The moments of a computation that starts in the world `w` and has the given outcome. Where it
fails, the error has the line and the calls of the frames that it was raised in, and the state is
that of the moment, at the depth at which the computation started. -/
def Course (r : Rules) (known : Statement → Prop) (world : σ → World) (w : World)
    (moments : List Moment) : Outcome σ α → Prop
  | .done _ s => ∀ K, Path r known ⟨K, w⟩ moments ⟨K, world s⟩
  | .failed e s => ∃ frames w',
      (∀ K, Fails r known ⟨K, w⟩ moments e.fault ⟨frames ++ K, w'⟩) ∧
        e.line = Frame.line frames ∧ e.trace = Frame.calls frames ∧
          world s = { w' with depth := w.depth }
  | .unfinished => ∀ K, ∃ s, Path r known ⟨K, w⟩ moments s

/-- The course of a computation that goes on after some steps. -/
theorem Course.append {world : σ → World} {w w₁ : World} {o : Outcome σ α}
    (h : ∀ K, Path r known ⟨K, w⟩ moments ⟨K, w₁⟩) (h' : Course r known world w₁ moments' o) :
    Course r known world w (moments ++ moments') o := by
  -- a failure restores the depth at which it started, so that has to be the same before and after
  have hdepth : w₁.depth = w.depth := (h []).depth_eq
  cases o with
  | done v s => exact fun K => (h K).append (h' K)
  | failed e s =>
    obtain ⟨frames, w', hfails, hline, htrace, hworld⟩ := h'
    exact ⟨frames, w', fun K => (h K).fails (hfails K), hline, htrace, hdepth ▸ hworld⟩
  | unfinished =>
    intro K
    obtain ⟨s, hs⟩ := h' K
    exact ⟨s, (h K).append hs⟩

/-- The record `a` tells of a computation that starts in the world `w` and has the outcome `o`. -/
structure Record.Tells (r : Rules) (known : Statement → Prop) (world : σ → World) (w : World)
    (a : Record σ α) (o : Outcome σ α) : Prop where
  outcome : a.outcome = o
  course : Course r known world w a.moments o

/-- The line counts if there is none yet. -/
theorem RuntimeError.line_onLine (e : RuntimeError) (line : Int) :
    (e.onLine line).line = if e.line = 0 then line else e.line := by
  unfold onLine
  split <;> rfl

theorem RuntimeError.trace_onLine (e : RuntimeError) (line : Int) :
    (e.onLine line).trace = e.trace := by
  unfold onLine
  split <;> rfl

namespace Record.Tells

variable {world : σ → World} {w : World} {a : Record σ α} {o : Outcome σ α}

theorem done (v : α) (s : σ) (hs : world s = w) :
    (Record.silent (.done v s)).Tells r known world w (.done v s) :=
  ⟨rfl, fun _ => hs ▸ .nil _⟩

theorem unfinished :
    (Record.silent (.unfinished : Outcome σ α)).Tells r known world w .unfinished :=
  ⟨rfl, fun _ => ⟨_, .nil _⟩⟩

theorem raise (hf : f.isLocal = true) (s : σ) (hs : world s = w) :
    (Record.raise f w s : Record σ α).Tells r known world w (.failed (.ofFault f) s) :=
  ⟨rfl, [], w, fun _ => .stop (.fault hf), rfl, rfl, hs⟩

/-- An operation on values, variables, dice or arguments fails. -/
theorem operation (hf : f.isOperational = true) (s : σ) (hs : world s = w) :
    (Record.raise f w s : Record σ α).Tells r known world w (.failed (.ofFault f) s) :=
  raise (Fault.isLocal_of_isOperational hf) s hs

/-- An operation that leaves the world as it is is told. -/
theorem ofExcept {x : Except Fault α} (hx : ∀ f, x = .error f → f.isOperational = true)
    (w : World) : (Account.ofExcept w x : Record World α).Tells r known id w (.ofExcept w x) := by
  cases x with
  | ok v => exact done v w rfl
  | error f => exact operation (hx f rfl) w rfl

/-- Going on after a computation is told by its record and what is recorded then. -/
theorem bind {g : α → σ → Record σ β} {f : α → σ → Outcome σ β}
    (h : a.Tells r known world w o)
    (hg : ∀ v s, (g v s).Tells r known world (world s) (f v s)) :
    (a.bind g).Tells r known world w (o.bind f) := by
  obtain ⟨rfl, hcourse⟩ := h
  obtain ⟨moments, o⟩ := a
  cases o with
  | done v s => exact ⟨(hg v s).outcome, .append hcourse (hg v s).course⟩
  | failed e s => exact ⟨rfl, hcourse⟩
  | unfinished => exact ⟨rfl, hcourse⟩

/-- Another state at the end is told if it is in the same world. -/
theorem mapState {world' : τ → World} {g : σ → τ} (h : a.Tells r known world w o)
    (hg : ∀ s, world' (g s) = world s) :
    (a.mapState g).Tells r known world' w (o.mapState g) := by
  obtain ⟨rfl, hcourse⟩ := h
  obtain ⟨moments, o⟩ := a
  refine ⟨rfl, ?_⟩
  cases o with
  | done v s => exact fun K => hg s ▸ hcourse K
  | failed e s =>
    obtain ⟨frames, w', hfails, hline, htrace, hworld⟩ := hcourse
    exact ⟨frames, w', hfails, hline, htrace, (hg s).trans hworld⟩
  | unfinished => exact hcourse

/-- An event that leaves the frames as they are. -/
theorem note {event : Record.Event} {w₁ : World} (hstep : ∀ K, Step r known ⟨K, w⟩ event ⟨K, w₁⟩)
    (h : a.Tells r known world w₁ o) : (a.note event w).Tells r known world w o := by
  have hpath : ∀ K, Path r known ⟨K, w⟩ [⟨event, w⟩] ⟨K, w₁⟩ := fun K =>
    .cons (hstep K) (.nil _)
  exact ⟨h.outcome, .append hpath h.course⟩

/-! ### Calls -/

/-- A call that is too deep. -/
theorem tooDeep (name : String) (s : σ) (hs : world s = w) (hdepth : r.maxDepth ≤ w.depth) :
    ((Record.raise .tooDeep w s : Record σ α).note (.attempt name) w).Tells r known world w
      (.failed (.ofFault .tooDeep) s) :=
  ⟨rfl, [], w, fun _ => .stop (.tooDeep hdepth), rfl, rfl, hs⟩

/-- A call whose body is told by `a`. -/
theorem call {a : Record Store Signal} {o : Outcome Store Signal} (g : Function)
    (hdepth : w.depth < r.maxDepth)
    (h : a.Tells r known Store.world { w with depth := w.depth + 1 } o) :
    ((Account.leave g a).note (.enter g.name) w).Tells r known id w
      (((o.mapState Rules.leave).mapError (·.leaving g.name)).bind
        fun signal w => .done signal.value w) := by
  obtain ⟨rfl, hcourse⟩ := h
  obtain ⟨moments, o⟩ := a
  cases o with
  | done signal s =>
    refine ⟨rfl, fun K => .cons (.enter hdepth) ?_⟩
    have hmoments : (Account.leave g ⟨moments, .done signal s⟩ : Record World Value).moments =
        moments ++ [⟨.leave, s.world⟩] := List.append_nil _
    rw [hmoments]
    exact (hcourse (.call g.name :: K)).append (.cons .leave (.nil _))
  | failed e s =>
    obtain ⟨frames, w', hfails, hline, htrace, hworld⟩ := hcourse
    -- the body got to `frames` inside of the call, which adds its name and no line
    refine ⟨rfl, frames ++ [.call g.name], w', fun K => .cons (.enter hdepth) ?_, ?_, ?_, ?_⟩
    · rw [List.append_assoc]
      exact hfails (.call g.name :: K)
    · rw [Frame.line_append_call]
      exact hline
    · rw [Frame.calls_append]
      exact congrArg (· ++ [g.name]) htrace
    · simp only [id_eq, Rules.leave, hworld, Nat.add_sub_cancel]
  | unfinished =>
    refine ⟨rfl, fun K => ?_⟩
    obtain ⟨s, hs⟩ := hcourse (.call g.name :: K)
    exact ⟨s, .cons (.enter hdepth) hs⟩

/-! ### Statements -/

/-- A statement that is reached with a request to stop pending. -/
theorem stopped {st : Statement} (hst : known st) (hstop : w.interrupted = true) (s : σ)
    (hs : world s = { w with interrupted := false }) :
    (((Record.raise .interrupted w s : Record σ α).mapError (·.onLine st.line)).note
      (.reach st) w).Tells r known world w
      (.failed ((RuntimeError.ofFault .interrupted).onLine st.line) s) := by
  refine ⟨rfl, [.statement st], { w with interrupted := false }, fun K => ?_, ?_, rfl, hs⟩
  · exact .stop (.reach hst hstop)
  · exact (Frame.line_append_statement [] st).symm

/-- A statement whose action is told by `a`. -/
theorem statement {st : Statement} (hst : known st) (hgo : w.interrupted = false)
    (h : a.Tells r known world w o) :
    (((a.noteEnd .finish world).mapError (·.onLine st.line)).note (.reach st) w).Tells r known
      world w (o.mapError (·.onLine st.line)) := by
  obtain ⟨rfl, hcourse⟩ := h
  obtain ⟨moments, o⟩ := a
  cases o with
  | done v s =>
    refine ⟨rfl, fun K => .cons (.reach hst hgo) ?_⟩
    exact (hcourse (.statement st :: K)).append (.cons .finish (.nil _))
  | failed e s =>
    obtain ⟨frames, w', hfails, hline, htrace, hworld⟩ := hcourse
    -- the line of the statement counts only if no statement inside of it had one
    refine ⟨rfl, frames ++ [.statement st], w', fun K => .cons (.reach hst hgo) ?_, ?_, ?_, hworld⟩
    · rw [RuntimeError.fault_onLine, List.append_assoc]
      exact hfails (.statement st :: K)
    · rw [Frame.line_append_statement, ← hline]
      exact e.line_onLine st.line
    · rw [Frame.calls_append, ← htrace, RuntimeError.trace_onLine]
      exact (List.append_nil _).symm
  | unfinished =>
    refine ⟨rfl, fun K => ?_⟩
    obtain ⟨s, hs⟩ := hcourse (.statement st :: K)
    exact ⟨s, .cons (.reach hst hgo) hs⟩

/-- A pass of a loop that ends with a request to stop pending. -/
theorem stoppedAfterPass (hstop : w.interrupted = true) (s : σ)
    (hs : world s = { w with interrupted := false }) :
    ((Record.raise .interrupted w s : Record σ α).note .pass w).Tells r known world w
      (.failed (.ofFault .interrupted) s) :=
  ⟨rfl, [], { w with interrupted := false }, fun _ => .stop (.pass hstop), rfl, rfl, hs⟩

end Record.Tells

/-! ## The faults of operations -/

theorem Scope.isOperational_of_get {scope : Scope} {x : String} (h : scope.get x = .error f) :
    f.isOperational = true := by
  unfold get at h
  split at h <;> cases h
  rfl

theorem Scope.isOperational_of_introduce {scope : Scope} {x : String} {v : Value}
    (h : scope.introduce x v = .error f) : f.isOperational = true := by
  unfold introduce at h
  split at h <;> cases h
  rfl

theorem Scope.isOperational_of_assign {scope : Scope} {x : String} {v : Value}
    (h : scope.assign x v = .error f) : f.isOperational = true := by
  unfold assign at h
  split at h <;> cases h
  rfl

/-- Arithmetic fails for a reason of its own. -/
theorem ArithOp.isOperational_of_apply {op : ArithOp} {a b : Value} (h : op.apply a b = .error f) :
    f.isOperational = true := by
  unfold apply at h
  split at h
  · cases h
    rfl
  · split at h
    · split at h <;> cases h
      rfl
    · grind

/-- Comparisons fail for a reason of their own. -/
theorem CompareOp.isOperational_of_holds {op : CompareOp} {a b : Value}
    (h : op.holds a b = .error f) : f.isOperational = true := by
  unfold holds at h
  split at h
  · cases h
  · split at h
    · cases h
      rfl
    · cases op <;> cases h

/-- Rolls fail for a reason of their own. -/
theorem Generator.isOperational_of_roll {g : Generator} {n : Nat} {d : Dice}
    (h : g.roll n d = .error f) : f.isOperational = true := by
  unfold roll at h
  split at h <;> cases h
  rfl

/-- So do calls with the wrong number of arguments. -/
theorem Rules.isOperational_wrongCount (m n : Nat) : (wrongCount m n).isOperational = true := by
  unfold wrongCount
  split <;> rfl

/-! ## The interpreter -/

theorem mem_of_lookupFunction {functions : List Function} {name : String} {f : Function}
    (h : lookupFunction functions name = some f) : f ∈ functions :=
  List.mem_of_find?_eq_some h

/-- The record of a roll tells of the roll. -/
theorem World.tells_roll (n : Nat) (v : Value) (w : World) :
    (w.recordRoll n v).Tells r known id w (w.roll n v) := by
  unfold recordRoll Account.roll roll
  rcases v.dice? with - | d
  · dsimp only
    exact .operation (by rfl) w rfl
  · simp only [Realm.world]
    rcases hroll : w.generator.roll n d with f | - | ⟨total, g⟩
    · exact .operation (Generator.isOperational_of_roll hroll) w rfl
    · exact .unfinished
    · exact .note (fun K => .roll) (.done _ _ rfl)

/-- What a statement does after an expression, a condition or a call. -/
theorem Record.Tells.thenStore {scope : Scope} {w : World} {a : Record World α}
    {o : Outcome World α} {g : α → Store → Record Store Signal}
    {f : α → Store → Outcome Store Signal} (h : a.Tells r known id w o)
    (hg : ∀ v s, (g v s).Tells r known Store.world s.world (f v s)) :
    ((a.mapState (Store.mk scope)).bind g).Tells r known Store.world w
      ((o.mapState (⟨scope, ·⟩)).bind f) := by
  have hstore : (a.mapState (Store.mk scope)).Tells r known Store.world w
      (o.mapState (Store.mk scope)) := h.mapState fun _ => rfl
  exact hstore.bind hg

namespace Rules

/-- The records of all computations with `n` steps tell of them, as long as the statements are
known. -/
structure TellsAt (r : Rules) (known : Statement → Prop) (n : Nat) : Prop where
  eval : ∀ scope e w, (recorder.eval r n scope e w).Tells r known id w (r.eval n scope e w)
  chain : ∀ scope acc rest ops w,
    (recorder.chain r n scope acc rest ops w).Tells r known id w (r.chain n scope acc rest ops w)
  call : ∀ scope f args w,
    (recorder.call r n scope f args w).Tells r known id w (r.call n scope f args w)
  bindArguments : ∀ scope ps args callee w,
    (recorder.bindArguments r n scope ps args callee w).Tells r known id w
      (r.bindArguments n scope ps args callee w)
  test : ∀ scope c w, (recorder.test r n scope c w).Tells r known id w (r.test n scope c w)
  block : ∀ b, (∀ st ∈ Statement.blockStatements b, known st) → ∀ s,
    (recorder.block r n b s).Tells r known Store.world s.world (r.block n b s)
  sequence : ∀ statements, (∀ st ∈ Statement.allStatements statements, known st) → ∀ s,
    (recorder.sequence r n statements s).Tells r known Store.world s.world
      (r.sequence n statements s)
  statement : ∀ st, known st → (∀ st' ∈ st.nested, known st') → ∀ s,
    (recorder.statement r n st s).Tells r known Store.world s.world (r.statement n st s)
  action : ∀ st, (∀ st' ∈ st.nested, known st') → ∀ s,
    (recorder.action r n st s).Tells r known Store.world s.world (r.action n st s)
  loop : ∀ c body, (∀ st ∈ Statement.blockStatements body, known st) → ∀ s,
    (recorder.loop r n c body s).Tells r known Store.world s.world (r.loop n c body s)

section Induction

variable {n : Nat}

theorem tellsAt_zero : TellsAt r known 0 := by
  constructor
  all_goals
    intros
    exact .unfinished

/-- The value of an expression is told. -/
theorem tells_eval (ih : TellsAt r known n) (scope : Scope) (e : Expr) (w : World) :
    (recorder.eval r (n + 1) scope e w).Tells r known id w (r.eval (n + 1) scope e w) := by
  cases e with
  | number v => exact .done _ w rfl
  | text s => exact .done _ w rfl
  | dice d => exact .done _ w rfl
  | var x => exact .ofExcept (fun f hf => Scope.isOperational_of_get hf) w
  | call f args =>
    simp only [Evaluator.eval, eval]
    exact ih.call scope f args w
  | roll operand =>
    simp only [Evaluator.eval, eval]
    exact (ih.eval scope operand w).bind fun v w => World.tells_roll n v w
  | chain operands operators =>
    rcases operands with - | ⟨first, rest⟩
    · exact .done _ w rfl
    · simp only [Evaluator.eval, eval]
      refine (ih.eval scope first w).bind fun acc w => ?_
      rcases operators with - | ⟨op, ops⟩
      · exact .done _ w rfl
      · by_cases hacc : acc.isNumeric = true
        · simp only [if_pos hacc]
          exact ih.chain scope acc rest (op :: ops) w
        · simp only [if_neg hacc]
          exact .raise (by rfl) w rfl
  | hole => exact .raise (by rfl) w rfl
  | «foreign» label => exact .raise (by rfl) w rfl

/-- The value of a chain is told. -/
theorem tells_chain (ih : TellsAt r known n) (scope : Scope) (acc : Value) (operands : List Expr)
    (operators : List ArithOp) (w : World) :
    (recorder.chain r (n + 1) scope acc operands operators w).Tells r known id w
      (r.chain (n + 1) scope acc operands operators w) := by
  rcases operators with - | ⟨op, ops⟩
  · cases operands <;> exact .done _ w rfl
  rcases operands with - | ⟨operand, rest⟩
  · exact .done _ w rfl
  · simp only [Evaluator.chain, chain]
    refine (ih.eval scope operand w).bind fun v w => ?_
    rcases happly : op.apply acc v with f | acc
    · exact .operation (ArithOp.isOperational_of_apply happly) w rfl
    · exact ih.chain scope acc rest ops w

/-- The arguments of a call are told. -/
theorem tells_bindArguments (ih : TellsAt r known n) (scope : Scope) (parameters : List String)
    (args : List Expr) (callee : Scope) (w : World) :
    (recorder.bindArguments r (n + 1) scope parameters args callee w).Tells r known id w
      (r.bindArguments (n + 1) scope parameters args callee w) := by
  rcases parameters with - | ⟨p, ps⟩
  · simp only [Evaluator.bindArguments, bindArguments]
    exact .done _ w rfl
  rcases args with - | ⟨arg, args⟩
  · simp only [Evaluator.bindArguments, bindArguments]
    exact .done _ w rfl
  · simp only [Evaluator.bindArguments, bindArguments]
    refine (ih.eval scope arg w).bind fun v w => ?_
    simp only [Realm.introduce]
    rcases hcallee : callee.introduce p v with f | callee
    · exact .operation (Scope.isOperational_of_introduce hcallee) w rfl
    · exact ih.bindArguments scope ps args callee w

/-- A call is told, from the attempt on. -/
theorem tells_call (hr : ∀ f ∈ r.functions, ∀ st ∈ Statement.blockStatements f.body, known st)
    (ih : TellsAt r known n) (scope : Scope) (name : String) (args : List Expr) (w : World) :
    (recorder.call r (n + 1) scope name args w).Tells r known id w
      (r.call (n + 1) scope name args w) := by
  simp only [Evaluator.call, call_succ, Realm.function, Family.function]
  rcases hf : lookupFunction r.functions name with - | f
  · exact .raise (by rfl) w rfl
  by_cases hcount : args.length ≠ f.parameters.length
  · simp only [if_pos hcount]
    exact .operation (isOperational_wrongCount _ _) w rfl
  simp only [if_neg hcount]
  refine (ih.bindArguments scope f.parameters args .empty w).bind fun callee w => ?_
  -- the depth is looked at only now: the arguments may have made calls of their own
  by_cases hdepth : r.maxDepth ≤ w.depth
  · simp only [Realm.world_world, if_pos hdepth]
    exact .tooDeep f.name w rfl hdepth
  · simp only [Realm.world_world, if_neg hdepth]
    have hlt : w.depth < r.maxDepth := Nat.lt_of_not_le hdepth
    have hbody := ih.block f.body (hr f (mem_of_lookupFunction hf))
      ⟨callee, { w with depth := w.depth + 1 }⟩
    exact .note (fun K => .attempt hlt) (.call f hlt hbody)

/-- Whether a condition holds is told. -/
theorem tells_test (ih : TellsAt r known n) (scope : Scope) (c : Condition) (w : World) :
    (recorder.test r (n + 1) scope c w).Tells r known id w (r.test (n + 1) scope c w) := by
  simp only [Evaluator.test, test]
  refine (ih.eval scope c.left w).bind fun a w => ?_
  refine (ih.eval scope c.right w).bind fun b w => ?_
  exact .ofExcept (fun f hf => CompareOp.isOperational_of_holds hf) w

/-- What a block does is told. -/
theorem tells_block (ih : TellsAt r known n) (b : Block)
    (hb : ∀ st ∈ Statement.blockStatements b, known st) (s : Store) :
    (recorder.block r (n + 1) b s).Tells r known Store.world s.world (r.block (n + 1) b s) := by
  rcases b with - | statements
  · simp only [Evaluator.block, block]
    exact .done _ s rfl
  · simp only [Evaluator.block, block]
    exact ih.sequence statements hb s

/-- What statements in a row do is told. -/
theorem tells_sequence (ih : TellsAt r known n) (statements : List Statement)
    (hstatements : ∀ st ∈ Statement.allStatements statements, known st) (s : Store) :
    (recorder.sequence r (n + 1) statements s).Tells r known Store.world s.world
      (r.sequence (n + 1) statements s) := by
  rcases statements with - | ⟨first, rest⟩
  · simp only [Evaluator.sequence, sequence]
    exact .done _ s rfl
  · rw [Statement.allStatements, List.forall_mem_cons, List.forall_mem_append] at hstatements
    obtain ⟨hfirst, hnested, hrest⟩ := hstatements
    rw [Evaluator.sequence, sequence_cons]
    refine (ih.statement first hfirst hnested s).bind fun signal s => ?_
    cases signal with
    | next => exact ih.sequence rest hrest s
    | returned v => exact .done _ s rfl

/-- A statement is told, from where it is reached. -/
theorem tells_statement (ih : TellsAt r known n) (st : Statement) (hst : known st)
    (hnested : ∀ st' ∈ st.nested, known st') (s : Store) :
    (recorder.statement r (n + 1) st s).Tells r known Store.world s.world
      (r.statement (n + 1) st s) := by
  simp only [Evaluator.statement, statement, Site.world_store]
  by_cases hstop : s.world.interrupted = true
  · simp only [if_pos hstop]
    exact .stopped hst hstop _ rfl
  · simp only [if_neg hstop]
    exact .statement hst (Bool.eq_false_iff.mpr hstop) (ih.action st hnested s)

/-- What a statement says is told as it is done. -/
theorem tells_action (ih : TellsAt r known n) (st : Statement)
    (hnested : ∀ st' ∈ st.nested, known st') (s : Store) :
    (recorder.action r (n + 1) st s).Tells r known Store.world s.world
      (r.action (n + 1) st s) := by
  cases st with
  | declare line type x =>
    simp only [Evaluator.action, action, Site.declare]
    rcases hscope : s.scope.declare x with f | scope
    · exact .operation (Scope.isOperational_of_introduce hscope) s rfl
    · exact .done _ _ rfl
  | assign line x e =>
    simp only [Evaluator.action, action, Site.assign]
    refine (ih.eval s.scope e s.world).thenStore fun v s => ?_
    rcases hscope : s.scope.assign x v with f | scope
    · exact .operation (Scope.isOperational_of_assign hscope) s rfl
    · exact .done _ _ rfl
  | attack line attacker defender =>
    simp only [Evaluator.action, action]
    exact .done _ s rfl
  | loop line c body =>
    simp only [Evaluator.action, action]
    exact ih.loop c body hnested s
  | branch line c body alternative =>
    simp only [Statement.nested, List.forall_mem_append] at hnested
    simp only [Evaluator.action, action]
    refine (ih.test s.scope c s.world).thenStore fun holds s => ?_
    cases holds with
    | true => exact ih.block body hnested.1 s
    | false => exact ih.block alternative hnested.2 s
  | log line e =>
    simp only [Evaluator.action, action]
    refine (ih.eval s.scope e s.world).thenStore fun v s => ?_
    exact .note (fun K => .display) (.done _ _ rfl)
  | give line e =>
    simp only [Evaluator.action, action]
    exact (ih.eval s.scope e s.world).thenStore fun v s => .done _ s rfl
  | call line f args =>
    simp only [Evaluator.action, action]
    exact (ih.call s.scope f args s.world).thenStore fun _ s => .done _ s rfl
  | «foreign» line label =>
    simp only [Evaluator.action, action]
    exact .raise (by rfl) s rfl

/-- A loop is told pass after pass. -/
theorem tells_loop (ih : TellsAt r known n) (c : Condition) (body : Block)
    (hbody : ∀ st ∈ Statement.blockStatements body, known st) (s : Store) :
    (recorder.loop r (n + 1) c body s).Tells r known Store.world s.world
      (r.loop (n + 1) c body s) := by
  rw [Evaluator.loop, loop_succ]
  refine (ih.test s.scope c s.world).thenStore fun holds s => ?_
  cases holds with
  | false => exact .done _ s rfl
  | true =>
    refine (ih.block body hbody s).bind fun signal s => ?_
    cases signal with
    | returned v => exact .done _ s rfl
    | next =>
      simp only [Site.world_store]
      by_cases hstop : s.world.interrupted = true
      · simp only [if_pos hstop]
        exact .stoppedAfterPass hstop _ rfl
      · simp only [if_neg hstop]
        exact .note (fun K => .pass (Bool.eq_false_iff.mpr hstop)) (ih.loop c body hbody s)

end Induction

/-- **Records tell of computations.** With any number of steps, a computation and its record have
the same outcome, and the moments are steps that lead there. -/
theorem tellsAt (hr : ∀ f ∈ r.functions, ∀ st ∈ Statement.blockStatements f.body, known st)
    (n : Nat) : TellsAt r known n := by
  induction n with
  | zero => exact tellsAt_zero
  | succ n ih =>
    exact
      { eval := tells_eval ih
        chain := tells_chain ih
        call := tells_call hr ih
        bindArguments := tells_bindArguments ih
        test := tells_test ih
        block := tells_block ih
        sequence := tells_sequence ih
        statement := tells_statement ih
        action := tells_action ih
        loop := tells_loop ih }

/-- The record of instructions tells of them. -/
theorem tells_instructions
    (hr : ∀ f ∈ r.functions, ∀ st ∈ Statement.blockStatements f.body, known st) (n : Nat)
    (statements : List Statement) (h : ∀ st ∈ Statement.allStatements statements, known st)
    (s : Store) :
    (recorder.instructions r n statements s).Tells r known Store.world s.world
      (r.instructions n statements s) := by
  induction statements generalizing s with
  | nil => exact .done () s rfl
  | cons first rest ih =>
    rw [Statement.allStatements, List.forall_mem_cons, List.forall_mem_append] at h
    obtain ⟨hfirst, hnested, hrest⟩ := h
    rw [Evaluator.instructions, instructions_cons]
    exact ((tellsAt hr n).statement first hfirst hnested s).bind fun _ s => ih hrest s

end Rules

end Adventure
