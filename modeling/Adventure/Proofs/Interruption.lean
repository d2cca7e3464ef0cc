import Adventure.Proofs.Ending
import Adventure.Proofs.Reached

/-!
# Requests to stop

A program is asked to stop from outside, before it is run, or by something that it shows. The
request is looked for whenever a statement is reached and whenever a pass of a loop is over. The
first time that it is found, the run fails and the request is gone; if it is not found, the request
is still there for the next run.

There are three parts. What the record of a run says about requests is read off its steps
(`Record.Heeds`). Where a request is pending, expressions end, because the body of every function
stops at its first statement (`Rules.callsEnd_of_pending`). And a computation in which a request was
pending at some moment ends as well, loops included (`Rules.haltsAt`): what is left of it is some
expressions up to the next statement or the end of the pass. `Machine.request_stops_at_next_check`
has all of this for machines.
-/

namespace Adventure

open Outcome (Ends)

/-! ## Requests on record -/

/-- Whether a request to stop is looked for at the event: a statement is reached, or a pass of a
loop is over. -/
def Record.Event.isCheck : Record.Event → Bool
  | .reach _ | .pass => true
  | .finish | .attempt _ | .enter _ | .leave | .roll | .display _ | .raise _ => false

/-- Whether one of the outputs, which are shown one after the other behind the earlier ones, is a
reason to stop. -/
def Listener.asksAmong (l : Listener) (earlier : List Output) : List Output → Bool
  | [] => false
  | o :: more => l.asks earlier o || l.asksAmong (earlier ++ [o]) more

/-- Whether the program was asked to stop: `asked` says if it was before the moments, and `listener`
is told from then on what it shows. -/
def requested (listener : Option Listener) (asked : Bool) (moments : List Moment) : Bool :=
  asked || listener.any (·.asksAmong [] (moments.filterMap Moment.shown?))

/-- A listener that was told of an output goes on as if it had come with the earlier ones. -/
theorem Listener.asksAmong_told (l : Listener) (o : Output) (earlier outputs : List Output) :
    (l.told o).asksAmong earlier outputs = l.asksAmong (o :: earlier) outputs := by
  induction outputs generalizing earlier with
  | nil => rfl
  | cons o' more ih => rw [asksAmong, asksAmong, ih, told, List.cons_append]

/-- Moments that show nothing leave requests as they are. -/
theorem requested_append_of_mute (listener : Option Listener) (asked : Bool)
    (moments : List Moment) {last : List Moment} (h : ∀ m ∈ last, m.shown? = none) :
    requested listener asked (moments ++ last) = requested listener asked moments := by
  have hnone : last.filterMap Moment.shown? = [] := List.filterMap_eq_nil_iff.mpr h
  rw [requested, requested, List.filterMap_append, hnone, List.append_nil]

section Paths

variable {r : Rules} {known : Statement → Prop} {s s₁ : Spot} {moments before after : List Moment}
  {m : Moment} {f : Fault}

/-- A step leaves a request pending, and may add one if it shows something. -/
theorem Step.requested_cons {event : Record.Event} (h : Step r known s event s₁)
    (moments : List Moment) :
    requested s.world.listener s.world.interrupted (⟨event, s.world⟩ :: moments) =
      requested s₁.world.listener s₁.world.interrupted moments := by
  cases h with
  | @display K w text =>
    rcases hlistener : w.listener with - | l
    · simp [requested, World.display, World.asks, hlistener]
    · simp [requested, World.display, World.asks, hlistener, Moment.shown?, Listener.asksAmong,
        Listener.asksAmong_told, Bool.or_assoc]
  | reach | finish | attempt | enter | leave | roll | pass => rfl

/-- No step goes past a check with a request pending. -/
theorem Step.interrupted_of_isCheck {event : Record.Event} (h : Step r known s event s₁)
    (hcheck : event.isCheck = true) : s.world.interrupted = false := by
  cases h with
  | reach hst hgo => exact hgo
  | pass hgo => exact hgo
  | finish | attempt | enter | leave | roll | display => cases hcheck

/-- A run is interrupted if a listener asked for it on the way. -/
theorem Path.interrupted_eq (h : Path r known s moments s₁) :
    s₁.world.interrupted = requested s.world.listener s.world.interrupted moments := by
  induction h with
  | nil s => simp [requested, Listener.asksAmong]
  | cons hstep _ ih => rw [ih, hstep.requested_cons]

/-- At each moment a request is pending if a listener made it before. -/
theorem Path.pending (h : Path r known s moments s₁) (hm : moments = before ++ m :: after) :
    m.world.interrupted = requested s.world.listener s.world.interrupted before := by
  induction h generalizing before with
  | nil s => simp at hm
  | cons hstep _ ih =>
    rcases before with - | ⟨first, before⟩
    · obtain ⟨rfl, -⟩ := List.cons.inj hm
      simp [requested, Listener.asksAmong]
    · obtain ⟨rfl, hmore⟩ := List.cons.inj hm
      rw [ih hmore, hstep.requested_cons]

/-- What is checked is done only if no request is pending. -/
theorem Path.interrupted_of_isCheck (h : Path r known s moments s₁) (hm : m ∈ moments)
    (hcheck : m.event.isCheck = true) : m.world.interrupted = false := by
  induction h with
  | nil s => cases hm
  | cons hstep _ ih =>
    rcases List.mem_cons.mp hm with rfl | hm
    · exact hstep.interrupted_of_isCheck hcheck
    · exact ih hm

/-- What is looked for in the last moments of a run that fails is the request to stop. -/
theorem Stop.found (h : Stop r known s moments f s₁) (hm : moments = before ++ m :: after)
    (hcheck : m.event.isCheck = true) :
    after = [⟨.raise .interrupted, m.world⟩] ∧ f = .interrupted ∧
      s₁.world.interrupted = false := by
  rcases before with - | ⟨first, before⟩
  · cases h <;> obtain ⟨rfl, rfl⟩ := List.cons.inj hm
    case fault | tooDeep => cases hcheck
    case reach | pass => exact ⟨rfl, rfl, rfl⟩
  · -- only the first of them can be a check
    have htail : m ∈ moments.tail := by simp [hm]
    cases h with
    | fault => cases htail
    | tooDeep | reach | pass =>
      obtain rfl := List.mem_singleton.mp htail
      cases hcheck

/-- Nothing is shown while a run stops. -/
theorem Stop.shown?_eq (h : Stop r known s moments f s₁) (hm : m ∈ moments) :
    m.shown? = none := by
  cases h <;> simp only [List.mem_cons, List.not_mem_nil, or_false] at hm
  case fault => exact hm ▸ rfl
  case tooDeep | reach | pass => rcases hm with rfl | rfl <;> rfl

/-- Also in a run that fails a request is pending if a listener made it before. -/
theorem Fails.pending (h : Fails r known s moments f s₁) (hm : moments = before ++ m :: after) :
    m.world.interrupted = requested s.world.listener s.world.interrupted before := by
  induction h generalizing before with
  | stop hstop =>
    -- the last moments are in one world and show nothing
    have hworld := hstop.exists_raise.2 m (by simp [hm])
    have hmute : ∀ m' ∈ before, m'.shown? = none :=
      fun m' hm' => hstop.shown?_eq (by simp [hm, hm'])
    rw [hworld, ← List.nil_append before, requested_append_of_mute _ _ _ hmute]
    simp [requested, Listener.asksAmong]
  | cons hstep _ ih =>
    rcases before with - | ⟨first, before⟩
    · obtain ⟨rfl, -⟩ := List.cons.inj hm
      simp [requested, Listener.asksAmong]
    · obtain ⟨rfl, hmore⟩ := List.cons.inj hm
      rw [ih hmore, hstep.requested_cons]

/-- A check with a request pending is the end, and then the request is gone. -/
theorem Fails.found (h : Fails r known s moments f s₁) (hm : moments = before ++ m :: after)
    (hcheck : m.event.isCheck = true) (hpending : m.world.interrupted = true) :
    after = [⟨.raise .interrupted, m.world⟩] ∧ f = .interrupted ∧
      s₁.world.interrupted = false := by
  induction h generalizing before with
  | stop hstop => exact hstop.found hm hcheck
  | cons hstep _ ih =>
    rcases before with - | ⟨first, before⟩
    · obtain ⟨rfl, -⟩ := List.cons.inj hm
      have hgo := hstep.interrupted_of_isCheck hcheck
      rw [hpending] at hgo
      cases hgo
    · obtain ⟨rfl, hmore⟩ := List.cons.inj hm
      exact ih hmore

/-- A run that fails because of a request has found it at a check. -/
theorem Stop.reported (h : Stop r known s moments .interrupted s₁) :
    ∃ event, moments = [⟨event, s.world⟩, ⟨.raise .interrupted, s.world⟩] ∧
      event.isCheck = true ∧ s.world.interrupted = true := by
  cases h with
  | fault hf => cases hf
  | reach hst hstop => exact ⟨_, rfl, rfl, hstop⟩
  | pass hstop => exact ⟨_, rfl, rfl, hstop⟩

/-- A run that fails for another reason leaves the request as it is. -/
theorem Stop.interrupted_eq (h : Stop r known s moments f s₁) (hf : f ≠ .interrupted) :
    s₁.world.interrupted = s.world.interrupted := by
  cases h with
  | fault | tooDeep => rfl
  | reach | pass => exact absurd rfl hf

end Paths

/-- What a record says about requests, where `asked` says if there was one at the start and
`listener` is told what is shown: how the run ended; that at every moment a request was pending
exactly if there had been one; that a check with a request pending was the last thing that happened,
so that no statement was carried out and no loop went on from there, and that the run failed because
of it and left no request; that a run which failed because of a request had found it; and that
otherwise the request is still there. -/
structure Record.Heeds (listener : Option Listener) (asked : Bool) (a : Record Machine Unit)
    (o : Outcome Machine Unit) : Prop where
  outcome : a.outcome = o
  pending : ∀ before m after, a.moments = before ++ m :: after →
    m.world.interrupted = requested listener asked before
  found : ∀ before m after, a.moments = before ++ m :: after → m.event.isCheck = true →
    m.world.interrupted = true → after = [⟨.raise .interrupted, m.world⟩] ∧
      ∃ e m', o = .failed e m' ∧ e.fault = .interrupted ∧ m'.world.interrupted = false
  reported : ∀ e m', o = .failed e m' → e.fault = .interrupted →
    ∃ before m, a.moments = before ++ [m, ⟨.raise .interrupted, m.world⟩] ∧
      m.event.isCheck = true ∧ m.world.interrupted = true
  stays : ∀ m', o.state? = some m' → (∀ e, o = .failed e m' → e.fault ≠ .interrupted) →
    m'.world.interrupted = requested listener asked a.moments

/-- A run that goes on heeds its listener. -/
theorem Record.Heeds.of_path {r : Rules} {known : Statement → Prop} {w : World} {s : Spot}
    {a : Record Machine Unit} (h : Path r known ⟨[], w⟩ a.moments s)
    (hfailed : ∀ e m', a.outcome ≠ .failed e m')
    (hstate : ∀ m', a.outcome.state? = some m' → m'.world = s.world) :
    a.Heeds w.listener w.interrupted a.outcome where
  outcome := rfl
  pending := fun before m after hm => h.pending hm
  found := by
    intro before m after hm hcheck hpending
    have hgo := h.interrupted_of_isCheck (by simp [hm]) hcheck
    rw [hpending] at hgo
    cases hgo
  reported := fun e m' heq => absurd heq (hfailed e m')
  stays := by
    intro m' hm' _
    rw [hstate m' hm']
    exact h.interrupted_eq

/-- **The record of a run heeds requests.** -/
theorem Record.Tells.heeds {r : Rules} {known : Statement → Prop} {w : World}
    {a : Record Machine Unit} {o : Outcome Machine Unit}
    (h : a.Tells r known Machine.world w o) : a.Heeds w.listener w.interrupted o := by
  obtain ⟨rfl, hcourse⟩ := h
  obtain ⟨moments, o⟩ := a
  cases o with
  | done v m =>
    refine .of_path (hcourse []) (fun _ _ heq => by cases heq) fun m' hm' => ?_
    obtain rfl : m = m' := Option.some.inj hm'
    rfl
  | unfinished =>
    obtain ⟨s, hs⟩ := hcourse []
    exact .of_path hs (fun _ _ heq => by cases heq) fun _ hm' => by cases hm'
  | failed e m =>
    obtain ⟨frames, w', hfails, -, -, hworld⟩ := hcourse
    -- the error and the flag are those of the moment at which the run stopped
    have hflag : m.world.interrupted = w'.interrupted := by rw [hworld]
    obtain ⟨steps, s₁, last, hsplit, hpath, hstop⟩ := (hfails []).exists_stop
    have hmoments : moments = steps ++ last := hsplit
    refine ⟨rfl, fun before m after hm => (hfails []).pending hm, ?_, ?_, ?_⟩
    · intro before m₁ after hm hcheck hpending
      obtain ⟨hafter, hfault, hgone⟩ := (hfails []).found hm hcheck hpending
      exact ⟨hafter, e, m, rfl, hfault, hflag.trans hgone⟩
    · intro e' m' heq hfault
      cases heq
      rw [hfault] at hstop
      obtain ⟨event, hlast, hcheck, hpending⟩ := hstop.reported
      exact ⟨steps, ⟨event, s₁.world⟩, hlast ▸ hmoments, hcheck, hpending⟩
    · intro m' hm' hother
      obtain rfl : m = m' := Option.some.inj hm'
      have hsame : w'.interrupted = s₁.world.interrupted :=
        hstop.interrupted_eq (hother e rfl)
      rw [hflag, hsame, hpath.interrupted_eq, hmoments,
        requested_append_of_mute _ _ _ fun _ hm₁ => hstop.shown?_eq hm₁]

/-! ## Where a request is pending, expressions end -/

namespace Rules

variable {r : Rules}

/-- A statement that is reached fails. -/
theorem ends_statement_of_pending (st : Statement) {s : Store}
    (hs : s.world.interrupted = true) :
    Ends (fun _ _ => False) fun n => r.statement n st s := by
  apply Ends.of_succ
  simp only [statement, if_pos hs]
  exact .failed _ _

/-- Statements stop at the first one. -/
theorem ends_sequence_of_pending (statements : List Statement) {s : Store}
    (hs : s.world.interrupted = true) :
    Ends (fun _ s => s.world.interrupted = true) fun n => r.sequence n statements s := by
  apply Ends.of_succ
  rcases statements with - | ⟨first, rest⟩
  · simp only [sequence]
    exact .done hs
  · simp only [sequence_cons]
    exact (ends_statement_of_pending first hs).bind fun _ _ h => h.elim

/-- A block ends if a request is pending. -/
theorem ends_block_of_pending (b : Block) {s : Store} (hs : s.world.interrupted = true) :
    Ends (fun _ s => s.world.interrupted = true) fun n => r.block n b s := by
  apply Ends.of_succ
  rcases b with - | statements
  · simp only [block]
    exact .done hs
  · simp only [block]
    exact ends_sequence_of_pending statements hs

/-- A call ends if a request is pending. -/
theorem ends_enter_of_pending (f : Function) (callee : Scope) {w : World}
    (hw : w.interrupted = true) :
    Ends (fun _ w => w.interrupted = true) fun n => r.enter n f callee w :=
  ends_enter ((ends_block_of_pending f.body hw).mono fun _ _ hs => hs)

/-- **With a request pending, calls end**, whatever functions there are: a body stops at its first
statement, and the request is still pending after one that has none. -/
theorem callsEnd_of_pending (r : Rules) :
    r.CallsEnd (fun w => w.interrupted = true) fun _ => True where
  roll := fun _ _ hw => hw
  enter := fun _ f _ _ callee _ hw _ => ends_enter_of_pending f callee hw

/-- What a loop does after a pass that came to the signal. -/
def afterPass (r : Rules) (n : Nat) (c : Condition) (body : Block) :
    Signal → Store → Outcome Store Signal
  | .next, s =>
    if s.world.interrupted then
      .failed (.ofFault .interrupted) { s with world.interrupted := false }
    else r.loop n c body s
  | .returned v, s => .done (.returned v) s

/-- A loop tests its condition, does its body and goes on. -/
theorem loop_eq_afterPass (n : Nat) (c : Condition) (body : Block) (s : Store) :
    r.loop (n + 1) c body s =
      ((r.test n s.scope c s.world).mapState (⟨s.scope, ·⟩)).bind fun holds s =>
        if holds then (r.block n body s).bind (r.afterPass n c body) else .done .next s := by
  rw [loop_succ]
  congr
  funext holds s
  congr
  funext signal s
  cases signal <;> rfl

/-- A loop is over at the end of the pass. -/
theorem ends_afterPass_of_pending {c : Condition} {body : Block} (signal : Signal) {s : Store}
    (hs : s.world.interrupted = true) :
    Ends (fun _ s => s.world.interrupted = true) fun n => r.afterPass n c body signal s := by
  cases signal with
  | next =>
    simp only [afterPass, if_pos hs]
    exact .failed _ _
  | returned v => exact .done hs

/-- Instructions end if a request is pending. -/
theorem ends_instructions_of_pending (statements : List Statement) {s : Store}
    (hs : s.world.interrupted = true) :
    Ends (fun _ s => s.world.interrupted = true) fun n => r.instructions n statements s := by
  rcases statements with - | ⟨first, rest⟩
  · exact .done hs
  · simp only [instructions_cons]
    exact (ends_statement_of_pending first hs).bind fun _ _ h => h.elim

end Rules

/-! ## Where a request was pending, everything ends -/

namespace Record

variable {σ τ α β : Type}

/-- At some moment on record a request was pending. -/
def Pending (a : Record σ α) : Prop :=
  ∃ m ∈ a.moments, m.world.interrupted = true

/-- If a request was pending at some moment on record, then the computation ends, and the request is
still pending unless the computation fails. And if it ended with a value on record, then it does so
with any number of steps that is large enough. -/
structure Halts (world : σ → World) (a : Record σ α) (f : Nat → Outcome σ α) : Prop where
  ends : a.Pending → Ends (fun _ s => (world s).interrupted = true) f
  value : ∀ v s, a.outcome = .done v s → ∃ least, ∀ n, least ≤ n → f n = .done v s

/-- Nothing is pending on an empty record. -/
theorem not_pending_silent (o : Outcome σ α) : ¬(silent o).Pending := by
  simp [Pending, silent]

/-- A request is pending at a moment or after it. -/
theorem Pending.of_note {event : Record.Event} {w : World} {a : Record σ α}
    (h : (a.note event w).Pending) : w.interrupted = true ∨ a.Pending := by
  simpa [Pending, note] using h

/-- A request is pending in the first record or in the second. -/
theorem Pending.of_bind {a : Record σ α} {g : α → σ → Record σ β} (h : (a.bind g).Pending) :
    a.Pending ∨ ∃ v s, a.outcome = .done v s ∧ (g v s).Pending := by
  obtain ⟨m, hm, hpending⟩ := h
  obtain ⟨moments, o⟩ := a
  cases o with
  | done v s =>
    rcases List.mem_append.mp hm with hm | hm
    · exact .inl ⟨m, hm, hpending⟩
    · exact .inr ⟨v, s, rfl, m, hm, hpending⟩
  | failed e s => exact .inl ⟨m, hm, hpending⟩
  | unfinished => exact .inl ⟨m, hm, hpending⟩

namespace Halts

variable {world : σ → World} {a : Record σ α} {f : Nat → Outcome σ α}

/-- What is done at once halts. -/
theorem done (v : α) (s : σ) : (silent (.done v s)).Halts world fun _ => .done v s where
  ends := fun h => absurd h (not_pending_silent _)
  value := by
    intro v' s' heq
    cases heq
    exact ⟨0, fun _ _ => rfl⟩

/-- What is raised at once halts. -/
theorem raise (e : Fault) (w : World) (s : σ) :
    (Record.raise e w s : Record σ α).Halts world fun _ => .failed (.ofFault e) s where
  ends := fun _ => .failed _ s
  value := by
    intro v' s' heq
    cases heq

/-- An operation that is carried out or raised halts. -/
theorem ofExcept (w : World) (x : Except Fault α) :
    (Account.ofExcept w x : Record World α).Halts id fun _ => .ofExcept w x := by
  cases x with
  | ok v => exact .done v w
  | error e => exact .raise e w w

/-- Where nothing is on record there is nothing to halt. -/
theorem unfinished : (silent (.unfinished : Outcome σ α)).Halts world f where
  ends := fun h => absurd h (not_pending_silent _)
  value := by
    intro v' s' heq
    cases heq

/-- A step less is enough. -/
theorem of_succ (h : a.Halts world fun n => f (n + 1)) : a.Halts world f where
  ends := fun hpending => .of_succ (h.ends hpending)
  value := by
    intro v s heq
    obtain ⟨least, hleast⟩ := h.value v s heq
    refine ⟨least + 1, fun n hn => ?_⟩
    obtain ⟨n, rfl⟩ : ∃ k, n = k + 1 := ⟨n - 1, by omega⟩
    exact hleast n (Nat.le_of_succ_le_succ hn)

/-- Going on after a computation: what follows has to end where a request is pending, and to halt
with the record that is made of it. -/
theorem bind {g : α → σ → Record σ β} {k : α → σ → Nat → Outcome σ β} (h : a.Halts world f)
    (hpending : ∀ v s, (world s).interrupted = true →
      Ends (fun _ s => (world s).interrupted = true) (k v s))
    (hg : ∀ v s, (g v s).Halts world (k v s)) :
    (a.bind g).Halts world fun n => (f n).bind fun v s => k v s n where
  ends := by
    intro hbind
    rcases hbind.of_bind with hfirst | ⟨v, s, hdone, hmore⟩
    · exact (h.ends hfirst).bind hpending
    · obtain ⟨least, hleast⟩ := h.value v s hdone
      have hf : Ends (fun v' s' => v' = v ∧ s' = s) f := ⟨.done v s, ⟨rfl, rfl⟩, least, hleast⟩
      refine hf.bind fun v' s' heq => ?_
      obtain ⟨rfl, rfl⟩ := heq
      exact (hg v' s').ends hmore
  value := by
    intro v s heq
    obtain ⟨moments, o⟩ := a
    cases o with
    | done v₁ s₁ =>
      obtain ⟨least, hleast⟩ := h.value v₁ s₁ rfl
      -- both values are there from the larger number of steps on
      obtain ⟨least', hleast'⟩ := (hg v₁ s₁).value v s heq
      refine ⟨max least least', fun n hn => ?_⟩
      have hfirst := hleast n (Nat.le_trans (Nat.le_max_left _ _) hn)
      simp only [hfirst, Outcome.bind_done]
      exact hleast' n (Nat.le_trans (Nat.le_max_right _ _) hn)
    | failed e s₁ => cases heq
    | unfinished => cases heq

/-- What halts still does if a moment goes before at which a request makes it end. -/
theorem note {event : Record.Event} {w : World} (h : a.Halts world f)
    (hpending : w.interrupted = true → Ends (fun _ s => (world s).interrupted = true) f) :
    (a.note event w).Halts world f where
  ends := fun hnote => hnote.of_note.elim hpending h.ends
  value := h.value

/-- An event that is on record after the computation. -/
theorem noteEnd (h : a.Halts world f) (event : Record.Event) :
    (a.noteEnd event world).Halts world f where
  ends := by
    intro hbind
    rcases hbind.of_bind with hfirst | ⟨v, s, hdone, hnote⟩
    · exact h.ends hfirst
    · obtain ⟨least, hleast⟩ := h.value v s hdone
      have hs : (world s).interrupted = true :=
        hnote.of_note.resolve_right (not_pending_silent _)
      exact ⟨.done v s, hs, least, hleast⟩
  value := by
    intro v s heq
    obtain ⟨moments, o⟩ := a
    cases o with
    | done v₁ s₁ => exact h.value v s heq
    | failed e s₁ => cases heq
    | unfinished => cases heq

/-- A computation still halts with another state, if that is interrupted as the first. -/
theorem mapState {world' : τ → World} {g : σ → τ} (h : a.Halts world f)
    (hg : ∀ s, (world' (g s)).interrupted = (world s).interrupted) :
    (a.mapState g).Halts world' fun n => (f n).mapState g where
  ends := fun hpending => (h.ends hpending).mapState fun _ s hs => (hg s).trans hs
  value := by
    intro v t heq
    obtain ⟨moments, o⟩ := a
    cases o with
    | done v₁ s =>
      obtain ⟨least, hleast⟩ := h.value v₁ s rfl
      refine ⟨least, fun n hn => ?_⟩
      simp only [hleast n hn]
      exact heq
    | failed e s => cases heq
    | unfinished => cases heq

/-- A computation still halts with another error. -/
theorem mapError (g : RuntimeError → RuntimeError) (h : a.Halts world f) :
    (a.mapError g).Halts world fun n => (f n).mapError g where
  ends := fun hpending => (h.ends hpending).mapError g
  value := by
    intro v s heq
    obtain ⟨moments, o⟩ := a
    cases o with
    | done v₁ s₁ =>
      obtain ⟨least, hleast⟩ := h.value v₁ s₁ rfl
      refine ⟨least, fun n hn => ?_⟩
      simp only [hleast n hn]
      exact heq
    | failed e s₁ => cases heq
    | unfinished => cases heq

/-- What a statement does after an expression, a condition or a call. -/
theorem thenStore {scope : Scope} {a : Record World α} {f : Nat → Outcome World α}
    {g : α → Store → Record Store Signal} {k : α → Store → Nat → Outcome Store Signal}
    (h : a.Halts id f)
    (hpending : ∀ v (s : Store), s.world.interrupted = true →
      Ends (fun _ s => s.world.interrupted = true) (k v s))
    (hg : ∀ v s, (g v s).Halts Store.world (k v s)) :
    ((a.mapState (⟨scope, ·⟩)).bind g).Halts Store.world fun n =>
      ((f n).mapState (⟨scope, ·⟩)).bind fun v s => k v s n := by
  have hstore : (a.mapState (Store.mk scope)).Halts Store.world fun n =>
      (f n).mapState (Store.mk scope) := h.mapState fun _ => rfl
  exact hstore.bind hpending hg

end Halts

end Record

/-- The record of a roll has its outcome. -/
theorem World.outcome_recordRoll (n : Nat) (v : Value) (w : World) :
    (w.recordRoll n v).outcome = w.roll n v := by
  unfold recordRoll Account.roll roll
  rcases v.dice? with - | d
  · rfl
  · dsimp only
    rcases w.generator.roll n d with f | - | ⟨total, g⟩ <;> rfl

/-- A roll is on record in the world it was made in. -/
theorem World.world_of_mem_recordRoll {n : Nat} {v : Value} {w : World} {m : Moment}
    (hm : m ∈ (w.recordRoll n v).moments) : m.world = w := by
  unfold recordRoll Account.roll at hm
  split at hm
  · exact congrArg Moment.world (List.mem_singleton.mp hm)
  · split at hm
    · exact congrArg Moment.world (List.mem_singleton.mp hm)
    · cases hm
    · exact congrArg Moment.world (List.mem_singleton.mp hm)

/-- A roll halts. -/
theorem World.halts_roll (n : Nat) (v : Value) (w : World) :
    (w.recordRoll n v).Halts id fun n => w.roll n v where
  ends := by
    rintro ⟨m, hm, hpending⟩
    rw [world_of_mem_recordRoll hm] at hpending
    exact World.ends_roll (fun _ _ hw => hw) v hpending
  value := by
    intro v' w' hdone
    rw [outcome_recordRoll] at hdone
    refine ⟨n, fun k hk => ?_⟩
    have hkept : (w.roll n v).Kept (fun _ => False) (following #[]) ((w.following #[]).roll k v) :=
      kept_roll #[] hk (fun h => h.elim) v w
    rw [hdone, following_empty] at hkept
    exact hkept trivial

namespace Rules

variable {r : Rules}

/-- The records of all computations with `n` steps tell that they halt. -/
structure HaltsAt (r : Rules) (n : Nat) : Prop where
  eval : ∀ scope e w, (recorder.eval r n scope e w).Halts id fun k => r.eval k scope e w
  chain : ∀ scope acc rest ops w,
    (recorder.chain r n scope acc rest ops w).Halts id fun k => r.chain k scope acc rest ops w
  call : ∀ scope f args w,
    (recorder.call r n scope f args w).Halts id fun k => r.call k scope f args w
  bindArguments : ∀ scope ps args callee w,
    (recorder.bindArguments r n scope ps args callee w).Halts id fun k =>
      r.bindArguments k scope ps args callee w
  test : ∀ scope c w, (recorder.test r n scope c w).Halts id fun k => r.test k scope c w
  block : ∀ b s, (recorder.block r n b s).Halts Store.world fun k => r.block k b s
  sequence : ∀ statements s,
    (recorder.sequence r n statements s).Halts Store.world fun k => r.sequence k statements s
  statement : ∀ st s, (recorder.statement r n st s).Halts Store.world fun k => r.statement k st s
  action : ∀ st s, (recorder.action r n st s).Halts Store.world fun k => r.action k st s
  loop : ∀ c body s, (recorder.loop r n c body s).Halts Store.world fun k => r.loop k c body s

section Induction

variable {n : Nat}

/-- Without steps there is nothing on record. -/
theorem haltsAt_zero : HaltsAt r 0 := by
  constructor
  all_goals
    intros
    exact .unfinished

/-- The record of an expression tells that it halts. -/
theorem halts_eval (ih : HaltsAt r n) (scope : Scope) (e : Expr) (w : World) :
    (recorder.eval r (n + 1) scope e w).Halts id fun k => r.eval k scope e w := by
  apply Record.Halts.of_succ
  cases e with
  | number v =>
    simp only [Evaluator.eval, eval]
    exact .done _ w
  | text s =>
    simp only [Evaluator.eval, eval]
    exact .done _ w
  | dice d =>
    simp only [Evaluator.eval, eval]
    exact .done _ w
  | var x =>
    simp only [Evaluator.eval, eval]
    exact .ofExcept w _
  | call f args =>
    simp only [Evaluator.eval, eval]
    exact ih.call scope f args w
  | roll operand =>
    simp only [Evaluator.eval, eval]
    -- a roll ends by itself, since not all attempts to draw can fail
    refine (ih.eval scope operand w).bind (fun v w hw => ?_) fun v w => World.halts_roll n v w
    exact World.ends_roll (fun _ _ hw => hw) v hw
  | chain operands operators =>
    rcases operands with - | ⟨first, rest⟩
    · simp only [Evaluator.eval, eval]
      exact .done _ w
    · simp only [Evaluator.eval, eval]
      refine (ih.eval scope first w).bind (fun acc w hw => ?_) fun acc w => ?_
      -- with a request pending every call ends, and with the calls the other operands do
      · rcases operators with - | ⟨op, ops⟩
        · exact .done hw
        · by_cases hacc : acc.isNumeric = true
          · simp only [if_pos hacc]
            exact ends_chain (callsEnd_of_pending r) rest (fun _ _ => trivial) scope acc _ w hw
          · simp only [if_neg hacc]
            exact .failed _ w
      · rcases operators with - | ⟨op, ops⟩
        · exact .done _ w
        · by_cases hacc : acc.isNumeric = true
          · simp only [if_pos hacc]
            exact ih.chain scope acc rest (op :: ops) w
          · simp only [if_neg hacc]
            exact .raise _ w w
  | hole =>
    simp only [Evaluator.eval, eval]
    exact .raise _ w w
  | «foreign» label =>
    simp only [Evaluator.eval, eval]
    exact .raise _ w w

/-- The record of a chain of operands tells that it halts. -/
theorem halts_chain (ih : HaltsAt r n) (scope : Scope) (acc : Value) (operands : List Expr)
    (operators : List ArithOp) (w : World) :
    (recorder.chain r (n + 1) scope acc operands operators w).Halts id fun k =>
      r.chain k scope acc operands operators w := by
  apply Record.Halts.of_succ
  rcases operators with - | ⟨op, ops⟩
  · cases operands <;> exact .done _ w
  rcases operands with - | ⟨operand, rest⟩
  · exact .done _ w
  · simp only [Evaluator.chain, chain]
    refine (ih.eval scope operand w).bind (fun v w hw => ?_) fun v w => ?_
    · rcases op.apply acc v with f | acc
      · exact .failed _ w
      · exact ends_chain (callsEnd_of_pending r) rest (fun _ _ => trivial) scope acc ops w hw
    · rcases op.apply acc v with f | acc
      · exact .raise _ w w
      · exact ih.chain scope acc rest ops w

/-- The record of passing arguments tells that it halts. -/
theorem halts_bindArguments (ih : HaltsAt r n) (scope : Scope) (parameters : List String)
    (args : List Expr) (callee : Scope) (w : World) :
    (recorder.bindArguments r (n + 1) scope parameters args callee w).Halts id fun k =>
      r.bindArguments k scope parameters args callee w := by
  apply Record.Halts.of_succ
  rcases parameters with - | ⟨p, ps⟩
  · simp only [Evaluator.bindArguments, bindArguments]
    exact .done _ w
  rcases args with - | ⟨arg, args⟩
  · simp only [Evaluator.bindArguments, bindArguments]
    exact .done _ w
  · simp only [Evaluator.bindArguments, bindArguments]
    refine (ih.eval scope arg w).bind (fun v w hw => ?_) fun v w => ?_
    · rcases callee.introduce p v with f | callee
      · exact .failed _ w
      · exact ends_bindArguments (callsEnd_of_pending r) args (fun _ _ => trivial) scope ps callee
          w hw
    · simp only [Realm.introduce]
      rcases callee.introduce p v with f | callee
      · exact .raise _ w w
      · exact ih.bindArguments scope ps args callee w

/-- A call whose parameters are bound halts if the body does. -/
theorem halts_enter (ih : HaltsAt r n) (f : Function) (callee : Scope) (w : World) :
    (recorder.enter r n f callee w).Halts id fun k => r.enter k f callee w := by
  have hbody := (ih.block f.body ⟨callee, { w with depth := w.depth + 1 }⟩).noteEnd .leave
  have hleft : (((recorder.block r n f.body ⟨callee, { w with depth := w.depth + 1 }⟩).noteEnd
      .leave Store.world).mapState leave).Halts id fun k =>
        (r.block k f.body ⟨callee, { w with depth := w.depth + 1 }⟩).mapState leave :=
    hbody.mapState fun _ => rfl
  exact (hleft.mapError (·.leaving f.name)).bind (fun signal w hw => .done hw)
    fun signal w => .done signal.value w

/-- The record of a call tells that it halts. -/
theorem halts_call (ih : HaltsAt r n) (scope : Scope) (name : String) (args : List Expr)
    (w : World) :
    (recorder.call r (n + 1) scope name args w).Halts id fun k => r.call k scope name args w := by
  apply Record.Halts.of_succ
  simp only [call_succ, Evaluator.call, Realm.function, Family.function]
  rcases lookupFunction r.functions name with - | f
  · exact .raise _ w w
  by_cases hcount : args.length ≠ f.parameters.length
  · simp only [if_pos hcount]
    exact .raise _ w w
  simp only [if_neg hcount]
  refine (ih.bindArguments scope f.parameters args .empty w).bind (fun callee w hw => ?_)
    fun callee w => ?_
  all_goals by_cases hdepth : r.maxDepth ≤ w.depth
  · simp only [if_pos hdepth]
    exact .failed _ w
  · simp only [if_neg hdepth]
    exact ends_enter_of_pending f callee hw
  · simp only [Realm.world_world, if_pos hdepth]
    exact (Record.Halts.raise _ w w).note fun _ => .failed _ w
  · simp only [Realm.world_world, if_neg hdepth]
    have hpending : w.interrupted = true →
        Ends (fun _ w => w.interrupted = true) fun k => r.enter k f callee w :=
      fun hw => ends_enter_of_pending f callee hw
    exact ((halts_enter ih f callee w).note hpending).note hpending

/-- The record of a condition tells that it halts. -/
theorem halts_test (ih : HaltsAt r n) (scope : Scope) (c : Condition) (w : World) :
    (recorder.test r (n + 1) scope c w).Halts id fun k => r.test k scope c w := by
  apply Record.Halts.of_succ
  simp only [Evaluator.test, test]
  refine (ih.eval scope c.left w).bind (fun a w hw => ?_) fun a w => ?_
  · exact (ends_eval (callsEnd_of_pending r) c.right (fun _ _ => trivial) scope w hw).bind
      fun b w hw => .ofExcept fun _ => hw
  · exact (ih.eval scope c.right w).bind (fun b w hw => .ofExcept fun _ => hw)
      fun b w => .ofExcept w _

/-- The record of a block tells that it halts. -/
theorem halts_block (ih : HaltsAt r n) (b : Block) (s : Store) :
    (recorder.block r (n + 1) b s).Halts Store.world fun k => r.block k b s := by
  apply Record.Halts.of_succ
  rcases b with - | statements
  · simp only [Evaluator.block, block]
    exact .done _ s
  · simp only [Evaluator.block, block]
    exact ih.sequence statements s

/-- The record of a list of statements tells that it halts. -/
theorem halts_sequence (ih : HaltsAt r n) (statements : List Statement) (s : Store) :
    (recorder.sequence r (n + 1) statements s).Halts Store.world fun k =>
      r.sequence k statements s := by
  apply Record.Halts.of_succ
  rcases statements with - | ⟨first, rest⟩
  · simp only [Evaluator.sequence, sequence]
    exact .done _ s
  · simp only [Evaluator.sequence, sequence_cons]
    refine (ih.statement first s).bind (fun signal s hs => ?_) fun signal s => ?_
    all_goals cases signal
    · exact ends_sequence_of_pending rest hs
    · exact .done hs
    · exact ih.sequence rest s
    · exact .done _ s

/-- The record of a statement tells that it halts. -/
theorem halts_statement (ih : HaltsAt r n) (st : Statement) (s : Store) :
    (recorder.statement r (n + 1) st s).Halts Store.world fun k => r.statement k st s := by
  have hpending : s.world.interrupted = true →
      Ends (fun _ s => s.world.interrupted = true) fun k => r.statement k st s :=
    fun hs => (ends_statement_of_pending st hs).mono fun _ _ h => h.elim
  rw [Evaluator.statement]
  refine .note (.of_succ ?_) hpending
  simp only [statement, Site.world_store]
  by_cases hstop : s.world.interrupted = true
  · simp only [if_pos hstop]
    exact (Record.Halts.raise _ _ _).mapError _
  · simp only [if_neg hstop]
    exact ((ih.action st s).noteEnd .finish).mapError _

/-- The record of what a statement says tells that it halts. -/
theorem halts_action (ih : HaltsAt r n) (st : Statement) (s : Store) :
    (recorder.action r (n + 1) st s).Halts Store.world fun k => r.action k st s := by
  apply Record.Halts.of_succ
  cases st with
  | declare line type x =>
    simp only [Evaluator.action, action, Site.declare]
    rcases s.scope.declare x with f | scope
    · exact .raise _ _ s
    · exact .done _ _
  | assign line x e =>
    simp only [Evaluator.action, action, Site.assign]
    refine (ih.eval s.scope e s.world).thenStore (fun v s hs => ?_) fun v s => ?_
    all_goals rcases s.scope.assign x v with f | scope
    · exact .failed _ s
    · exact .done hs
    · exact .raise _ _ s
    · exact .done _ _
  | attack line attacker defender =>
    simp only [Evaluator.action, action]
    exact .done _ s
  | loop line c body =>
    simp only [Evaluator.action, action]
    exact ih.loop c body s
  | branch line c body alternative =>
    simp only [Evaluator.action, action]
    refine (ih.test s.scope c s.world).thenStore (fun holds s hs => ?_) fun holds s => ?_
    all_goals cases holds
    · exact ends_block_of_pending alternative hs
    · exact ends_block_of_pending body hs
    · exact ih.block alternative s
    · exact ih.block body s
  | log line e =>
    have hdisplay : ∀ (v : Value) (s : Store), s.world.interrupted = true →
        Ends (fun _ s => s.world.interrupted = true) fun _ =>
          .done Signal.next { s with world := s.world.display v.format } :=
      fun v s hs => .done (by simp [World.display, hs])
    simp only [Evaluator.action, action]
    exact (ih.eval s.scope e s.world).thenStore hdisplay fun v s =>
      (Record.Halts.done _ _).note (hdisplay v s)
  | give line e =>
    simp only [Evaluator.action, action]
    exact (ih.eval s.scope e s.world).thenStore (fun v s hs => .done hs) fun v s => .done _ s
  | call line f args =>
    simp only [Evaluator.action, action]
    exact (ih.call s.scope f args s.world).thenStore (fun v s hs => .done hs) fun v s => .done _ s
  | «foreign» line label =>
    simp only [Evaluator.action, action]
    exact .raise _ _ s

/-- The record of a loop tells that it halts. -/
theorem halts_loop (ih : HaltsAt r n) (c : Condition) (body : Block) (s : Store) :
    (recorder.loop r (n + 1) c body s).Halts Store.world fun k => r.loop k c body s := by
  apply Record.Halts.of_succ
  simp only [Evaluator.loop, loop_eq_afterPass]
  refine (ih.test s.scope c s.world).thenStore (fun holds s hs => ?_) fun holds s => ?_
  all_goals cases holds
  · exact .done hs
  · exact (ends_block_of_pending body hs).bind fun signal _ => ends_afterPass_of_pending signal
  · exact .done _ s
  · refine (ih.block body s).bind (fun signal _ => ends_afterPass_of_pending signal)
      fun signal s => ?_
    cases signal with
    | returned v => exact .done _ s
    | next =>
      refine .note ?_ (ends_afterPass_of_pending .next)
      simp only [afterPass, Site.world_store]
      by_cases hstop : s.world.interrupted = true
      · simp only [if_pos hstop]
        exact .raise _ _ _
      · simp only [if_neg hstop]
        exact ih.loop c body s

end Induction

/-- **Computations halt** where a request is on record. -/
theorem haltsAt (r : Rules) (n : Nat) : HaltsAt r n := by
  induction n with
  | zero => exact haltsAt_zero
  | succ n ih =>
    exact
      { eval := halts_eval ih
        chain := halts_chain ih
        call := halts_call ih
        bindArguments := halts_bindArguments ih
        test := halts_test ih
        block := halts_block ih
        sequence := halts_sequence ih
        statement := halts_statement ih
        action := halts_action ih
        loop := halts_loop ih }

/-- The record of instructions tells that they halt. -/
theorem halts_instructions (n : Nat) (statements : List Statement) (s : Store) :
    (recorder.instructions r n statements s).Halts Store.world fun k =>
      r.instructions k statements s := by
  induction statements generalizing s with
  | nil => exact .done () s
  | cons first rest ih =>
    simp only [Evaluator.instructions, instructions_cons]
    exact ((haltsAt r n).statement first s).bind
      (fun _ s hs => ends_instructions_of_pending rest hs) fun _ s => ih s

end Rules

/-! ## Machines -/

namespace Machine

/-- The record of what a machine performs tells that it halts. -/
theorem halts_perform (m : Machine) (steps : Nat) (statements : List Statement) :
    (m.recordPerform steps statements).Halts world fun k => m.perform k statements :=
  (Rules.halts_instructions steps statements ⟨m.scope, m.world⟩).mapState fun _ => rfl

/-- A machine with a pending request ends what it performs. -/
theorem ends_perform_of_pending {m : Machine} (h : m.world.interrupted = true)
    (statements : List Statement) : Ends (fun _ _ => True) fun k => m.perform k statements := by
  have hinstructions : Ends (fun _ s => s.world.interrupted = true) fun k =>
      m.rules.instructions k statements ⟨m.scope, m.world⟩ :=
    Rules.ends_instructions_of_pending statements h
  exact hinstructions.mapState fun _ _ _ => trivial

/-- What a machine does with requests, where `record` and `outcome` are the records and outcomes for
any number of steps: every record heeds them, and if there was one at the start or while the program
ran, then it ends. -/
def HeedsIn (m : Machine) (record : Nat → Record Machine Unit)
    (outcome : Nat → Outcome Machine Unit) : Prop :=
  ∀ steps, (record steps).Heeds m.world.listener m.world.interrupted (outcome steps) ∧
    (m.world.interrupted = true ∨ (record steps).Pending → Ends (fun _ _ => True) outcome)

/-- A machine heeds its listener in what it performs. -/
theorem heedsIn_perform (m : Machine) (statements : List Statement) :
    m.HeedsIn (fun steps => m.recordPerform steps statements)
      fun steps => m.perform steps statements := by
  intro steps
  have htells : (m.recordPerform steps statements).Tells m.rules (fun _ => True) world m.world
      (m.perform steps statements) :=
    tells_perform (fun _ _ _ _ => trivial) steps fun _ _ => trivial
  refine ⟨htells.heeds, ?_⟩
  rintro (hasked | hpending)
  · exact ends_perform_of_pending hasked statements
  · exact ((m.halts_perform steps statements).ends hpending).mono fun _ _ _ => trivial

/-- A program that cannot be registered leaves a request as it is. -/
theorem heedsIn_of_refused {m : Machine} {p : Program} {e : RuntimeError}
    (h : m.quiet.load p = .error e) :
    m.HeedsIn (fun steps => m.recordEvaluate steps p) fun steps => m.evaluate steps p := by
  have hfault : e.fault ≠ .interrupted := by
    unfold load at h
    split at h <;> cases h
    exact Fault.noConfusion
  intro steps
  simp only [recordEvaluate, evaluate, h]
  refine ⟨⟨rfl, by simp [Record.silent], by simp [Record.silent], ?_, ?_⟩, fun _ => .failed _ _⟩
  · rintro e' m' heq hfault'
    cases heq
    exact absurd hfault' hfault
  · intro m' hm' _
    obtain rfl : m.quiet = m' := Option.some.inj hm'
    simp [requested, Record.silent, quiet, Listener.asksAmong]

/-- **A request to stop takes effect at the next statement.** If a machine is run, or is handed a
program, and a request is pending when a statement is reached or a pass of a loop is over, then this
is where it ends: with the error that says so, which takes the request away. Nothing is carried out
in between, and no request is lost, since one that was not found is there for the next run, and none
is reported twice. What was going on when the request came ends by itself: any expression does, with
whatever functions and loops in them, and so does the run. -/
theorem request_stops_at_next_check (m : Machine) :
    m.HeedsIn (fun steps => m.recordRun steps) (fun steps => m.run steps) ∧
    (∀ p, m.HeedsIn (fun steps => m.recordEvaluate steps p) fun steps => m.evaluate steps p) ∧
    ∀ (r : Rules) (scope : Scope) (e : Expr) (w : World), w.interrupted = true →
      Ends (fun _ w => w.interrupted = true) fun steps => r.eval steps scope e w := by
  refine ⟨heedsIn_perform m.quiet m.instructions, fun p => ?_, fun r scope e w hw => ?_⟩
  · rcases hload : m.quiet.load p with error | m'
    · exact heedsIn_of_refused hload
    · obtain ⟨-, rfl⟩ := (load_eq_ok_iff _ _ _).mp hload
      simp only [recordEvaluate, evaluate, hload]
      exact heedsIn_perform (m.quiet.adding p) p.instructions
  · exact Rules.ends_eval (Rules.callsEnd_of_pending r) e (fun _ _ => trivial) scope w hw

/-- A function that shows something, one with an endless loop, and an endless loop that calls the
first one. -/
def tolling : Program :=
  ⟨[], [⟨1, "toll", [], some [.log 2 (.text "stop")]⟩,
    ⟨4, "spin", [], some [.loop 5 ⟨.number 1, .equal, .number 1⟩ none]⟩],
    [.loop 7 ⟨.number 1, .equal, .number 1⟩ (some [.call 8 "toll" []]), .log 10 (.text "late")]⟩

/-- The machine of that program, which is asked to stop when it shows something again. -/
def tollingMachine : Machine :=
  ((blank tolling.instructions ⟨#[], 0, 0⟩).adding tolling).setListener
    (some ⟨fun earlier o => earlier.contains o⟩)

/-- The loop stops at the end of its second pass, and the request is gone. If nothing is carried
out, it is kept, and a call of the function with the endless loop ends where it is pending. -/
theorem tolling_stops_after_second_pass :
    (∃ m, tollingMachine.run 20 = .failed ⟨.interrupted, 7, []⟩ m ∧
      m.outputs = [⟨"stop", true⟩, ⟨"stop", true⟩] ∧ m.world.interrupted = false ∧
      ∃ before moment, (tollingMachine.recordRun 20).moments =
        before ++ [moment, ⟨.raise .interrupted, moment.world⟩] ∧
        moment.event.isCheck = true ∧ moment.world.interrupted = true) ∧
    (∃ m, tollingMachine.interrupt.evaluate 20 .empty = .done () m ∧
      m.world.interrupted = true) ∧
    ∃ steps, tollingMachine.rules.eval steps .empty (.call "spin" [])
      ⟨⟨#[], 0, 0⟩, 0, true, #[], none⟩ ≠ .unfinished := by
  obtain ⟨hrun, -, hexpressions⟩ := request_stops_at_next_check tollingMachine
  obtain ⟨-, hprograms, -⟩ := request_stops_at_next_check tollingMachine.interrupt
  obtain ⟨m, hfailed, houtputs⟩ : ∃ m, tollingMachine.run 20 = .failed ⟨.interrupted, 7, []⟩ m ∧
      m.outputs = [⟨"stop", true⟩, ⟨"stop", true⟩] := ⟨_, rfl, rfl⟩
  obtain ⟨m', hdone⟩ : ∃ m', tollingMachine.interrupt.evaluate 20 .empty = .done () m' := ⟨_, rfl⟩
  obtain ⟨before, moment, hmoments, hcheck, hpending⟩ := (hrun 20).1.reported _ m hfailed rfl
  obtain ⟨-, e, m₁, heq, -, hgone⟩ := (hrun 20).1.found before moment _ hmoments hcheck hpending
  have hsame : m₁ = m := by
    cases hfailed.symm.trans heq
    rfl
  have hstays := (hprograms .empty 20).1.stays m' (congrArg Outcome.state? hdone) fun e heq => by
    cases hdone.symm.trans heq
  exact ⟨⟨m, hfailed, houtputs, hsame ▸ hgone, before, moment, hmoments, hcheck, hpending⟩,
    ⟨m', hdone, hstays⟩,
    (hexpressions tollingMachine.rules .empty (.call "spin" []) _ rfl).exists_ne_unfinished⟩

end Machine

end Adventure
