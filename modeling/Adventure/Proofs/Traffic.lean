import Adventure.Proofs.ErrorPlace
import Adventure.Proofs.Interruption
import Adventure.Viewer
import Adventure.Viewer.Viewport

/-!
# What goes on beside a viewer

A desk carries out at once what its viewer asks for. Beside a real screen this takes time: a start
or a wait is under way for a while, then its message is, and meanwhile the program runs on and the
user presses keys. `Traffic` is a viewer with the calls that have not come back and the runs, and
`Traffic.Step` are the things that can happen, in any order.

A run reports what it shows and then its end. It is asked to stop at any time, which it finds out
at its next check, so what it can have reported is the beginning of its record up to some moment,
or the whole, or what was shown before one of the checks (`Machine.Reports`).

If the user does not ask for another start while one is under way, the traffic is always in one of
four phases (`Traffic.Phase`), and at most one program is under way. A key that is pressed while a
start is under way breaks this (`Traffic.one_program_iff_patient`).
-/

namespace Adventure

open Viewer (Event Message Request)

/-! ## Reports -/

/-- The error of a program that finds itself asked to stop at the last of the moments. -/
def interruptedAt (moments : List Moment) : RuntimeError :=
  ⟨.interrupted, Frame.line (framesAfter [] moments), Frame.calls (framesAfter [] moments)⟩

namespace Machine

/-- How a run can end: what it has shown by then, and the error if there is one. -/
inductive Ends (m : Machine) : (asked : Bool) → List Output → Option RuntimeError → Prop where
  | done {asked : Bool} {steps : Nat} {m' : Machine} (h : m.run steps = .done () m') :
      Ends m asked m'.outputs none
  | failed {asked : Bool} {steps : Nat} {e : RuntimeError} {m' : Machine}
      (h : m.run steps = .failed e m') : Ends m asked m'.outputs (some e)
  | interrupted {steps : Nat} {before after : List Moment} {check : Moment}
      (h : (m.recordRun steps).moments = before ++ check :: after)
      (hcheck : check.event.isCheck = true) :
      Ends m true (before.filterMap Moment.shown?) (some (interruptedAt (before ++ [check])))

/-- What a run can have reported. If it was `asked` to stop, it can be interrupted. -/
inductive Reports (m : Machine) (asked : Bool) : List Event → Prop where
  | going {steps : Nat} {before after : List Moment}
      (h : (m.recordRun steps).moments = before ++ after) :
      Reports m asked ((before.filterMap Moment.shown?).map .output)
  | ended {outputs : List Output} {error : Option RuntimeError} (h : m.Ends asked outputs error) :
      Reports m asked (outputs.map .output ++ [.ended (error.map (·.message))])

variable {m : Machine} {asked : Bool}

theorem Ends.ask {outputs : List Output} {error : Option RuntimeError}
    (h : m.Ends asked outputs error) : m.Ends true outputs error := by
  cases h with
  | done h => exact .done h
  | failed h => exact .failed h
  | interrupted h hcheck => exact .interrupted h hcheck

theorem Reports.ask {events : List Event} (h : m.Reports asked events) :
    m.Reports true events := by
  cases h with
  | going h => exact .going h
  | ended h => exact .ended h.ask

theorem Reports.nil (m : Machine) (asked : Bool) : m.Reports asked [] := by
  have hmoments : (m.recordRun 0).moments = [] ++ (m.recordRun 0).moments := rfl
  exact .going hmoments

end Machine

/-! ## Runs and calls -/

/-- How far a run has got with the viewer. -/
inductive LiveRun.Stage where
  /-- the viewer has not heard of it -/
  | launched
  /-- the viewer knows that it has started -/
  | live
  /-- the viewer knows that it has ended -/
  | over
  deriving DecidableEq, Repr

/-- A run beside a viewer, with the reports that were received and those that wait to be. -/
structure LiveRun where
  machine : Machine
  /-- whether it was asked to stop -/
  asked : Bool
  received : List Event
  channel : List Event
  stage : LiveRun.Stage
  possible : machine.Reports asked (received ++ channel)

namespace LiveRun

/-- How many reports can wait. -/
def capacity : Nat := 256

/-- The run of a machine, which has reported nothing yet. -/
def ofMachine (m : Machine) : LiveRun :=
  ⟨m, false, [], [], .launched, .nil m false⟩

/-- Everything that the run has reported. -/
def sent (R : LiveRun) : List Event :=
  R.received ++ R.channel

/-- Asks the run to stop. -/
def ask (R : LiveRun) : LiveRun :=
  { R with asked := true, possible := R.possible.ask }

/-- The run gets further with the viewer. -/
def advance (R : LiveRun) (stage : Stage) : LiveRun :=
  { R with stage }

theorem possible_report {R : LiveRun} {e : Event}
    (h : R.machine.Reports R.asked (R.sent ++ [e])) :
    R.machine.Reports R.asked (R.received ++ (R.channel ++ [e])) := by
  rwa [sent, List.append_assoc] at h

/-- The run reports something. -/
def report (R : LiveRun) (e : Event) (h : R.machine.Reports R.asked (R.sent ++ [e])) : LiveRun :=
  { R with channel := R.channel ++ [e], possible := possible_report h }

theorem possible_receive {R : LiveRun} {e : Event} {more : List Event}
    (h : R.channel = e :: more) : R.machine.Reports R.asked (R.received ++ [e] ++ more) := by
  have hpossible := R.possible
  rwa [h, List.append_cons] at hpossible

/-- The first of the reports that wait is received. -/
def receive (R : LiveRun) (e : Event) (more : List Event) (h : R.channel = e :: more) : LiveRun :=
  { R with received := R.received ++ [e], channel := more, possible := possible_receive h }

end LiveRun

/-- Something that a viewer has asked for and that has not come back: it was not carried out yet, or
it was and its message is under way. -/
structure Call where
  request : Request
  answer : Option Message
  deriving DecidableEq, Repr

/-- Whether it is a wait that is asked for. -/
def Viewer.Request.isAwait : Request → Bool
  | .await _ => true
  | .start | .interrupt _ | .quit => false

/-- What the coming back of a call tells about the runs. -/
def Call.settle (c : Call) (runs : List LiveRun) : List LiveRun :=
  match c.request, c.answer with
  | .start, some (.started run _) => runs.modify run (·.advance .live)
  | .await run, some (.event (.ended _)) => runs.modify run (·.advance .over)
  | _, _ => runs

/-! ## Traffic -/

/-- A viewer with what goes on beside it. -/
structure Traffic (ω : Type) where
  viewer : Viewer ω
  /-- what has not come back -/
  calls : List Call
  /-- the runs by their numbers -/
  runs : List LiveRun

namespace Traffic

variable {ω : Type}

/-- What can happen. -/
inductive Action (ω : Type) where
  /-- the user presses a key -/
  | key (name : String)
  /-- the screen gets another size -/
  | resize (width height : Int)
  /-- the window is moved in a way that the viewer does not know of -/
  | scroll (window : ω)
  /-- a start is carried out -/
  | launch
  /-- a run reports something -/
  | report (run : Nat) (e : Event)
  /-- a wait for a run is carried out -/
  | wait (run : Nat)
  /-- a call comes back -/
  | deliver (c : Call)

/-- Takes on what the viewer asks for. A run is asked to stop at once. A viewer that is left needs
nothing more, but it may still be handed what was under way. -/
def take (t : Traffic ω) : Option Request → Traffic ω
  | some .start => { t with calls := t.calls ++ [⟨.start, none⟩] }
  | some (.await run) => { t with calls := t.calls ++ [⟨.await run, none⟩] }
  | some (.interrupt run) => { t with runs := t.runs.modify run LiveRun.ask }
  | some .quit | none => t

/-- The number of starts that have not come back. -/
def starts (t : Traffic ω) : Nat :=
  t.calls.countP (·.request = .start)

/-- The number of waits that have not come back. -/
def waits (t : Traffic ω) : Nat :=
  t.calls.countP (·.request.isAwait)

/-- The number of programs that are under way: of the starts that have not come back, and of the
runs that the viewer knows to have started and not to have ended. -/
def programs (t : Traffic ω) : Nat :=
  t.starts + t.runs.countP (·.stage = .live)

/-- Whether the user asks for another start while one is under way. -/
def Impatient (t : Traffic ω) (a : Action ω) : Prop :=
  a = .key "r" ∧ t.starts ≠ 0

/-- Whether the user never did that. -/
def Patient (history : List (Traffic ω × Action ω)) : Prop :=
  ∀ x ∈ history, ¬Impatient x.1 x.2

variable [Window ω]

/-- The traffic when the viewer begins: it has asked for the program to be started. -/
def start (settings : Settings) : Traffic ω :=
  ⟨.start settings.path, [⟨.start, none⟩], []⟩

/-- Hands the viewer a message. -/
def hand (t : Traffic ω) (message : Message) : Traffic ω :=
  { t with viewer := (t.viewer.update message).1 }.take (t.viewer.update message).2

/-- What happens, one thing after the other. The program file and the dice may be different ones at
every start. -/
inductive Step (settings : Settings) : Traffic ω → Action ω → Traffic ω → Prop where
  | key (t : Traffic ω) (name : String) : Step settings t (.key name) (t.hand (.key name))
  | resize (t : Traffic ω) (width height : Int) :
      Step settings t (.resize width height) (t.hand (.resized width height))
  | scroll (t : Traffic ω) (window : ω) :
      Step settings t (.scroll window) { t with viewer := { t.viewer with window } }
  | launch {t : Traffic ω} {before after : List Call} {file : ProgramFile} {fresh : Generator}
      {m : Machine} (hcalls : t.calls = before ++ ⟨.start, none⟩ :: after)
      (hm : settings.machine fresh file = .ok m) :
      Step settings t .launch { t with
        calls := before ++ ⟨.start, some (.started t.runs.length true)⟩ :: after
        runs := t.runs ++ [.ofMachine m] }
  | refuse {t : Traffic ω} {before after : List Call} {file : ProgramFile} {fresh : Generator}
      {e : ProgramError} (hcalls : t.calls = before ++ ⟨.start, none⟩ :: after)
      (he : settings.machine fresh file = .error e) :
      Step settings t .launch { t with
        calls := before ++ ⟨.start, some (.event (.ended (some e.message)))⟩ :: after }
  | report {t : Traffic ω} {run : Nat} {R : LiveRun} {e : Event} (hrun : t.runs[run]? = some R)
      (hroom : R.channel.length < LiveRun.capacity)
      (h : R.machine.Reports R.asked (R.sent ++ [e])) :
      Step settings t (.report run e) { t with runs := t.runs.set run (R.report e h) }
  | receive {t : Traffic ω} {before after : List Call} {run : Nat} {R : LiveRun} {e : Event}
      {more : List Event} (hcalls : t.calls = before ++ ⟨.await run, none⟩ :: after)
      (hrun : t.runs[run]? = some R) (h : R.channel = e :: more) :
      Step settings t (.wait run) { t with
        calls := before ++ ⟨.await run, some (.event e)⟩ :: after
        runs := t.runs.set run (R.receive e more h) }
  | giveUp {t : Traffic ω} {before after : List Call} {run : Nat}
      (hcalls : t.calls = before ++ ⟨.await run, none⟩ :: after) :
      Step settings t (.wait run) { t with
        calls := before ++ ⟨.await run, some .idle⟩ :: after }
  | closed {t : Traffic ω} {before after : List Call} {run : Nat} {R : LiveRun}
      {error : Option String} (hcalls : t.calls = before ++ ⟨.await run, none⟩ :: after)
      (hrun : t.runs[run]? = some R) (hchannel : R.channel = [])
      (hended : .ended error ∈ R.received) :
      Step settings t (.wait run) { t with calls := before ++ after }
  | deliver {t : Traffic ω} {before after : List Call} {c : Call} {message : Message}
      (hcalls : t.calls = before ++ c :: after) (hanswer : c.answer = some message) :
      Step settings t (.deliver c)
        (hand ⟨t.viewer, before ++ after, c.settle t.runs⟩ message)

/-- What has happened since the viewer began, with the traffic before each action, and the traffic
that there is now. -/
inductive Course (settings : Settings) : List (Traffic ω × Action ω) → Traffic ω → Prop where
  | start : Course settings [] (start settings)
  | step {history : List (Traffic ω × Action ω)} {t t' : Traffic ω} {a : Action ω}
      (h : Course settings history t) (hstep : Step settings t a t') :
      Course settings (history ++ [(t, a)]) t'

end Traffic

/-! ## What viewers do -/

namespace Viewer

variable {ω : Type}

/-- Nothing runs. -/
structure Resting (v : Viewer ω) : Prop where
  running : v.running = false
  run : v.run = none
  reporter : v.reporter = none

/-- The run is known to go on, and its reports are waited for. -/
structure Following (number : Nat) (v : Viewer ω) : Prop where
  running : v.running = true
  run : v.run = some number
  reporter : v.reporter = some number

variable {v : Viewer ω} {number : Nat}

theorem Following.awaiting (h : v.Following number) : v.awaiting = some (.await number) := by
  rw [Viewer.awaiting, h.reporter, Option.map_some]

variable [Window ω]

variable (ω) in
/-- The line that tells of an error. -/
def errorLine (message : String) : Output :=
  ⟨Window.styled ω message, true⟩

@[simp] theorem stream_append (v : Viewer ω) (o : Output) :
    (v.append o).stream = v.stream ++ [o] := by
  rw [append]

theorem Following.append (h : v.Following number) (o : Output) :
    (v.append o).Following number := by
  rw [Viewer.append]
  exact ⟨h.running, h.run, h.reporter⟩

theorem Resting.append (h : v.Resting) (o : Output) : (v.append o).Resting := by
  rw [Viewer.append]
  exact ⟨h.running, h.run, h.reporter⟩

/-- Where nothing runs, a key starts the program anew, leaves, or moves the window. -/
theorem Resting.press (h : v.Resting) (key : String) :
    (v.press key).1.Resting ∧
      (key = "r" ∧ (v.press key).1.stream = [] ∧ (v.press key).2 = some .start ∨
        key ≠ "r" ∧ (v.press key).1.stream = v.stream ∧
          ((v.press key).2 = none ∨ (v.press key).2 = some .quit)) := by
  unfold Viewer.press
  split
  · simp [h.running, h]
  · simp [h.running, h]
  · simp only [h.running, Bool.false_eq_true, if_false]
    exact ⟨⟨rfl, h.run, h.reporter⟩, .inl ⟨trivial, trivial, trivial⟩⟩
  all_goals exact ⟨⟨h.running, h.run, h.reporter⟩, .inr ⟨by simp_all, rfl, .inl rfl⟩⟩

/-- While a run is followed, a key asks it to stop or moves the window. -/
theorem Following.press (h : v.Following number) (key : String) :
    (v.press key).1.Following number ∧ (v.press key).1.stream = v.stream ∧
      ((v.press key).2 = none ∨ (v.press key).2 = some (.interrupt number)) := by
  unfold Viewer.press
  split
  · simp only [h.running, h.run]
    exact ⟨⟨rfl, rfl, h.reporter⟩, trivial, .inr trivial⟩
  · simp only [h.running, h.run]
    exact ⟨⟨rfl, rfl, h.reporter⟩, trivial, .inr trivial⟩
  · simp only [h.running, if_true]
    exact ⟨h, trivial, .inl trivial⟩
  all_goals exact ⟨⟨h.running, h.run, h.reporter⟩, rfl, .inl rfl⟩

end Viewer

/-! ## Phases -/

namespace Traffic

variable {ω : Type}

/-- No run goes on. -/
def AllOver (runs : List LiveRun) : Prop :=
  ∀ R ∈ runs, R.stage = .over

/-- The reports that a message brings. -/
def reportsOf : Option Message → List Event
  | some (.event e) => [e]
  | _ => []

/-- The answers to a start that does not come to a run: none yet, or the error of the program. -/
def Fruitless (settings : Settings) (answer : Option Message) : Prop :=
  answer = none ∨ ∃ file fresh e, settings.machine fresh file = .error e ∧
    answer = some (.event (.ended (some e.message)))

/-- The answers to a wait: none yet, a report, or that there was none for a while. -/
def AnswersWait (answer : Option Message) : Prop :=
  answer = none ∨ answer = some .idle ∨ ∃ e, answer = some (.event e)

/-- How things stand if the user was patient: nothing is under way; the program is being started;
its run has begun and the viewer does not know yet; or the viewer waits for the reports of the run.
What was received of these is in the stream, except what is still under way. -/
inductive Phase (settings : Settings) : Traffic ω → Prop where
  | resting {v : Viewer ω} {runs : List LiveRun} (hv : v.Resting) (hruns : AllOver runs) :
      Phase settings ⟨v, [], runs⟩
  | starting {v : Viewer ω} {runs : List LiveRun} {answer : Option Message} (hv : v.Resting)
      (hstream : v.stream = []) (hruns : AllOver runs) (hanswer : Fruitless settings answer) :
      Phase settings ⟨v, [⟨.start, answer⟩], runs⟩
  | launched {v : Viewer ω} {old : List LiveRun} {R : LiveRun} (hv : v.Resting)
      (hstream : v.stream = []) (hold : AllOver old) (hstage : R.stage = .launched)
      (hreceived : R.received = []) :
      Phase settings ⟨v, [⟨.start, some (.started old.length true)⟩], old ++ [R]⟩
  | following {v : Viewer ω} {old : List LiveRun} {R : LiveRun} {answer : Option Message}
      (hv : v.Following old.length) (hold : AllOver old) (hstage : R.stage = .live)
      (hanswer : AnswersWait answer)
      (hreceived : R.received = v.stream.map .output ++ reportsOf answer) :
      Phase settings ⟨v, [⟨.await old.length, answer⟩], old ++ [R]⟩

variable {settings : Settings} {t t' : Traffic ω} {a : Action ω}

theorem AllOver.set {runs : List LiveRun} (h : AllOver runs) {run : Nat} {R R' : LiveRun}
    (hrun : runs[run]? = some R) (hstage : R'.stage = R.stage) : AllOver (runs.set run R') := by
  intro S hS
  rcases List.mem_or_eq_of_mem_set hS with hS | rfl
  · exact h S hS
  · rw [hstage]
    exact h R (List.mem_of_getElem? hrun)

theorem AllOver.concat {old : List LiveRun} (h : AllOver old) {R : LiveRun}
    (hR : R.stage = .over) : AllOver (old ++ [R]) := by
  intro S hS
  rcases List.mem_append.mp hS with hS | hS
  · exact h S hS
  · rwa [List.mem_singleton.mp hS]

theorem modify_last (old : List LiveRun) (R : LiveRun) (f : LiveRun → LiveRun) :
    (old ++ [R]).modify old.length f = old ++ [f R] := by
  simp [List.modify_eq_take_cons_drop]

/-- A run that is not the last one, or the last one, is replaced. -/
theorem set_cases {old : List LiveRun} {R S : LiveRun} {run : Nat} (S' : LiveRun)
    (hrun : (old ++ [R])[run]? = some S) :
    old[run]? = some S ∧ (old ++ [R]).set run S' = old.set run S' ++ [R] ∨
      S = R ∧ run = old.length ∧ (old ++ [R]).set run S' = old ++ [S'] := by
  have hbound : run < old.length + 1 := by
    simpa using (List.getElem?_eq_some_iff.mp hrun).1
  rcases Nat.lt_succ_iff_lt_or_eq.mp hbound with hlt | rfl
  · exact .inl ⟨by rwa [List.getElem?_append_left hlt] at hrun, List.set_append_left _ _ hlt⟩
  · refine .inr ⟨?_, rfl, by simp⟩
    simpa using hrun.symm

/-- The one call that there is. -/
theorem eq_of_singleton {c c' : Call} {before after : List Call}
    (h : [c] = before ++ c' :: after) : before = [] ∧ c' = c ∧ after = [] := by
  rcases List.singleton_eq_append_iff.mp h with ⟨rfl, h⟩ | ⟨-, h⟩
  · obtain ⟨rfl, rfl⟩ := List.cons.inj h
    exact ⟨rfl, rfl, rfl⟩
  · cases h

/-- What the viewer looks like does not matter. -/
theorem Phase.relook {v v' : Viewer ω} {calls : List Call} {runs : List LiveRun}
    (h : Phase settings ⟨v, calls, runs⟩) (hrunning : v'.running = v.running)
    (hrun : v'.run = v.run) (hreporter : v'.reporter = v.reporter)
    (hstream : v'.stream = v.stream) : Phase settings ⟨v', calls, runs⟩ := by
  have hresting : v.Resting → v'.Resting := fun hv =>
    ⟨hrunning.trans hv.running, hrun.trans hv.run, hreporter.trans hv.reporter⟩
  have hfollowing : ∀ number, v.Following number → v'.Following number := fun _ hv =>
    ⟨hrunning.trans hv.running, hrun.trans hv.run, hreporter.trans hv.reporter⟩
  cases h with
  | resting hv hruns => exact .resting (hresting hv) hruns
  | starting hv hempty hruns hanswer =>
    exact .starting (hresting hv) (hstream.trans hempty) hruns hanswer
  | launched hv hempty hold hstage hreceived =>
    exact .launched (hresting hv) (hstream.trans hempty) hold hstage hreceived
  | following hv hold hstage hanswer hreceived =>
    exact .following (hfollowing _ hv) hold hstage hanswer (hstream ▸ hreceived)

/-- What a run has reported and nobody has received does not matter either. -/
theorem Phase.replace (h : Phase settings t) {run : Nat} {R R' : LiveRun}
    (hrun : t.runs[run]? = some R) (hsame : R'.stage = R.stage) (hkept : R'.received = R.received) :
    Phase settings { t with runs := t.runs.set run R' } := by
  cases h with
  | resting hv hruns => exact .resting hv (hruns.set hrun hsame)
  | starting hv hempty hruns hanswer =>
    exact .starting hv hempty (hruns.set hrun hsame) hanswer
  | @launched v old S hv hempty hold hstage hreceived =>
    rcases set_cases R' hrun with ⟨hrun, hset⟩ | ⟨rfl, -, hset⟩
    · simp only [hset]
      rw [← List.length_set (i := run) (a := R')]
      exact .launched hv hempty (hold.set hrun hsame) hstage hreceived
    · simp only [hset]
      exact .launched hv hempty hold (hsame.trans hstage) (hkept.trans hreceived)
  | @following v old S answer hv hold hstage hanswer hreceived =>
    rcases set_cases R' hrun with ⟨hrun, hset⟩ | ⟨rfl, -, hset⟩
    · simp only [hset]
      rw [← List.length_set (i := run) (a := R')] at hv ⊢
      exact .following hv (hold.set hrun hsame) hstage hanswer hreceived
    · simp only [hset]
      exact .following hv hold (hsame.trans hstage) hanswer (hkept.trans hreceived)

/-- A start is carried out only while the program is being started. -/
theorem Phase.of_start (h : Phase settings t) {before after : List Call}
    (hcalls : t.calls = before ++ ⟨.start, none⟩ :: after) :
    before = [] ∧ after = [] ∧ t.viewer.Resting ∧ t.viewer.stream = [] ∧ AllOver t.runs := by
  cases h with
  | resting => simp at hcalls
  | starting hv hempty hruns =>
    obtain ⟨rfl, -, rfl⟩ := eq_of_singleton hcalls
    exact ⟨rfl, rfl, hv, hempty, hruns⟩
  | launched | following =>
    obtain ⟨-, hcall, -⟩ := eq_of_singleton hcalls
    cases hcall

/-- A wait is carried out only while the viewer follows that run, and then everything that was
received is in the stream. -/
theorem Phase.of_await (h : Phase settings t) {before after : List Call} {run : Nat}
    (hcalls : t.calls = before ++ ⟨.await run, none⟩ :: after) :
    before = [] ∧ after = [] ∧ t.viewer.Following run ∧
      ∃ old R, run = old.length ∧ t.runs = old ++ [R] ∧ AllOver old ∧ R.stage = .live ∧
        R.received = t.viewer.stream.map .output := by
  cases h with
  | resting => simp at hcalls
  | starting | launched =>
    obtain ⟨-, hcall, -⟩ := eq_of_singleton hcalls
    cases hcall
  | @following v old R answer hv hold hstage hanswer hreceived =>
    obtain ⟨rfl, hcall, rfl⟩ := eq_of_singleton hcalls
    cases hcall
    exact ⟨rfl, rfl, hv, old, R, rfl, rfl, hold, hstage, by simpa [reportsOf] using hreceived⟩

theorem countP_live_of_allOver {runs : List LiveRun} (h : AllOver runs) :
    runs.countP (·.stage = .live) = 0 := by
  rw [List.countP_eq_zero]
  intro R hR
  simp [h R hR]

/-- In each phase at most one program is under way. -/
theorem Phase.programs_le (h : Phase settings t) : t.programs ≤ 1 := by
  cases h with
  | resting hv hruns => simp [programs, starts, countP_live_of_allOver hruns]
  | starting hv hempty hruns => simp [programs, starts, countP_live_of_allOver hruns]
  | launched hv hempty hold hstage =>
    simp [programs, starts, countP_live_of_allOver hold, hstage]
  | following hv hold hstage => simp [programs, starts, countP_live_of_allOver hold, hstage]

/-- While a start is under way, the viewer does not know of anything that runs. -/
theorem Phase.resting_of_starts (h : Phase settings t) (hstarts : t.starts ≠ 0) :
    t.viewer.Resting := by
  cases h with
  | resting hv | starting hv | launched hv => exact hv
  | following => exact absurd rfl hstarts

variable [Window ω]

/-- A key keeps the phase, or begins another start where nothing is under way. -/
theorem Phase.key (h : Phase settings t) (name : String)
    (hpatient : ¬Impatient t (.key name)) : Phase settings (t.hand (.key name)) := by
  cases h with
  | @resting v runs hv hruns =>
    -- whoever presses a key while nothing runs may start the program again
    obtain ⟨hkeep, ⟨-, hstream, hrequest⟩ | ⟨-, -, hrequest | hrequest⟩⟩ := hv.press name
    all_goals simp only [hand, Viewer.update, hrequest, take]
    · exact .starting hkeep hstream hruns (.inl rfl)
    · exact .resting hkeep hruns
    · exact .resting hkeep hruns
  | @starting v runs answer hv hstream hruns hanswer =>
    obtain ⟨hkeep, ⟨hname, -⟩ | ⟨-, hsame, hrequest | hrequest⟩⟩ := hv.press name
    -- starting again while a start is under way is what impatient means
    · exact absurd ⟨congrArg Action.key hname, Nat.one_ne_zero⟩ hpatient
    all_goals
      simp only [hand, Viewer.update, hrequest, take]
      exact .starting hkeep (hsame.trans hstream) hruns hanswer
  | @launched v old R hv hstream hold hstage hreceived =>
    obtain ⟨hkeep, ⟨hname, -⟩ | ⟨-, hsame, hrequest | hrequest⟩⟩ := hv.press name
    · exact absurd ⟨congrArg Action.key hname, Nat.one_ne_zero⟩ hpatient
    all_goals
      simp only [hand, Viewer.update, hrequest, take]
      exact .launched hkeep (hsame.trans hstream) hold hstage hreceived
  | @following v old R answer hv hold hstage hanswer hreceived =>
    obtain ⟨hkeep, hsame, hrequest | hrequest⟩ := hv.press name
    all_goals simp only [hand, Viewer.update, hrequest, take]
    · exact .following hkeep hold hstage hanswer (hsame ▸ hreceived)
    · rw [modify_last]
      exact .following hkeep hold hstage hanswer (hsame ▸ hreceived)

/-- A call that comes back ends its phase and begins another one. -/
theorem Phase.deliver (h : Phase settings t) {before after : List Call} {c : Call}
    {message : Message} (hcalls : t.calls = before ++ c :: after)
    (hanswer : c.answer = some message) :
    Phase settings (hand ⟨t.viewer, before ++ after, c.settle t.runs⟩ message) := by
  cases h with
  | resting => simp at hcalls
  | starting hv hempty hruns hfruitless =>
    obtain ⟨rfl, rfl, rfl⟩ := eq_of_singleton hcalls
    rcases hfruitless with rfl | ⟨file, fresh, e, -, rfl⟩ <;> cases hanswer
    exact .resting (.append ⟨rfl, rfl, rfl⟩ _) hruns
  | @launched v old R hv hempty hold hstage hreceived =>
    -- the answer to the start arrives, and the first outputs are awaited
    obtain ⟨rfl, rfl, rfl⟩ := eq_of_singleton hcalls
    cases hanswer
    simp only [Call.settle, modify_last]
    have hnothing : (R.advance .live).received = v.stream.map .output ++ reportsOf none := by
      rw [hempty]
      exact hreceived
    exact .following ⟨rfl, rfl, rfl⟩ hold rfl (.inl rfl) hnothing
  | @following v old R answer hv hold hstage hwait hreceived =>
    obtain ⟨rfl, rfl, rfl⟩ := eq_of_singleton hcalls
    rcases hwait with rfl | rfl | ⟨e, rfl⟩ <;> cases hanswer
    · simp only [hand, Viewer.update, hv.running, if_true, hv.awaiting]
      exact .following hv hold hstage (.inl rfl) (by simpa [reportsOf] using hreceived)
    · cases e with
      | output o =>
        simp only [hand, Viewer.update, (hv.append o).awaiting]
        exact .following (hv.append o) hold hstage (.inl rfl)
          (by simpa [reportsOf] using hreceived)
      | ended error =>
        simp only [Call.settle, modify_last]
        -- the program has ended, so all are over, and the desk is at rest
        have hover : AllOver (old ++ [R.advance .over]) := hold.concat rfl
        cases error with
        | none => exact .resting ⟨rfl, rfl, rfl⟩ hover
        | some message => exact .resting (.append ⟨rfl, rfl, rfl⟩ _) hover

/-- **Every step of a patient user keeps to the phases.** -/
theorem Step.phase (hstep : Step settings t a t') (h : Phase settings t)
    (hpatient : ¬Impatient t a) : Phase settings t' := by
  cases hstep with
  | key name => exact h.key name hpatient
  | resize width height => exact h.relook rfl rfl rfl rfl
  | scroll viewport => exact h.relook rfl rfl rfl rfl
  | launch hcalls hm =>
    obtain ⟨rfl, rfl, hv, hempty, hruns⟩ := h.of_start hcalls
    exact .launched hv hempty hruns rfl rfl
  | refuse hcalls he =>
    obtain ⟨rfl, rfl, hv, hempty, hruns⟩ := h.of_start hcalls
    exact .starting hv hempty hruns (.inr ⟨_, _, _, he, rfl⟩)
  | report hrun hroom hreports => exact h.replace hrun rfl rfl
  | @receive _ _ run R e more hcalls hrun hchannel =>
    obtain ⟨rfl, rfl, hv, old, S, rfl, hruns, hold, hstage, hreceived⟩ := h.of_await hcalls
    obtain rfl : S = R := by simpa [hruns] using hrun
    have hset : t.runs.set old.length (S.receive e more hchannel) =
        old ++ [S.receive e more hchannel] := by simp [hruns]
    rw [hset]
    refine .following hv hold hstage (.inr (.inr ⟨e, rfl⟩)) ?_
    exact congrArg (· ++ [e]) hreceived
  | giveUp hcalls =>
    obtain ⟨rfl, rfl, hv, old, S, rfl, hruns, hold, hstage, hreceived⟩ := h.of_await hcalls
    rw [hruns]
    exact .following hv hold hstage (.inr (.inl rfl)) (by simpa [reportsOf] using hreceived)
  | @closed _ _ run R error hcalls hrun hchannel hended =>
    -- the end of the run was not received before, as it would be under way or known
    obtain ⟨rfl, rfl, hv, old, S, rfl, hruns, hold, hstage, hreceived⟩ := h.of_await hcalls
    obtain rfl : S = R := by simpa [hruns] using hrun
    simp [hreceived] at hended
  | deliver hcalls hanswer => exact h.deliver hcalls hanswer

/-- **A patient user sees nothing but the phases.** -/
theorem Course.phase {history : List (Traffic ω × Action ω)} (h : Course settings history t)
    (hpatient : Patient history) : Phase settings t := by
  induction h with
  | start => exact .starting ⟨rfl, rfl, rfl⟩ rfl (by simp [AllOver]) (.inl rfl)
  | step _ hstep ih =>
    have hbefore := List.forall_mem_append.mp hpatient
    exact hstep.phase (ih hbefore.1) (hbefore.2 _ (List.mem_singleton_self _))

/-! ## Programs under way -/

/-- A viewer that does not know of anything that runs can be made to ask for another start. -/
theorem starts_of_restart (hv : t.viewer.Resting) :
    (t.hand (.key "r")).starts = t.starts + 1 := by
  obtain ⟨-, ⟨-, -, hrequest⟩ | ⟨hne, -⟩⟩ := hv.press "r"
  · simp [hand, Viewer.update, hrequest, take, starts, List.countP_append]
  · exact absurd rfl hne

/-- An impatient user gets two programs under way. -/
theorem Phase.programs_of_impatient (h : Phase settings t) (hstep : Step settings t a t')
    (himpatient : Impatient t a) : 1 < t'.programs := by
  obtain ⟨rfl, hstarts⟩ := himpatient
  cases hstep
  have hanother := starts_of_restart (h.resting_of_starts hstarts)
  simp only [programs, hanother]
  omega

/-- **At most one program is under way, exactly as long as the user is patient.** Two are under way
as soon as the program is to be started again while a start is under way, and never otherwise,
whatever else happens and in whichever order: the viewer refuses to start the program again once it
knows that it runs, but that it was asked to start it is nothing that it keeps in mind. -/
theorem one_program_iff_patient {history : List (Traffic ω × Action ω)}
    (h : Course settings history t) :
    (t.programs ≤ 1 ∧ ∀ x ∈ history, x.1.programs ≤ 1) ↔ Patient history := by
  constructor
  · rintro ⟨hnow, hbefore⟩
    induction h with
    | start => simp [Patient]
    | @step history t t' a hcourse hstep ih =>
      obtain ⟨hearlier, hlast⟩ := List.forall_mem_append.mp hbefore
      have hpatient : Patient history := ih (hlast _ (List.mem_singleton_self _)) hearlier
      refine List.forall_mem_append.mpr ⟨hpatient, fun x hx himpatient => ?_⟩
      obtain rfl := List.mem_singleton.mp hx
      have htwo := (hcourse.phase hpatient).programs_of_impatient hstep himpatient
      omega
  · intro hpatient
    refine ⟨(h.phase hpatient).programs_le, ?_⟩
    induction h with
    | start => simp
    | step hcourse hstep ih =>
      obtain ⟨hearlier, -⟩ := List.forall_mem_append.mp hpatient
      refine List.forall_mem_append.mpr ⟨ih hearlier, fun x hx => ?_⟩
      obtain rfl := List.mem_singleton.mp hx
      exact (hcourse.phase hearlier).programs_le

/-- Settings for a program file that is seen in a viewer. -/
def onScreen : Settings :=
  ⟨.viewer, 0, 0, false, false, false, "program.adv"⟩

/-- The start of a program file that does not exist comes back. -/
def notFound : Call :=
  ⟨.start, some (.event (.ended (some (OpenError.missing "program.adv").message)))⟩

/-- There is no program file. When this is known, the program is to be started again, and as nothing
is under way by then, this is the only start. -/
theorem restart_after_refusal_is_patient :
    ∃ (history : List (Traffic Viewport × Action Viewport)) (t : Traffic Viewport),
      Course onScreen history t ∧
      history.map Prod.snd = [.launch, .deliver notFound, .key "r"] ∧
      Patient history ∧ t.starts = 1 ∧ t.programs ≤ 1 ∧ ∀ x ∈ history, x.1.programs ≤ 1 := by
  have hcompile : onScreen.machine ⟨#[], 0, 0⟩ (.error (.missing "program.adv")) =
      .error (.unopened (.missing "program.adv")) := rfl
  let refused : Traffic Viewport := ⟨.start "program.adv", [notFound], []⟩
  let failed : Traffic Viewport := hand ⟨.start "program.adv", [], []⟩
    (.event (.ended (some (OpenError.missing "program.adv").message)))
  have hlaunch : Step onScreen (start onScreen) .launch refused :=
    @Step.refuse Viewport _ onScreen (start onScreen) [] [] _ _ _ rfl hcompile
  have hdeliver : Step onScreen refused (.deliver notFound) failed :=
    @Step.deliver Viewport _ onScreen refused [] [] notFound _ rfl rfl
  have hcourse : Course onScreen [(start onScreen, .launch), (refused, .deliver notFound),
      (failed, .key "r")] (failed.hand (.key "r")) :=
    .step (.step (.step .start hlaunch) hdeliver) (.key failed "r")
  have hpatient : Patient [(start onScreen, .launch), (refused, .deliver notFound),
      (failed, .key "r")] := by
    intro x hx
    simp only [List.mem_cons, List.not_mem_nil, or_false] at hx
    rcases hx with rfl | rfl | rfl
    · exact fun h => by cases h.1
    · exact fun h => by cases h.1
    · exact fun h => h.2 rfl
  obtain ⟨hnow, hbefore⟩ := (one_program_iff_patient hcourse).mpr hpatient
  exact ⟨_, _, hcourse, rfl, hpatient, rfl, hnow, hbefore⟩

/-- The start of a run comes back. -/
def begun (run : Nat) : Call :=
  ⟨.start, some (.started run true)⟩

/-- The program is to be started again before its first start has come back. Then it is started
twice, and the two run at the same time. -/
theorem restart_at_once_runs_two_programs :
    ∃ (history : List (Traffic Viewport × Action Viewport)) (t : Traffic Viewport),
      Course onScreen history t ∧
      history.map Prod.snd =
        [.key "r", .launch, .launch, .deliver (begun 0), .deliver (begun 1)] ∧
      t.starts = 0 ∧ t.programs = 2 := by
  obtain ⟨m, hm⟩ : ∃ m, onScreen.machine ⟨#[], 0, 0⟩ (.ok (.ofString "")) = .ok m := by
    simp only [Settings.machine, Machine.ofFile, Machine.ofSource, Machine.parse_nothing]
    exact ⟨_, rfl⟩
  let again : Viewer Viewport := ((Viewer.start "program.adv").press "r").1
  let R := LiveRun.ofMachine m
  let asked : Traffic Viewport := ⟨again, [⟨.start, none⟩, ⟨.start, none⟩], []⟩
  let one : Traffic Viewport := ⟨again, [begun 0, ⟨.start, none⟩], [R]⟩
  let both : Traffic Viewport := ⟨again, [begun 0, begun 1], [R, R]⟩
  let first : Traffic Viewport := hand ⟨again, [begun 1], [R.advance .live, R]⟩ (.started 0 true)
  let second : Traffic Viewport :=
    hand ⟨first.viewer, [⟨.await 0, none⟩], [R.advance .live, R.advance .live]⟩ (.started 1 true)
  have hasked : Step onScreen (start onScreen) (.key "r") asked := .key _ "r"
  have hone : Step onScreen asked .launch one :=
    @Step.launch Viewport _ onScreen asked [] [⟨.start, none⟩] _ _ m rfl hm
  have hboth : Step onScreen one .launch both :=
    @Step.launch Viewport _ onScreen one [begun 0] [] _ _ m rfl hm
  have hfirst : Step onScreen both (.deliver (begun 0)) first :=
    @Step.deliver Viewport _ onScreen both [] [begun 1] (begun 0) _ rfl rfl
  have hsecond : Step onScreen first (.deliver (begun 1)) second :=
    @Step.deliver Viewport _ onScreen first [] [⟨.await 0, none⟩] (begun 1) _ rfl rfl
  exact ⟨_, second, .step (.step (.step (.step (.step .start hasked) hone) hboth) hfirst) hsecond,
    rfl, rfl, rfl⟩

end Traffic

end Adventure
