import Mathlib.Logic.Relation
import Adventure.Proofs.Traffic

/-!
# What a viewer shows of a run

The reports of a run go through a channel, and the viewer takes them out one by one: it waits for
the next one as soon as it has been handed the last one. While the user is patient this loses,
repeats and swaps nothing, whatever is pressed and whichever way things come
(`Traffic.stream_follows_run`).

The desk carries out in one go what takes several actions here. What becomes of its viewer is what
becomes of the viewer if these actions follow each other closely (`Traffic.launch_comes_back`).
-/

namespace Adventure

open Viewer (Event Message Request errorLine)

/-- What is shown by a report. -/
def Viewer.Event.output? : Event → Option Output
  | .output o => some o
  | .ended _ => none

/-- What the run has shown. -/
def LiveRun.shown (R : LiveRun) : List Output :=
  R.sent.filterMap Event.output?

theorem filterMap_output?_map (outputs : List Output) :
    (outputs.map Event.output).filterMap Event.output? = outputs := by
  rw [List.filterMap_map]
  exact List.filterMap_some

namespace Machine

variable {m : Machine} {asked : Bool}

theorem map_output_append_ne {outputs outputs' : List Output} {error : Option String}
    {more : List Event} :
    outputs.map Event.output ++ .ended error :: more ≠ outputs'.map Event.output := by
  intro h
  have hmem : Event.ended error ∈ outputs'.map Event.output := by simp [← h]
  simp at hmem

theorem map_output_append_inj {outputs outputs' : List Output} {error error' : Option String}
    {more : List Event}
    (h : outputs.map Event.output ++ .ended error :: more =
      outputs'.map Event.output ++ [.ended error']) :
    outputs = outputs' ∧ error = error' ∧ more = [] := by
  induction outputs generalizing outputs' with
  | nil =>
    cases outputs' with
    | nil =>
      obtain ⟨hended, hmore⟩ := List.cons.inj h
      exact ⟨rfl, Event.ended.inj hended, hmore⟩
    | cons o' outputs' => cases (List.cons.inj h).1
  | cons o outputs ih =>
    cases outputs' with
    | nil => cases (List.cons.inj h).1
    | cons o' outputs' =>
      obtain ⟨ho, hrest⟩ := List.cons.inj h
      obtain ⟨rfl, rfl, rfl⟩ := ih hrest
      exact ⟨by rw [Event.output.inj ho], rfl, rfl⟩

/-- **The end is the last report**, and before it everything was reported. -/
theorem Reports.of_ended {outputs : List Output} {message : Option String} {more : List Event}
    (h : m.Reports asked (outputs.map .output ++ .ended message :: more)) :
    more = [] ∧ ∃ error, m.Ends asked outputs error ∧ message = error.map (·.message) := by
  generalize hevents : outputs.map Event.output ++ .ended message :: more = events at h
  cases h with
  | going => exact absurd hevents map_output_append_ne
  | @ended outputs' error hends =>
    obtain ⟨rfl, rfl, rfl⟩ := map_output_append_inj hevents
    exact ⟨rfl, error, hends, rfl⟩

/-- What a run has shown at its end is what its record shows. -/
theorem outputs_eq_of_run {steps : Nat} {m' : Machine} (h : (m.run steps).state? = some m') :
    m'.outputs = (m.recordRun steps).moments.filterMap Moment.shown? := by
  have htells : (m.quiet.recordPerform steps m.instructions).Tells m.quiet.rules (fun _ => True)
      world m.quiet.world (m.quiet.perform steps m.instructions) :=
    tells_perform (fun _ _ _ _ => trivial) steps fun _ _ => trivial
  exact htells.course.outputs_eq h

/-- A run that ends has reported every part of its reports on the way. -/
theorem Reports.of_prefix {steps : Nat} {m' : Machine} {error : Option RuntimeError}
    {front : List Event} (h : (m.run steps).state? = some m')
    (hends : m.Ends asked m'.outputs error)
    (hfront : front <+: m'.outputs.map .output ++ [.ended (error.map (·.message))]) :
    m.Reports asked front := by
  rcases List.prefix_concat_iff.mp hfront with rfl | hfront
  · exact .ended hends
  · obtain ⟨outputs, houtputs, rfl⟩ := List.prefix_map_iff.mp hfront
    rw [outputs_eq_of_run h] at houtputs
    obtain ⟨before, ⟨after, hmoments⟩, rfl⟩ := List.prefix_filterMap_iff.mp houtputs
    exact .going hmoments.symm

end Machine

namespace Traffic

variable {ω : Type} {settings : Settings} {t t' : Traffic ω}
  {history : List (Traffic ω × Action ω)}

/-! ## From the start to the end -/

theorem Phase.waits_eq (h : Phase settings t) :
    t.waits = if t.viewer.running then 1 else 0 := by
  cases h with
  | resting hv | starting hv | launched hv => rw [hv.running]; rfl
  | following hv => rw [hv.running]; rfl

theorem Phase.stream_of_starts (h : Phase settings t) (hstarts : t.starts ≠ 0) :
    t.viewer.stream = [] := by
  cases h with
  | resting | following => exact absurd rfl hstarts
  | starting hv hempty | launched hv hempty => exact hempty

/-- The run that is not over is the last one. -/
theorem eq_of_not_over {old : List LiveRun} {R S : LiveRun} (hold : AllOver old)
    (hS : S ∈ old ++ [R]) (hstage : S.stage ≠ .over) : S = R := by
  rcases List.mem_append.mp hS with hS | hS
  · exact absurd (hold S hS) hstage
  · exact List.mem_singleton.mp hS

theorem Phase.stream_prefix (h : Phase settings t) {R : LiveRun} (hR : R ∈ t.runs)
    (hstage : R.stage ≠ .over) : t.viewer.stream <+: R.shown := by
  cases h with
  | resting hv hruns | starting hv hempty hruns => exact absurd (hruns R hR) hstage
  | launched hv hempty =>
    rw [hempty]
    exact List.nil_prefix
  | following hv hold hlive hanswer hreceived =>
    obtain rfl := eq_of_not_over hold hR hstage
    rw [LiveRun.shown, LiveRun.sent, hreceived, List.filterMap_append, List.filterMap_append,
      filterMap_output?_map, List.append_assoc]
    exact List.prefix_append _ _

theorem Phase.running_iff (h : Phase settings t) :
    t.viewer.running = true ↔ ∃ R ∈ t.runs, R.stage = .live := by
  cases h with
  | resting hv hruns | starting hv hempty hruns =>
    rw [hv.running]
    refine ⟨nofun, ?_⟩
    rintro ⟨R, hR, hlive⟩
    cases hlive.symm.trans (hruns R hR)
  | launched hv hempty hold hlaunched =>
    rw [hv.running]
    refine ⟨nofun, ?_⟩
    rintro ⟨R, hR, hlive⟩
    obtain rfl := eq_of_not_over hold hR (by simp [hlive])
    cases hlive.symm.trans hlaunched
  | @following v old R answer hv hold hlive =>
    rw [hv.running]
    exact ⟨fun _ => ⟨R, by simp, hlive⟩, fun _ => rfl⟩

variable [Window ω]

/-- When the end of a run is handed to the viewer, it has shown everything that the run has. -/
theorem Phase.deliver_ended (h : Phase settings t) {c : Call} {message : Option String}
    (hstep : Step settings t (.deliver c) t')
    (hanswer : c.answer = some (.event (.ended message))) :
    (∃ run R error, c.request = .await run ∧ t.runs[run]? = some R ∧
      R.machine.Ends R.asked R.shown error ∧ message = error.map (·.message) ∧
      t'.viewer.stream = R.shown ++ (message.map (errorLine ω)).toList) ∨
    ∃ file fresh error, c.request = .start ∧
      settings.machine fresh file = .error error ∧ message = some error.message ∧
      t'.viewer.stream = [errorLine ω error.message] := by
  cases hstep with
  | deliver hcalls hmessage =>
    obtain rfl := Option.some.inj (hanswer.symm.trans hmessage)
    cases h with
    | resting => simp at hcalls
    | starting hv hempty hruns hfruitless =>
      obtain ⟨rfl, rfl, rfl⟩ := eq_of_singleton hcalls
      rcases hfruitless with rfl | ⟨file, fresh, e, he, rfl⟩ <;> cases hanswer
      refine .inr ⟨file, fresh, e, rfl, he, rfl, ?_⟩
      simp [hand, Viewer.update, take, hempty, errorLine]
    | launched =>
      obtain ⟨rfl, rfl, rfl⟩ := eq_of_singleton hcalls
      cases hanswer
    | @following v old R answer hv hold hlive hwait hreceived =>
      obtain ⟨rfl, rfl, rfl⟩ := eq_of_singleton hcalls
      cases hanswer
      -- what came through the channel ends here, so that all that was shown has arrived
      have hpossible := R.possible
      rw [hreceived, reportsOf, List.append_assoc, List.singleton_append] at hpossible
      obtain ⟨hchannel, error, hends, hmessage'⟩ := hpossible.of_ended
      have hshown : R.shown = v.stream := by
        rw [LiveRun.shown, LiveRun.sent, hreceived, hchannel, List.append_nil,
          List.filterMap_append, filterMap_output?_map]
        exact List.append_nil _
      refine .inl ⟨old.length, R, error, rfl, by simp, hshown ▸ hends, hmessage', ?_⟩
      cases message <;> simp [hand, Viewer.update, take, hshown, errorLine]

/-- **A viewer loses, repeats and swaps nothing.** If the user is patient, exactly one wait is under
way while a run is known to go on, and otherwise none. From the start of the program until the end
of its run is known, what the viewer shows is a beginning of what the run has shown. When the end
comes it is all of that, and then one line for the error if the run has failed; if the program could
not be run, it is that line alone. -/
theorem stream_follows_run (h : Course settings history t) (hpatient : Patient history) :
    t.waits = (if t.viewer.running then 1 else 0) ∧
    (t.viewer.running = true ↔ ∃ R ∈ t.runs, R.stage = .live) ∧
    (t.starts ≠ 0 → t.viewer.stream = []) ∧
    (∀ R ∈ t.runs, R.stage ≠ .over → t.viewer.stream <+: R.shown) ∧
    ∀ c message t', Step settings t (.deliver c) t' →
      c.answer = some (.event (.ended message)) →
      (∃ run R error, c.request = .await run ∧ t.runs[run]? = some R ∧
        R.machine.Ends R.asked R.shown error ∧ message = error.map (·.message) ∧
        t'.viewer.stream = R.shown ++ (message.map (errorLine ω)).toList) ∨
      ∃ file fresh error, c.request = .start ∧
        settings.machine fresh file = .error error ∧ message = some error.message ∧
        t'.viewer.stream = [errorLine ω error.message] := by
  have hphase := h.phase hpatient
  exact ⟨hphase.waits_eq, hphase.running_iff, hphase.stream_of_starts,
    fun R => hphase.stream_prefix, fun c message t' => hphase.deliver_ended⟩

/-! ## Closely following actions -/

/-- What happens while the user does nothing. -/
def Unattended (settings : Settings) : Traffic ω → Traffic ω → Prop :=
  Relation.ReflTransGen fun t t' => ∃ a, Step settings t a t' ∧ ∀ name, a ≠ .key name

theorem Unattended.course (h : Unattended settings t t') (hcourse : Course settings history t)
    (hpatient : Patient history) : ∃ history, Course settings history t' ∧ Patient history := by
  induction h with
  | refl => exact ⟨history, hcourse, hpatient⟩
  | tail _ hstep ih =>
    obtain ⟨a, hstep, hkey⟩ := hstep
    obtain ⟨history', hcourse', hpatient'⟩ := ih
    refine ⟨_, .step hcourse' hstep, List.forall_mem_append.mpr ⟨hpatient', fun x hx => ?_⟩⟩
    obtain rfl := List.mem_singleton.mp hx
    exact fun himpatient => hkey "r" himpatient.1

section Launch

variable (settings)

/-- A report is made and received. -/
theorem unattended_receive (v : Viewer ω) (old : List LiveRun) {R : LiveRun} {e : Event}
    (hchannel : R.channel = []) (h : R.machine.Reports R.asked (R.received ++ [e])) :
    ∃ R', R'.machine = R.machine ∧ R'.asked = R.asked ∧ R'.received = R.received ++ [e] ∧
      R'.channel = [] ∧
      Unattended settings ⟨v, [⟨.await old.length, none⟩], old ++ [R]⟩
        ⟨v, [⟨.await old.length, some (.event e)⟩], old ++ [R']⟩ := by
  have hreports : R.machine.Reports R.asked (R.sent ++ [e]) := by
    rwa [LiveRun.sent, hchannel, List.append_nil]
  let told := R.report e hreports
  have htold : told.channel = [e] := congrArg (· ++ [e]) hchannel
  have hreport : Step settings ⟨v, [⟨.await old.length, none⟩], old ++ [R]⟩
      (.report old.length e) ⟨v, [⟨.await old.length, none⟩], old ++ [told]⟩ := by
    have hroom : R.channel.length < LiveRun.capacity := by rw [hchannel]; decide
    have hstep := @Step.report ω _ settings ⟨v, [⟨.await old.length, none⟩], old ++ [R]⟩
      old.length R e (by simp) hroom hreports
    simpa using hstep
  let taken := told.receive e [] htold
  have hreceive : Step settings ⟨v, [⟨.await old.length, none⟩], old ++ [told]⟩
      (.wait old.length) ⟨v, [⟨.await old.length, some (.event e)⟩], old ++ [taken]⟩ := by
    have hstep := @Step.receive ω _ settings ⟨v, [⟨.await old.length, none⟩], old ++ [told]⟩ [] []
      old.length told e [] rfl (by simp) htold
    simpa using hstep
  exact ⟨taken, rfl, rfl, rfl, rfl, .tail (.single ⟨_, hreport, by simp⟩) ⟨_, hreceive, by simp⟩⟩

/-- The one call that there is comes back. -/
theorem step_deliver (v : Viewer ω) (runs : List LiveRun) (request : Request) (message : Message) :
    Step settings ⟨v, [⟨request, some message⟩], runs⟩ (.deliver ⟨request, some message⟩)
      (hand ⟨v, [], Call.settle ⟨request, some message⟩ runs⟩ message) :=
  @Step.deliver ω _ settings ⟨v, [⟨request, some message⟩], runs⟩ [] [] _ _ rfl rfl

/-- Everything that is left to report is received, and handed to the viewer up to the end. -/
theorem unattended_reports {old : List LiveRun} {message : Option String}
    {outputs : List Output} {v : Viewer ω} {R : LiveRun} (hv : v.Following old.length)
    (hchannel : R.channel = [])
    (hreports : ∀ front, front <+: outputs.map .output ++ [.ended message] →
      R.machine.Reports R.asked (R.received ++ front)) :
    ∃ v' R', Desk.report v (outputs.map .output ++ [.ended message]) =
        (v'.update (.event (.ended message))).1 ∧
      Unattended settings ⟨v, [⟨.await old.length, none⟩], old ++ [R]⟩
        ⟨v', [⟨.await old.length, some (.event (.ended message))⟩], old ++ [R']⟩ := by
  induction outputs generalizing v R with
  | nil =>
    obtain ⟨R', -, -, -, -, hreceive⟩ := unattended_receive settings v old hchannel
      (hreports _ (List.prefix_refl _))
    refine ⟨v, R', ?_, hreceive⟩
    cases message <;> rfl
  | cons o outputs ih =>
    obtain ⟨R', hmachine, hasked, hreceived, hchannel', hreceive⟩ :=
      unattended_receive settings v old hchannel (hreports [.output o] (by simp))
    -- what is left to be reported is a prefix of what was to be reported before
    have hmore : ∀ front, front <+: outputs.map .output ++ [.ended message] →
        R'.machine.Reports R'.asked (R'.received ++ front) := by
      intro front hfront
      rw [hmachine, hasked, hreceived, List.append_assoc]
      exact hreports _ (List.cons_prefix_cons.mpr ⟨rfl, hfront⟩)
    obtain ⟨v', R'', hsame, hrest⟩ := ih (hv.append o) hchannel' hmore
    have hdeliver := step_deliver settings v (old ++ [R']) (.await old.length) (.event (.output o))
    simp only [hand, Viewer.update, (hv.append o).awaiting, take, Call.settle] at hdeliver
    refine ⟨v', R'', ?_, (hreceive.tail ⟨_, hdeliver, by simp⟩).trans hrest⟩
    simpa only [Desk.report, Viewer.update, List.map_cons, List.cons_append,
      (hv.append o).awaiting] using hsame

end Launch

theorem ends_of_reports {steps : Nat} {m m' : Machine} {events : List Event}
    (h : Desk.reports steps m = some (events, m')) :
    (m.run steps).state? = some m' ∧ ∃ error, m.Ends false m'.outputs error ∧
      events = m'.outputs.map .output ++ [.ended (error.map (·.message))] := by
  unfold Desk.reports at h
  cases hrun : m.run steps with
  | done u m₁ =>
    rw [hrun] at h
    cases h
    exact ⟨rfl, none, .done hrun, rfl⟩
  | failed e m₁ =>
    rw [hrun] at h
    cases h
    exact ⟨rfl, some e, .failed hrun, rfl⟩
  | unfinished => simp [hrun] at h

/-- **A launch comes back.** What a desk does in one go, from the start of the program to the end of
its run, can happen beside a viewer as well. The last thing that happens is that the end is handed
to the viewer, and this leaves the same viewer. -/
theorem launch_comes_back {d d' : Desk ω} {steps : Nat} {runs : List LiveRun}
    (hlaunch : d.launch steps = some d') (hruns : runs.length = d.machines.length) :
    ∃ t c message t', Unattended d.settings ⟨d.viewer, [⟨.start, none⟩], runs⟩ t ∧
      c.answer = some (.event (.ended message)) ∧ Step d.settings t (.deliver c) t' ∧
      t'.viewer = d'.viewer := by
  have hcompile : d.settings.machine d.fresh d.file = d.compile := rfl
  unfold Desk.launch at hlaunch
  rcases hresult : d.compile with e | m
  -- the file is refused, and the answer to the start says so
  · rw [hresult] at hcompile hlaunch
    obtain rfl := Option.some.inj hlaunch
    have hrefuse := @Step.refuse ω _ d.settings ⟨d.viewer, [⟨.start, none⟩], runs⟩ [] [] _ _ e rfl
      hcompile
    exact ⟨_, _, _, _, .single ⟨_, hrefuse, by simp⟩, rfl, step_deliver d.settings _ runs _ _, rfl⟩
  · rw [hresult] at hcompile hlaunch
    rcases hreports : Desk.reports steps m with - | ⟨events, m'⟩
    · simp [hreports] at hlaunch
    · obtain ⟨hend, error, hends, rfl⟩ := ends_of_reports hreports
      simp only [hreports, ← hruns, Option.some.injEq] at hlaunch
      obtain rfl := hlaunch
      -- the program is started, its outputs arrive one after the other, and then its end
      have hlaunched := @Step.launch ω _ d.settings ⟨d.viewer, [⟨.start, none⟩], runs⟩ [] [] _ _ m
        rfl hcompile
      have hstarted := step_deliver d.settings d.viewer (runs ++ [.ofMachine m]) .start
        (.started runs.length true)
      simp only [Call.settle, modify_last] at hstarted
      have hv : (d.viewer.update (.started runs.length true)).1.Following runs.length :=
        ⟨rfl, rfl, rfl⟩
      obtain ⟨v', R', hsame, hrest⟩ := unattended_reports d.settings hv
        (R := (LiveRun.ofMachine m).advance .live) rfl
        fun front hfront => Machine.Reports.of_prefix hend hends hfront
      have hunattended := Relation.ReflTransGen.head ⟨_, hlaunched, by simp⟩
        (Relation.ReflTransGen.head ⟨_, hstarted, by simp⟩ hrest)
      refine ⟨_, _, _, _, hunattended, rfl, step_deliver d.settings v' _ _ _, ?_⟩
      rw [hsame]
      cases error.map (·.message) <;> rfl

/-- What the text `?"gold";?x;` is read as. -/
def goldThenFault : Program :=
  ⟨[], [], [.log 1 (.text "gold"), .log 1 (.var "x")]⟩

theorem parse_goldThenFault :
    (Source.ofString "?\"gold\";?x;").parse = .ok goldThenFault := by
  have htokens : (Source.ofString "?\"gold\";?x;").tokens =
      ⟨[⟨.questionMark, "", ⟨1, 1⟩⟩, ⟨.stringLiteral, "gold", ⟨1, 2⟩⟩, ⟨.semicolon, "", ⟨1, 8⟩⟩,
        ⟨.questionMark, "", ⟨1, 9⟩⟩, ⟨.identifier, "x", ⟨1, 10⟩⟩, ⟨.semicolon, "", ⟨1, 11⟩⟩],
        none, ⟨1, 11⟩⟩ := by decide +kernel
  have hleaf : ∀ kind : Kind, kind ∈ [kind] := fun _ => List.mem_singleton_self _
  refine (Source.parse_eq_ok_iff _ _).mpr
    ⟨congrArg Tokens.failure htokens, (Parsing.program_eq_ok_iff _ _).mpr ?_⟩
  rw [htokens]
  exact ⟨[.instruction (.log ⟨⟨.questionMark, "", ⟨1, 1⟩⟩, hleaf _⟩
      (.text ⟨⟨.stringLiteral, "gold", ⟨1, 2⟩⟩, hleaf _⟩) ⟨⟨.semicolon, "", ⟨1, 8⟩⟩, hleaf _⟩),
    .instruction (.log ⟨⟨.questionMark, "", ⟨1, 9⟩⟩, hleaf _⟩
      (.expression (.mk (.mk (.var ⟨⟨.identifier, "x", ⟨1, 10⟩⟩, hleaf _⟩) .nil) .nil))
      ⟨⟨.semicolon, "", ⟨1, 11⟩⟩, hleaf _⟩)], rfl, rfl⟩

/-- The fault of the program. -/
def noVariable : RuntimeError :=
  ⟨.undeclared "x", 1, []⟩

/-- The desk that the program is seen at. -/
def goldDesk : Desk Viewport :=
  .start ⟨#[], 0, 0⟩ onScreen (.ok (.ofString "?\"gold\";?x;"))

theorem compile_goldDesk : goldDesk.compile =
    .ok ((Machine.blank goldThenFault.instructions ⟨#[], 0, 0⟩).setUp onScreen.setup) := by
  simp only [goldDesk, Desk.compile, Desk.start, Settings.machine, Machine.ofFile,
    Machine.ofSource, parse_goldThenFault]
  rfl

theorem launch_goldDesk : ∃ d', goldDesk.launch 9 = some d' ∧
    d'.viewer.stream = [⟨"gold", true⟩, errorLine Viewport noVariable.message] := by
  obtain ⟨m', hreports⟩ : ∃ m', Desk.reports 9
      ((Machine.blank goldThenFault.instructions ⟨#[], 0, 0⟩).setUp onScreen.setup) =
      some ([.output ⟨"gold", true⟩, .ended (some noVariable.message)], m') := ⟨_, rfl⟩
  simp only [Desk.launch, compile_goldDesk, hreports]
  refine ⟨_, rfl, ?_⟩
  simp [Desk.report, Viewer.update, Viewer.awaiting, Viewer.append, errorLine, goldDesk, Desk.start,
    Viewer.start]

/-- The program shows one thing and fails. When its end is handed to the viewer, this and the line
for the error are what the viewer shows. -/
theorem gold_then_fault_on_screen :
    ∃ (history : List (Traffic Viewport × Action Viewport)) (t : Traffic Viewport) (c : Call)
      (message : Option String) (t' : Traffic Viewport) (R : LiveRun)
      (error : Option RuntimeError),
      Course onScreen history t ∧ Patient history ∧
      Step onScreen t (.deliver c) t' ∧ c.answer = some (.event (.ended message)) ∧
      R.machine.Ends R.asked R.shown error ∧ message = error.map (·.message) ∧
      t'.viewer.stream = R.shown ++ (message.map (errorLine Viewport)).toList ∧
      t'.viewer.stream = [⟨"gold", true⟩, errorLine Viewport noVariable.message] := by
  obtain ⟨d', hlaunch, hstream⟩ := launch_goldDesk
  have hnone : ([] : List LiveRun).length = goldDesk.machines.length := rfl
  obtain ⟨t, c, message, t', hunattended, hanswer, hstep, hviewer⟩ :=
    launch_comes_back hlaunch hnone
  obtain ⟨history, hcourse, hpatient⟩ := hunattended.course .start (by simp [Patient])
  obtain ⟨-, -, -, -, hend⟩ := stream_follows_run hcourse hpatient
  rw [← hviewer] at hstream
  rcases hend c message t' hstep hanswer with
    ⟨run, R, error, -, -, hends, hmessage, hall⟩ | ⟨file, fresh, error, -, -, -, hone⟩
  · exact ⟨history, t, c, message, t', R, error, hcourse, hpatient, hstep, hanswer, hends, hmessage,
      hall, hstream⟩
  · simp [hone] at hstream

end Traffic

end Adventure
