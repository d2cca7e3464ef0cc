import Adventure.Proofs.Reached

/-!
# How deep calls go

The calls in progress are bounded by the limit of the machine, at every moment of every run, and all
of them are over when the run is. A run fails because calls are too deep exactly if one was
attempted at the limit, and then the error names as many functions as the limit allows
(`Machine.calls_bounded_and_unwound`).

The bound is kept by every step (`Step.depth_le`), and so is the balance between the depth and the
calls around the current place (`Step.balanced`).

The limit decides about nothing but whether a call is too deep. A run that does not fail for that
reason therefore ends in the same way under every higher limit
(`Machine.outcome_kept_under_higher_limit`).
-/

namespace Adventure

variable {σ α : Type} {r : Rules} {known : Statement → Prop} {world : σ → World} {w : World}
  {moments : List Moment} {o : Outcome σ α}

/-- The moment is a call that is attempted where no further call may be in progress. -/
def Moment.AttemptsAt (limit : Nat) (m : Moment) : Prop :=
  (∃ name, m.event = .attempt name) ∧ m.world.depth = limit

/-- The moments of a path are within the limit, and no call is attempted at it. -/
theorem Path.within_limit {s s₁ : Spot} (h : Path r known s moments s₁)
    (hs : s.world.depth ≤ r.maxDepth) :
    s₁.world.depth ≤ r.maxDepth ∧
      ∀ m ∈ moments, m.world.depth ≤ r.maxDepth ∧ ¬m.AttemptsAt r.maxDepth := by
  have hinv : ∀ s event s₁, Step r known s event s₁ → s.world.depth ≤ r.maxDepth →
      s₁.world.depth ≤ r.maxDepth := fun s event s₁ hstep => hstep.depth_le
  obtain ⟨hend, hmoments⟩ := h.invariant hinv hs
  refine ⟨hend, fun m hm => ?_⟩
  obtain ⟨s, s₁, hle, hworld, hstep⟩ := hmoments m hm
  rw [← hworld]
  refine ⟨hle, ?_⟩
  rintro ⟨⟨name, hname⟩, hlimit⟩
  rw [hname] at hstep
  rw [← hworld] at hlimit
  cases hstep with
  | attempt hdepth => exact absurd hlimit (Nat.ne_of_lt hdepth)

/-- The last moments of a run that fails have a call that is attempted at the limit exactly if it
fails because calls are too deep. -/
theorem Stop.tooDeep_iff {s s₁ : Spot} {f : Fault} (h : Stop r known s moments f s₁)
    (hs : s.world.depth ≤ r.maxDepth) :
    f = .tooDeep ↔ ∃ m ∈ moments, m.AttemptsAt r.maxDepth := by
  cases h with
  | fault hf =>
    have hne : f ≠ .tooDeep := by
      rintro rfl
      cases hf
    simp [hne, Moment.AttemptsAt]
  | tooDeep hdepth => simpa [Moment.AttemptsAt] using Nat.le_antisymm hs hdepth
  | reach hst hstop => simp [Moment.AttemptsAt]
  | pass hstop => simp [Moment.AttemptsAt]

/-- Where a run that is too deep stops, no further call may be in progress. -/
theorem Stop.depth_of_tooDeep {s s₁ : Spot} (h : Stop r known s moments .tooDeep s₁)
    (hs : s.world.depth ≤ r.maxDepth) : s₁.world.depth = r.maxDepth := by
  cases h with
  | fault hf => cases hf
  | tooDeep hdepth => exact Nat.le_antisymm hs hdepth

namespace Course

/-- The calls in progress are within the limit at every moment. -/
theorem depth_le (h : Course r known world w moments o) (hw : w.depth = 0) :
    ∀ m ∈ moments, m.world.depth ≤ r.maxDepth := by
  have hle : w.depth ≤ r.maxDepth := hw ▸ Nat.zero_le _
  cases o with
  | done v s => exact fun m hm => (((h []).within_limit hle).2 m hm).1
  | failed e s =>
    obtain ⟨frames, w', hfails, -⟩ := h
    obtain ⟨before, s₁, last, rfl, hpath, hstop⟩ := (hfails []).exists_stop
    obtain ⟨hend, hbefore⟩ := hpath.within_limit hle
    intro m hm
    rcases List.mem_append.mp hm with hm | hm
    · exact (hbefore m hm).1
    · rw [hstop.exists_raise.2 m hm]
      exact hend
  | unfinished =>
    obtain ⟨s, hs⟩ := h []
    exact fun m hm => ((hs.within_limit hle).2 m hm).1

/-- A run fails because calls are too deep exactly if one is attempted at the limit. -/
theorem tooDeep_iff (h : Course r known world w moments o) (hw : w.depth = 0) :
    (∃ e s, o = .failed e s ∧ e.fault = .tooDeep) ↔ ∃ m ∈ moments, m.AttemptsAt r.maxDepth := by
  have hle : w.depth ≤ r.maxDepth := hw ▸ Nat.zero_le _
  cases o with
  | done v s =>
    have hnone := ((h []).within_limit hle).2
    constructor
    · rintro ⟨e, s, heq, -⟩
      cases heq
    · rintro ⟨m, hm, hattempt⟩
      exact absurd hattempt (hnone m hm).2
  | failed e s =>
    obtain ⟨frames, w', hfails, -⟩ := h
    obtain ⟨before, s₁, last, rfl, hpath, hstop⟩ := (hfails []).exists_stop
    obtain ⟨hend, hbefore⟩ := hpath.within_limit hle
    have hlast := hstop.tooDeep_iff hend
    constructor
    · rintro ⟨e', s', heq, hfault⟩
      cases heq
      obtain ⟨m, hm, hattempt⟩ := hlast.mp hfault
      exact ⟨m, List.mem_append_right _ hm, hattempt⟩
    · rintro ⟨m, hm, hattempt⟩
      rcases List.mem_append.mp hm with hm | hm
      -- up to the last moments every attempt succeeded
      · exact absurd hattempt (hbefore m hm).2
      · exact ⟨e, s, rfl, hlast.mpr ⟨m, hm, hattempt⟩⟩
  | unfinished =>
    obtain ⟨s, hs⟩ := h []
    have hnone := (hs.within_limit hle).2
    constructor
    · rintro ⟨e, s, heq, -⟩
      cases heq
    · rintro ⟨m, hm, hattempt⟩
      exact absurd hattempt (hnone m hm).2

/-- An error about calls that are too deep names as many functions as the limit allows. -/
theorem length_trace_of_tooDeep {e : RuntimeError} {s : σ}
    (h : Course r known world w moments (.failed e s : Outcome σ α)) (hw : w.depth = 0)
    (hfault : e.fault = .tooDeep) : e.trace.length = r.maxDepth := by
  obtain ⟨frames, w', hfails, -, htrace, -⟩ := h
  obtain ⟨before, s₁, last, -, hpath, hstop⟩ := (hfails []).exists_stop
  have hend := (hpath.within_limit (hw ▸ Nat.zero_le _)).1
  rw [hfault] at hstop
  have hdepth : w'.depth = r.maxDepth := hstop.depth_of_tooDeep hend
  have hbalanced : w'.depth = 0 + (Frame.calls (frames ++ [])).length :=
    hstop.balanced (hpath.balanced hw)
  rw [htrace, ← hdepth, hbalanced, List.append_nil, Nat.zero_add]

end Course

/-- What a record says about the calls of a run, where `limit` calls may be in progress: how the run
ended and all that it has shown, that the calls in progress were within the limit whenever a
statement was reached, a text was shown or anything else happened, and that the run failed with a
recursion error exactly if a call was attempted at the limit, with as many functions in the error as
the limit allows. -/
structure Record.WithinLimit (limit : Nat) (a : Record Machine Unit) (o : Outcome Machine Unit) :
    Prop where
  outcome : a.outcome = o
  outputs : ∀ m, o.state? = some m → m.outputs = a.moments.filterMap Moment.shown?
  bounded : ∀ m ∈ a.moments, m.world.depth ≤ limit
  recursion : (∃ e m, o = .failed e m ∧ e.fault.kind = .recursion) ↔
    ∃ m ∈ a.moments, m.AttemptsAt limit
  trace : ∀ e m, o = .failed e m → e.fault.kind = .recursion → e.trace.length = limit

theorem Fault.kind_eq_recursion_iff (f : Fault) : f.kind = .recursion ↔ f = .tooDeep := by
  cases f <;> simp [kind]

theorem Record.Tells.withinLimit {a : Record Machine Unit} {o : Outcome Machine Unit}
    (h : a.Tells r known Machine.world w o) (hw : w.depth = 0) (hquiet : w.outputs = #[]) :
    a.WithinLimit r.maxDepth o where
  outcome := h.outcome
  outputs := by
    intro m hm
    have houtputs := h.course.outputs_eq hm
    rwa [hquiet, List.nil_append] at houtputs
  bounded := h.course.depth_le hw
  recursion := by
    simp only [Fault.kind_eq_recursion_iff]
    exact h.course.tooDeep_iff hw
  trace := by
    rintro e m rfl hkind
    exact h.course.length_trace_of_tooDeep hw ((Fault.kind_eq_recursion_iff _).mp hkind)

/-- A program that cannot be registered does not call anything. -/
theorem Machine.withinLimit_of_refused {m : Machine} {p : Program} {e : RuntimeError}
    (h : m.quiet.load p = .error e) (steps limit : Nat) :
    (m.recordEvaluate steps p).WithinLimit limit (m.evaluate steps p) := by
  have hne : e.fault.kind ≠ .recursion := by
    unfold load at h
    split at h <;> cases h
    exact FaultKind.noConfusion
  rw [recordEvaluate, evaluate, h]
  refine ⟨rfl, ?_, by simp [Record.silent], ⟨?_, by simp [Record.silent]⟩, ?_⟩
  · intro m' hm'
    obtain rfl : m.quiet = m' := Option.some.inj hm'
    rfl
  · rintro ⟨e', s, heq, hkind⟩
    cases heq
    exact absurd hkind hne
  · rintro e' s heq hkind
    cases heq
    exact absurd hkind hne

namespace Machine

/-- **Calls are bounded and always over in the end.** Of every machine that can be reached, whatever
programs it was given and however its runs ended, no call is in progress. If it is run or handed a
program, what happens is on record with all that is shown, and the calls in progress are within its
limit at every moment. It fails with a recursion error exactly if a call was attempted at the limit
whose function is there and whose parameters are bound, and the error then has as many functions as
the limit. -/
theorem calls_bounded_and_unwound {m : Machine} (h : m.Reached fun _ => True) :
    m.depth = 0 ∧ ∀ steps,
      (m.recordRun steps).WithinLimit m.maxDepth (m.run steps) ∧
        ∀ p, (m.recordEvaluate steps p).WithinLimit m.maxDepth (m.evaluate steps p) := by
  have hrest : m.AtRest fun _ => True := h.atRest fun _ _ _ _ => trivial
  refine ⟨hrest.depth, fun steps => ⟨?_, fun p => ?_⟩⟩
  · exact (hrest.tells_run steps).withinLimit hrest.depth rfl
  rcases hload : m.quiet.load p with e | m'
  · exact withinLimit_of_refused hload steps m.maxDepth
  · have hrest' : m'.AtRest fun _ => True := hrest.quiet.load (fun _ _ => trivial) hload
    obtain ⟨-, rfl⟩ := (load_eq_ok_iff _ _ _).mp hload
    exact (hrest.tells_evaluate (fun _ _ => trivial) hload steps).withinLimit hrest'.depth rfl

/-- A function that does nothing but call itself, and a call of it. -/
def plunge : Program :=
  ⟨[], [⟨1, "fall", [], some [.call 2 "fall" []]⟩], [.call 4 "fall" []]⟩

/-- The machine of that program, with two calls in progress at most. -/
def plunging : Machine :=
  ((blank plunge.instructions ⟨#[], 0, 0⟩).adding plunge).limitDepth 2

/-- Its run fails where the third call is attempted, with both others in the error, and leaves a
machine without a call in progress. -/
theorem plunging_stops_at_third_call :
    plunging.Reached (fun _ => True) ∧ plunging.depth = 0 ∧
      ∃ e m', plunging.run 20 = .failed e m' ∧ e.fault.kind = .recursion ∧ e.trace.length = 2 ∧
        (∃ moment ∈ (plunging.recordRun 20).moments, moment.AttemptsAt 2) ∧ m'.depth = 0 := by
  have hstart : ofProgram plunge ⟨#[], 0, 0⟩ =
      .ok ((blank plunge.instructions ⟨#[], 0, 0⟩).adding plunge) := rfl
  have hreached : plunging.Reached fun _ => True := .limitDepth 2 (.start trivial hstart)
  obtain ⟨hdepth, hruns⟩ := calls_bounded_and_unwound hreached
  have hlimit := (hruns 20).1
  obtain ⟨e, m', hrun, hkind⟩ :
      ∃ e m', plunging.run 20 = .failed e m' ∧ e.fault.kind = .recursion := ⟨_, _, rfl, rfl⟩
  have hend : (plunging.run 20).state? = some m' := by rw [hrun]; rfl
  exact ⟨hreached, hdepth, e, m', hrun, hkind, hlimit.trace e m' hrun hkind,
    hlimit.recursion.mp ⟨e, m', hrun, hkind⟩,
    (calls_bounded_and_unwound (.run 20 hreached hend)).1⟩

end Machine

/-! ## Higher limits -/

/-- Everything is to be kept but calls that are too deep. -/
def allButTooDeep : Option Fault → Prop :=
  fun f => f ≠ some .tooDeep

/-- Rules with a higher limit go further. -/
theorem Rules.within_of_limit_le (functions : List Function) {limit limit' : Nat}
    (hle : limit ≤ limit') :
    Within allButTooDeep ⟨functions, limit⟩ ⟨functions, limit'⟩ where
  functions := fun _ _ h => h
  undefined := fun _ _ h => h
  maxDepth := hle
  tooDeep := fun h => absurd rfl h

/-- An outcome is settled unless it is an error about calls that are too deep. -/
theorem Outcome.settled_of_not_recursion {o : Outcome σ α}
    (h : ¬∃ e s, o = .failed e s ∧ e.fault.kind = .recursion) : o.Settled allButTooDeep := by
  cases o with
  | done v s => trivial
  | failed e s =>
    intro hfault
    have hkind : e.fault.kind = .recursion :=
      (Fault.kind_eq_recursion_iff _).mpr (Option.some.inj hfault)
    exact h ⟨e, s, rfl, hkind⟩
  | unfinished =>
    intro hnone
    cases hnone

namespace Machine

/-- A positive limit is taken as it is. -/
theorem limitDepth_of_pos (m : Machine) {depth : Int} (h : 0 < depth) :
    m.limitDepth depth = { m with maxDepth := depth.toNat } := by
  rw [limitDepth, if_neg (Int.not_le.mpr h)]

/-- Instructions that do not fail because calls are too deep end in the same way under a higher
limit. -/
theorem kept_perform (m : Machine) {d d' : Int} (hd : 0 < d) (hle : d ≤ d') (steps : Nat)
    (statements : List Statement) :
    ((m.limitDepth d).perform steps statements).Kept allButTooDeep (·.limitDepth d')
      ((m.limitDepth d').perform steps statements) := by
  have hd' : 0 < d' := Int.lt_of_lt_of_le hd hle
  simp only [limitDepth_of_pos _ hd, limitDepth_of_pos _ hd']
  have hwithin := Rules.within_of_limit_le m.functions (Int.toNat_le_toNat hle)
  have hkept := Rules.kept_instructions hwithin (Nat.le_refl steps) (fun _ => rfl) #[] statements
    ⟨m.scope, m.world⟩
  rw [Store.following_empty] at hkept
  exact hkept.mapState fun _ => rfl

theorem load_limitDepth (m : Machine) (p : Program) (d : Int) :
    (m.limitDepth d).load p = (m.load p).map (·.limitDepth d) := by
  have hclash : (m.limitDepth d).clash p = m.clash p := rfl
  rw [load, load, hclash]
  rcases m.clash p with - | ⟨name, line⟩ <;> rfl

/-- **A higher limit only removes recursion errors.** If a machine is run, or is handed a program,
where `d` calls may be in progress, and this does not fail with a recursion error, then the outcome
is the same where more calls may be in progress: the same error if there is one, with its line and
its trace, and the same machine but for its limit, with its outputs, its variables, its generator
and its request to stop. It takes as many steps, so the one does not end if the other does not. -/
theorem outcome_kept_under_higher_limit (m : Machine) {d d' : Int} (hd : 0 < d) (hle : d ≤ d')
    (steps : Nat) :
    ((¬∃ e m', (m.limitDepth d).run steps = .failed e m' ∧ e.fault.kind = .recursion) →
      (m.limitDepth d').run steps = ((m.limitDepth d).run steps).mapState (·.limitDepth d')) ∧
    ∀ p, (¬∃ e m', (m.limitDepth d).evaluate steps p = .failed e m' ∧ e.fault.kind = .recursion) →
      (m.limitDepth d').evaluate steps p =
        ((m.limitDepth d).evaluate steps p).mapState (·.limitDepth d') := by
  refine ⟨fun h => ?_, fun p h => ?_⟩
  · exact kept_perform m.quiet hd hle steps m.instructions (Outcome.settled_of_not_recursion h)
  -- the limit has no part in whether the program can be registered
  have hload : ∀ depth : Int, (m.limitDepth depth).quiet.load p =
      (m.quiet.load p).map (·.limitDepth depth) := load_limitDepth m.quiet p
  simp only [evaluate, hload] at h ⊢
  rcases hp : m.quiet.load p with e | loaded
  · rfl
  rw [hp] at h
  exact kept_perform loaded hd hle steps p.instructions (Outcome.settled_of_not_recursion h)

/-- A function that calls another one, which shows something and then fails. -/
def descent : Program :=
  ⟨[], [⟨1, "f", [], some [.call 2 "g" []]⟩,
    ⟨4, "g", [], some [.log 5 (.text "deep"), .log 6 (.var "x")]⟩], [.call 8 "f" []]⟩

/-- Two calls suffice for it, so it fails in the same way where five may be in progress, be it run
or handed to another machine. -/
theorem descent_fails_alike_under_higher_limit :
    ∃ m m₁ m₂, ofProgram descent ⟨#[], 0, 0⟩ = .ok m ∧
      (m.limitDepth 2).run 20 = .failed ⟨.undeclared "x", 6, ["g", "f"]⟩ m₁ ∧
      m₁.outputs = [⟨"deep", true⟩] ∧
      (m.limitDepth 5).run 20 = .failed ⟨.undeclared "x", 6, ["g", "f"]⟩ (m₁.limitDepth 5) ∧
      ((blank [] ⟨#[], 0, 0⟩).limitDepth 2).evaluate 20 descent =
        .failed ⟨.undeclared "x", 6, ["g", "f"]⟩ m₂ ∧
      ((blank [] ⟨#[], 0, 0⟩).limitDepth 5).evaluate 20 descent =
        .failed ⟨.undeclared "x", 6, ["g", "f"]⟩ (m₂.limitDepth 5) := by
  obtain ⟨m, m₁, hstart, hrun, houtputs⟩ : ∃ m m₁, ofProgram descent ⟨#[], 0, 0⟩ = .ok m ∧
      (m.limitDepth 2).run 20 = .failed ⟨.undeclared "x", 6, ["g", "f"]⟩ m₁ ∧
      m₁.outputs = [⟨"deep", true⟩] := ⟨_, _, rfl, rfl, rfl⟩
  obtain ⟨m₂, hevaluate⟩ : ∃ m₂, ((blank [] ⟨#[], 0, 0⟩).limitDepth 2).evaluate 20 descent =
      .failed ⟨.undeclared "x", 6, ["g", "f"]⟩ m₂ := ⟨_, rfl⟩
  have hnot : ∀ (o : Outcome Machine Unit) (m' : Machine),
      o = .failed ⟨.undeclared "x", 6, ["g", "f"]⟩ m' →
        ¬∃ e m', o = .failed e m' ∧ e.fault.kind = .recursion := by
    rintro _ m' rfl ⟨e, m'', heq, hkind⟩
    cases heq
    cases hkind
  have hpos : (0 : Int) < 2 := by decide
  have hle : (2 : Int) ≤ 5 := by decide
  have hrun' := (outcome_kept_under_higher_limit m hpos hle 20).1 (hnot _ m₁ hrun)
  have hevaluate' := (outcome_kept_under_higher_limit (blank [] ⟨#[], 0, 0⟩) hpos hle 20).2 descent
    (hnot _ m₂ hevaluate)
  rw [hrun] at hrun'
  rw [hevaluate] at hevaluate'
  exact ⟨m, m₁, m₂, hstart, hrun, houtputs, hrun', hevaluate, hevaluate'⟩

end Machine

end Adventure
