import Adventure.Proofs.Interruption

/-!
# Records that echo one another

Two programs that do the same may need different numbers of steps for it, and may reach different
statements on the way. So their records are compared by what can be seen from outside: what is
shown, and how the computation ends. `Record.Echo` says that one record is an echo of another, and
`Record.Echoed` that a computation with so many steps is echoed by another one that is given enough
of them.

The comparison ends where the program is asked to stop, since it matters then which statement comes
next. An echo of a record with a request to stop is only known to have one as well.

The comparison is carried through the ways to put computations together, as it is done for outcomes
in `Adventure.Proofs.Settled`.
-/

namespace Adventure

section Outcomes

variable {σ τ α : Type} (o : Outcome σ α)

theorem Outcome.mapState_eq_unfinished_iff (g : σ → τ) :
    o.mapState g = .unfinished ↔ o = .unfinished := by
  cases o <;> simp [mapState]

theorem Outcome.mapError_eq_unfinished_iff (g : RuntimeError → RuntimeError) :
    o.mapError g = .unfinished ↔ o = .unfinished := by
  cases o <;> simp [mapError]

end Outcomes

/-- What is shown at a moment, with whether the program is asked to stop by it. -/
def Moment.heard? (m : Moment) : Option (Output × Bool) :=
  m.shown?.map fun o => (o, m.world.asks o)

namespace Record

variable {σ τ α β : Type}

/-! ## What a record shows -/

/-- What is shown on record. -/
def shown (a : Record σ α) : List Output :=
  a.moments.filterMap Moment.shown?

/-- What is shown on record, each with whether it is a reason to stop. -/
def heard (a : Record σ α) : List (Output × Bool) :=
  a.moments.filterMap Moment.heard?

/-- Nothing that is shown asks the program to stop. -/
def Calm (a : Record σ α) : Prop :=
  ∀ told ∈ a.heard, told.2 = false

/-- What was shown is what was heard, without the answers to it. -/
theorem shown_eq_map_heard (a : Record σ α) : a.shown = a.heard.map Prod.fst := by
  rw [heard, List.map_filterMap]
  refine congrArg (a.moments.filterMap ·) (funext fun m => ?_)
  rw [Moment.heard?, Option.map_map]
  exact Option.map_id'.symm

/-- A moment is heard before what was heard before. -/
theorem heard_note (event : Record.Event) (w : World) (a : Record σ α) :
    (a.note event w).heard = (Moment.heard? ⟨event, w⟩).toList ++ a.heard := by
  cases event <;> rfl

section Bind

variable {a : Record σ α} {g : α → σ → Record σ β}

/-- What was heard of two records is heard of one after the other. -/
theorem heard_bind_of_done {v : α} {s : σ} (h : a.outcome = .done v s) :
    (a.bind g).heard = a.heard ++ (g v s).heard := by
  simp only [bind, h, heard, List.filterMap_append]

/-- The outcome is that of the second record if the first one was done. -/
theorem outcome_bind_of_done {v : α} {s : σ} (h : a.outcome = .done v s) :
    (a.bind g).outcome = (g v s).outcome := by
  simp only [bind, h]

/-- Two records are calm if both are. -/
theorem calm_bind_of_done  {v : α} {s : σ} (h : a.outcome = .done v s) :
    (a.bind g).Calm ↔ a.Calm ∧ (g v s).Calm := by
  simp only [Calm, heard_bind_of_done h, List.forall_mem_append]

/-- A failure is all there is on record. -/
theorem bind_of_failed {e : RuntimeError} {s : σ} (h : a.outcome = .failed e s) :
    a.bind g = ⟨a.moments, .failed e s⟩ := by
  simp only [bind, h]

/-- A record that was done is made of two that were done. -/
theorem exists_of_bind_done {v' : β} {s' : σ} (h : (a.bind g).outcome = .done v' s') :
    ∃ v s, a.outcome = .done v s ∧ (g v s).outcome = .done v' s' := by
  obtain ⟨moments, o⟩ := a
  cases o with
  | done v s => exact ⟨v, s, rfl, h⟩
  | failed e s => cases h
  | unfinished => cases h

/-- What was heard first is heard, whatever follows. -/
theorem heard_prefix_heard_bind : a.heard <+: (a.bind g).heard := by
  obtain ⟨moments, o⟩ := a
  cases o with
  | done v s => exact ⟨(g v s).heard, (heard_bind_of_done rfl).symm⟩
  | failed e s => exact List.prefix_rfl
  | unfinished => exact List.prefix_rfl

end Bind

/-- What is calm was calm before. -/
theorem Calm.mono  {a : Record σ α} {b : Record τ β} (h : b.Calm)
    (hheard : a.heard <+: b.heard) : a.Calm :=
  fun output houtput => h output (hheard.subset houtput)

/-! ## Echoes of a record -/

/-- The record `b` is an echo of the record `a`: it shows what `a` shows, and if the computation of
`a` ended, then so did that of `b`, in the same way and with nothing shown beyond that. Where
something on record asks the program to stop, there is something in the echo that does. -/
structure Echo (a b : Record σ α) : Prop where
  heard : a.Calm → a.heard <+: b.heard
  outcome : a.Calm → a.outcome ≠ .unfinished → b.outcome = a.outcome ∧ b.heard = a.heard
  alarmed : ¬a.Calm → ¬b.Calm

namespace Echo

variable  {a b : Record σ α}

/-- A record echoes itself. -/
theorem refl (a : Record σ α) : Echo a a where
  heard := fun _ => List.prefix_rfl
  outcome := fun _ _ => ⟨rfl, rfl⟩
  alarmed := id

/-- Only what is shown and the end matter. -/
theorem congr {a' b' : Record σ α} (h : Echo a b)
    (ha : a'.heard = a.heard ∧ a'.outcome = a.outcome)
    (hb : b'.heard = b.heard ∧ b'.outcome = b.outcome) : Echo a' b' where
  heard := by simpa only [Calm, ha, hb] using h.heard
  outcome := by simpa only [Calm, ha, hb] using h.outcome
  alarmed := by simpa only [Calm, ha, hb] using h.alarmed

/-- Nothing is asked of an echo of a computation that has shown nothing yet. -/
theorem of_unfinished (h : a.heard = [] ∧ a.outcome = .unfinished) : Echo a b where
  heard := fun _ => by rw [h.1]; exact List.nil_prefix
  outcome := fun _ hend => absurd h.2 hend
  alarmed := fun hcalm => absurd (by simp [Calm, h.1]) hcalm

/-- Where nothing is shown, it is only the end that matters. -/
theorem of_mute (ha : a.heard = []) (hb : b.heard = [])
    (h : a.outcome ≠ .unfinished → b.outcome = a.outcome) : Echo a b where
  heard := fun _ => by rw [ha]; exact List.nil_prefix
  outcome := fun _ hend => ⟨h hend, hb.trans ha.symm⟩
  alarmed := fun hcalm => absurd (by simp [Calm, ha]) hcalm

/-- Records still echo each other if both have another state at the end. -/
theorem mapState (h : Echo a b) (g : σ → τ) : Echo (a.mapState g) (b.mapState g) where
  heard := h.heard
  outcome := by
    intro hcalm hend
    rw [Record.mapState, ne_eq, Outcome.mapState_eq_unfinished_iff] at hend
    obtain ⟨houtcome, hheard⟩ := h.outcome hcalm hend
    exact ⟨congrArg (Outcome.mapState g) houtcome, hheard⟩
  alarmed := h.alarmed

/-- Records still echo each other if both have another error at the end. -/
theorem mapError (h : Echo a b) (g : RuntimeError → RuntimeError) :
    Echo (a.mapError g) (b.mapError g) where
  heard := h.heard
  outcome := by
    intro hcalm hend
    rw [Record.mapError, ne_eq, Outcome.mapError_eq_unfinished_iff] at hend
    obtain ⟨houtcome, hheard⟩ := h.outcome hcalm hend
    exact ⟨congrArg (Outcome.mapError g) houtcome, hheard⟩
  alarmed := h.alarmed

section Bind

variable {g g' : α → σ → Record σ β}

/-- What follows a request to stop does not matter. -/
theorem bind_of_alarmed (h : Echo a b) (ha : ¬a.Calm) :
    Echo (a.bind g) (b.bind g') where
  heard := fun hcalm => absurd (hcalm.mono heard_prefix_heard_bind) ha
  outcome := fun hcalm _ => absurd (hcalm.mono heard_prefix_heard_bind) ha
  alarmed := fun _ hcalm => h.alarmed ha (hcalm.mono heard_prefix_heard_bind)

/-- What would follow a value does not matter where there is none. -/
theorem bind_of_not_done (h : Echo a b) (ha : ∀ v s, a.outcome ≠ .done v s) :
    Echo (a.bind g) (b.bind g') := by
  by_cases hcalm : a.Calm
  · obtain ⟨moments, o⟩ := a
    cases o with
    | done v s => exact absurd rfl (ha v s)
    | failed e s =>
      obtain ⟨hb, hheard⟩ := h.outcome hcalm (by simp)
      rw [bind_of_failed hb]
      exact (Echo.refl _).congr ⟨rfl, rfl⟩ ⟨hheard, rfl⟩
    | unfinished =>
      exact
        { heard := fun _ => (h.heard hcalm).trans heard_prefix_heard_bind
          outcome := fun _ hend => absurd rfl hend
          alarmed := fun halarmed => absurd hcalm halarmed }
  · exact h.bind_of_alarmed hcalm

/-- A value is the same in the echo, so it goes on with the same. -/
theorem bind_of_done {v : α} {s : σ} (h : Echo a b) (hcalm : a.Calm)
    (ha : a.outcome = .done v s) (hmore : Echo (g v s) (g' v s)) :
    Echo (a.bind g) (b.bind g') := by
  obtain ⟨hb, hheard⟩ := h.outcome hcalm (by simp [ha])
  rw [ha] at hb
  constructor
  · intro hbind
    obtain ⟨-, hrest⟩ := (calm_bind_of_done ha).mp hbind
    rw [heard_bind_of_done ha, heard_bind_of_done hb, hheard]
    exact (List.prefix_append_right_inj _).mpr (hmore.heard hrest)
  · intro hbind hend
    obtain ⟨-, hrest⟩ := (calm_bind_of_done ha).mp hbind
    rw [outcome_bind_of_done ha] at hend
    obtain ⟨houtcome, hmoreHeard⟩ := hmore.outcome hrest hend
    rw [outcome_bind_of_done ha, outcome_bind_of_done hb, heard_bind_of_done ha,
      heard_bind_of_done hb, hheard, hmoreHeard]
    exact ⟨houtcome, rfl⟩
  · -- the first part is calm, so it is what follows that asks
    intro halarmed hbind
    obtain ⟨-, hrest⟩ := (calm_bind_of_done hb).mp hbind
    refine hmore.alarmed (fun hrest' => halarmed ?_) hrest
    exact (calm_bind_of_done ha).mpr ⟨hcalm, hrest'⟩

end Bind

end Echo

/-! ## Computations that are echoed -/

/-- The computation on record is echoed by `f` if that is given enough steps. Where nothing asks the
program to stop, it has not been asked to at the end. -/
structure Echoed (world : σ → World) (a : Record σ α)
    (f : Nat → Record σ α) : Prop where
  echo : ∃ least, ∀ n, least ≤ n → Echo a (f n)
  unasked : a.Calm → ∀ v s, a.outcome = .done v s → (world s).interrupted = false

namespace Echoed

variable  {world : σ → World} {a : Record σ α} {f : Nat → Record σ α}

/-- What is done at once is echoed. -/
theorem done (v : α) {s : σ} (hs : (world s).interrupted = false) :
    (silent (.done v s)).Echoed world fun _ => silent (.done v s) where
  echo := ⟨0, fun _ _ => .refl _⟩
  unasked := by
    intro _ v' s' heq
    cases heq
    exact hs

/-- What is raised is echoed. -/
theorem raise (fault : Fault) (w : World) (s : σ) :
    (Record.raise fault w s : Record σ α).Echoed world fun _ => .raise fault w s where
  echo := ⟨0, fun _ _ => .refl _⟩
  unasked := by
    intro _ v' s' heq
    cases heq

/-- An operation that is carried out or raised is echoed. -/
theorem ofExcept {w : World} (hw : w.interrupted = false) (x : Except Fault α) :
    (Account.ofExcept w x : Record World α).Echoed id fun _ => Account.ofExcept w x := by
  cases x with
  | ok v => exact .done v hw
  | error fault => exact .raise fault w w

/-- What was not finished and heard of nothing is echoed. -/
theorem of_unfinished (h : a.heard = [] ∧ a.outcome = .unfinished) : a.Echoed world f where
  echo := ⟨0, fun _ _ => .of_unfinished h⟩
  unasked := by
    intro _ v s heq
    rw [h.2] at heq
    cases heq

/-- A step less is enough. -/
theorem of_succ (h : a.Echoed world fun n => f (n + 1)) : a.Echoed world f where
  echo := by
    obtain ⟨least, hecho⟩ := h.echo
    refine ⟨least + 1, fun n hn => ?_⟩
    obtain ⟨n, rfl⟩ : ∃ k, n = k + 1 := ⟨n - 1, by omega⟩
    exact hecho n (Nat.le_of_succ_le_succ hn)
  unasked := h.unasked

/-- More steps do no harm. -/
theorem later (k : Nat) (h : a.Echoed world f) : a.Echoed world fun n => f (n + k) where
  echo := by
    obtain ⟨least, hecho⟩ := h.echo
    exact ⟨least, fun n hn => hecho (n + k) (Nat.le_add_right_of_le hn)⟩
  unasked := h.unasked

/-- Only what is shown and the end matter. -/
theorem congr {a' : Record σ α} {f' : Nat → Record σ α} (h : a.Echoed world f)
    (ha : a'.heard = a.heard ∧ a'.outcome = a.outcome)
    (hf : ∀ n, (f' n).heard = (f n).heard ∧ (f' n).outcome = (f n).outcome) :
    a'.Echoed world f' where
  echo := by
    obtain ⟨least, hecho⟩ := h.echo
    exact ⟨least, fun n hn => (hecho n hn).congr ha (hf n)⟩
  unasked := by simpa only [Calm, ha] using h.unasked

/-- Going on after a computation: if something asks the program to stop, it does not matter what
follows, and if there is a value, then what follows it is echoed. -/
theorem bind {g : α → σ → Record σ β} {k : α → σ → Nat → Record σ β} (h : a.Echoed world f)
    (hg : ∀ v s, (world s).interrupted = false → (g v s).Echoed world (k v s)) :
    (a.bind g).Echoed world fun n => (f n).bind fun v s => k v s n := by
  constructor
  · obtain ⟨least, hecho⟩ := h.echo
    by_cases hcalm : a.Calm
    · rcases ha : a.outcome with ⟨v, s⟩ | ⟨e, s⟩ | -
      · obtain ⟨least', hecho'⟩ := (hg v s (h.unasked hcalm v s ha)).echo
        -- enough steps for what is done first and for what follows
        refine ⟨max least least', fun n hn => ?_⟩
        exact (hecho n (by omega)).bind_of_done hcalm ha (hecho' n (by omega))
      all_goals exact ⟨least, fun n hn => (hecho n hn).bind_of_not_done (by simp [ha])⟩
    · exact ⟨least, fun n hn => (hecho n hn).bind_of_alarmed hcalm⟩
  · intro hcalm v' s' hdone
    obtain ⟨v, s, ha, hmore⟩ := exists_of_bind_done hdone
    obtain ⟨hfirst, hrest⟩ := (calm_bind_of_done ha).mp hcalm
    exact (hg v s (h.unasked hfirst v s ha)).unasked hrest v' s' hmore

/-- A record is still echoed with another state, if that is interrupted as the first. -/
theorem mapState {world' : τ → World} {g : σ → τ} (h : a.Echoed world f)
    (hg : ∀ s, (world' (g s)).interrupted = (world s).interrupted) :
    (a.mapState g).Echoed world' fun n => (f n).mapState g where
  echo := by
    obtain ⟨least, hecho⟩ := h.echo
    exact ⟨least, fun n hn => (hecho n hn).mapState g⟩
  unasked := by
    intro hcalm v t hdone
    obtain ⟨moments, o⟩ := a
    cases o with
    | done v₁ s =>
      cases hdone
      exact (hg s).trans (h.unasked hcalm v s rfl)
    | failed e s => cases hdone
    | unfinished => cases hdone

/-- A record is still echoed with another error. -/
theorem mapError (g : RuntimeError → RuntimeError) (h : a.Echoed world f) :
    (a.mapError g).Echoed world fun n => (f n).mapError g where
  echo := by
    obtain ⟨least, hecho⟩ := h.echo
    exact ⟨least, fun n hn => (hecho n hn).mapError g⟩
  unasked := by
    intro hcalm v s hdone
    obtain ⟨moments, o⟩ := a
    cases o with
    | done v₁ s₁ => exact h.unasked hcalm v s hdone
    | failed e s₁ => cases hdone
    | unfinished => cases hdone

/-- A text is shown. It may ask the program to stop. -/
theorem display (text : String) (w : World) (v : α) {s : σ}
    (hs : w.asks ⟨text, true⟩ = false → (world s).interrupted = false) :
    ((silent (.done v s)).note (.display text) w).Echoed world fun _ =>
      (silent (.done v s)).note (.display text) w where
  echo := ⟨0, fun _ _ => .refl _⟩
  unasked := by
    intro hcalm v' s' hdone
    cases hdone
    have hheard : (⟨text, true⟩, w.asks ⟨text, true⟩) ∈
        ((silent (.done v s)).note (.display text) w).heard := by
      simp [heard_note, Moment.heard?, Moment.shown?]
    exact hs (hcalm _ hheard)

/-- Events that show nothing may be on record before, and others in the echo. -/
theorem note {event event' : Record.Event} {w w' : World} (h : a.Echoed world f)
    (hevent : Moment.heard? ⟨event, w⟩ = none) (hevent' : Moment.heard? ⟨event', w'⟩ = none) :
    (a.note event w).Echoed world fun n => (f n).note event' w' := by
  refine h.congr ⟨?_, rfl⟩ fun n => ⟨?_, rfl⟩
  · rw [heard_note, hevent]
    rfl
  · rw [heard_note, hevent']
    rfl

/-- An event that shows nothing may be on record after the computation. -/
theorem noteEnd (h : a.Echoed world f) (event : Record.Event)
    (hevent : ∀ w, Moment.heard? ⟨event, w⟩ = none) :
    (a.noteEnd event world).Echoed world fun n => (f n).noteEnd event world :=
  h.bind fun v _ hs => (done v hs).note (hevent _) (hevent _)

/-- What a statement does after an expression, a condition or a call. -/
theorem thenStore {scope : Scope} {a : Record World α} {f : Nat → Record World α}
    {g : α → Store → Record Store Signal} {k : α → Store → Nat → Record Store Signal}
    (h : a.Echoed id f)
    (hg : ∀ v s, s.world.interrupted = false → (g v s).Echoed Store.world (k v s)) :
    ((a.mapState (⟨scope, ·⟩)).bind g).Echoed Store.world fun n =>
      ((f n).mapState (⟨scope, ·⟩)).bind fun v s => k v s n := by
  have hstore : (a.mapState (Store.mk scope)).Echoed Store.world fun n =>
      (f n).mapState (Store.mk scope) := h.mapState fun _ => rfl
  exact hstore.bind hg

end Echoed

end Record

/-- Nothing is heard of a roll. -/
theorem World.heard_recordRoll (n : Nat) (v : Value) (w : World) :
    (w.recordRoll n v).heard = [] := by
  unfold recordRoll Account.roll
  split
  · rfl
  · split <;> rfl

/-- A roll interrupts nothing. -/
theorem World.interrupted_of_roll {n : Nat} {v v' : Value} {w w' : World}
    (h : w.roll n v = .done v' w') : w'.interrupted = w.interrupted := by
  unfold roll at h
  split at h
  · cases h
  · split at h <;> cases h
    rfl

/-- A roll that is over has the same outcome if it may draw more often. -/
theorem World.echoed_roll (n : Nat) (v : Value) {w : World}
    (hw : w.interrupted = false) :
    (w.recordRoll n v).Echoed id fun k => w.recordRoll k v where
  echo := by
    refine ⟨n, fun k hk => .of_mute (heard_recordRoll n v w) (heard_recordRoll k v w) ?_⟩
    simp only [outcome_recordRoll]
    intro hend
    have hkept : (w.roll n v).Kept (· ≠ none) (following #[]) ((w.following #[]).roll k v) :=
      kept_roll #[] hk (fun h => absurd rfl h) v w
    rw [following_empty] at hkept
    exact hkept.eq_of_finished hend
  unasked := by
    intro _ v' w' hdone
    rw [outcome_recordRoll] at hdone
    exact (interrupted_of_roll hdone).trans hw

end Adventure
