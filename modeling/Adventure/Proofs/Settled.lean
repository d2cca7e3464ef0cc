import Adventure.Machine

/-!
# What does not change an outcome

The outcome of a computation stays the same if it is given more steps, if more functions are
defined, if more calls may be in progress, and if something was shown before. This holds of outcomes
that are settled: a value always is, and an error is unless it is one that the change could mend. A
name that was not defined may be defined now, and a call that was too deep may be in order.

`Outcome.Kept` says that a computation keeps the settled outcomes of another one, and is carried
through the ways to put computations together. `Rules.Within` says which rules go further than
others. `Rules.keptAt` is the main statement: under rules that go further, with as many steps or
more, every computation keeps its settled outcomes. The functions of the interpreter call each
other, so one structure (`Rules.KeptAt`) has a field for each of them and there is one induction, on
the number of steps.
-/

namespace Adventure

/-! ## Outcomes -/

namespace Outcome

variable {σ τ α β : Type}

/-- The outcome is settled: it is a value, or not being one is worth keeping. Whether it is, is told
by the fault, and by `none` where the steps did not suffice. -/
def Settled (keep : Option Fault → Prop) : Outcome σ α → Prop
  | done _ _ => True
  | failed e _ => keep (some e.fault)
  | unfinished => keep none

/-- If the outcome `o` is settled, then `o'` is the same outcome, in the state that `φ` makes of the
state of `o`. -/
def Kept (keep : Option Fault → Prop) (φ : σ → σ) (o o' : Outcome σ α) : Prop :=
  o.Settled keep → o' = o.mapState φ

/-- If everything is worth keeping, every outcome is settled. -/
theorem settled_of_all (o : Outcome σ α) : o.Settled fun _ => True := by
  cases o <;> trivial

/-- If all but running out of steps is worth keeping, every outcome that there is is settled. -/
theorem settled_of_finished {o : Outcome σ α} (h : o ≠ .unfinished) : o.Settled (· ≠ none) := by
  cases o with
  | done | failed => simp [Settled]
  | unfinished => exact absurd rfl h

theorem mapState_id (o : Outcome σ α) : o.mapState id = o := by
  cases o <;> rfl

theorem mapState_mapState {υ : Type} (f : σ → τ) (g : τ → υ) (o : Outcome σ α) :
    (o.mapState f).mapState g = o.mapState fun s => g (f s) := by
  cases o <;> rfl

namespace Kept

variable {keep : Option Fault → Prop} {φ : σ → σ} {o o' : Outcome σ α}

/-- A value is kept. -/
theorem done (a : α) (s : σ) : Kept keep φ (.done a s) (.done a (φ s)) :=
  fun _ => rfl

/-- An error is kept. -/
theorem failed (e : RuntimeError) (s : σ) :
    Kept keep φ (.failed e s : Outcome σ α) (.failed e (φ s)) :=
  fun _ => rfl

/-- An operation that leaves the state as it is is kept. -/
theorem ofExcept (s : σ) (x : Except Fault α) :
    Kept keep φ (.ofExcept s x) (.ofExcept (φ s) x) := by
  cases x with
  | ok a => exact .done a s
  | error f => exact .failed _ s

/-- Computations that go on keep their outcomes if what they go on with does. -/
theorem bind {f f' : α → σ → Outcome σ β} (h : Kept keep φ o o')
    (hf : ∀ a s, Kept keep φ (f a s) (f' a (φ s))) : Kept keep φ (o.bind f) (o'.bind f') := by
  intro hsettled
  cases o with
  | done a s =>
    rw [h trivial]
    exact hf a s hsettled
  | failed e s =>
    rw [h hsettled]
    rfl
  | unfinished =>
    rw [h hsettled]
    rfl

/-- Another state at the end is kept if it is so on both sides. -/
theorem mapState {ψ : τ → τ} (h : Kept keep φ o o') {g g' : σ → τ}
    (hg : ∀ s, ψ (g s) = g' (φ s)) : Kept keep ψ (o.mapState g) (o'.mapState g') := by
  intro hsettled
  cases o with
  | done a s =>
    rw [h trivial]
    exact congrArg (Outcome.done a) (hg s).symm
  | failed e s =>
    rw [h hsettled]
    exact congrArg (Outcome.failed e) (hg s).symm
  | unfinished =>
    rw [h hsettled]
    rfl

/-- An outcome that there is is kept as it is. -/
theorem eq_of_finished (h : Kept (· ≠ none) id o o') (hend : o ≠ .unfinished) : o' = o := by
  rw [h (settled_of_finished hend), mapState_id]

/-- Where the error was noticed does not matter. -/
theorem mapError (h : Kept keep φ o o') {g : RuntimeError → RuntimeError}
    (hg : ∀ e, (g e).fault = e.fault) : Kept keep φ (o.mapError g) (o'.mapError g) := by
  intro hsettled
  cases o with
  | done a s =>
    rw [h trivial]
    rfl
  | failed e s =>
    have he : keep (some e.fault) := hg e ▸ hsettled
    rw [h he]
    rfl
  | unfinished =>
    rw [h hsettled]
    rfl

end Kept

end Outcome

/-- Putting an error on a line does not change its fault. -/
@[simp] theorem RuntimeError.fault_onLine (e : RuntimeError) (line : Int) :
    (e.onLine line).fault = e.fault := by
  unfold onLine
  split <;> rfl

/-- Leaving a function does not change the fault. -/
@[simp] theorem RuntimeError.fault_leaving (e : RuntimeError) (name : String) :
    (e.leaving name).fault = e.fault := rfl

/-! ## Rolls -/

namespace Generator

variable {attempts attempts' : Nat}

/-- A number that was found is found with more attempts too. -/
theorem drawBelow_mono {draw : Generator → Nat × Generator} {limit : Nat}
    (hle : attempts ≤ attempts') {g : Generator} {x : Nat × Generator}
    (h : drawBelow draw limit attempts g = some x) : drawBelow draw limit attempts' g = some x := by
  induction attempts generalizing attempts' g with
  | zero => cases h
  | succ attempts ih =>
    obtain ⟨attempts', rfl⟩ : ∃ k, attempts' = k + 1 := ⟨attempts' - 1, by omega⟩
    simp only [drawBelow] at h ⊢
    split
    · next hlt => rwa [if_pos hlt] at h
    · next hlt =>
      rw [if_neg hlt] at h
      exact ih (by omega) h

/-- A number below a limit that was found is found with more attempts too. -/
theorem below_mono (hle : attempts ≤ attempts') {n : Nat} {g : Generator} {x : Nat × Generator}
    (h : g.below attempts n = some x) : g.below attempts' n = some x := by
  unfold below at h ⊢
  obtain ⟨y, hy, hx⟩ := Option.map_eq_some_iff.mp h
  exact Option.map_eq_some_iff.mpr ⟨y, drawBelow_mono hle hy, hx⟩

/-- Dice that were rolled are rolled in the same way with more attempts. -/
theorem rollFrom_mono (hle : attempts ≤ attempts') {faces count : Nat} {total : Int64}
    {g : Generator} {x : Int64 × Generator} (h : rollFrom attempts faces count total g = some x) :
    rollFrom attempts' faces count total g = some x := by
  induction count generalizing total g with
  | zero => exact h
  | succ count ih =>
    rw [rollFrom] at h ⊢
    rcases hdie : g.below attempts faces with - | ⟨die, g'⟩
    · rw [hdie] at h
      cases h
    · rw [hdie] at h
      rw [below_mono hle hdie]
      exact ih h

end Generator

namespace World

/-- The world, where `pre` was shown before. -/
def following (pre : Array Output) (w : World) : World :=
  { w with outputs := pre ++ w.outputs }

theorem following_empty : following #[] = id :=
  funext fun w => by simp [following]

variable {keep : Option Fault → Prop} (pre : Array Output)

/-- What is shown comes behind what was shown before. -/
theorem following_display (text : String) (w : World) :
    (w.following pre).display text = (w.display text).following pre := by
  simp only [following, display, asks, Array.append_push]

/-- More attempts change nothing about a roll that had a result. -/
theorem kept_roll {n n' : Nat} (hle : n ≤ n') (hnone : keep none → n' = n) (v : Value)
    (w : World) : (w.roll n v).Kept keep (following pre) ((w.following pre).roll n' v) := by
  unfold roll
  split
  · exact .failed _ w
  · next d _ =>
    by_cases hd : (d.faces ≤ 0 || d.count < 0) = true
    · simp only [Generator.roll, if_pos hd]
      exact .failed _ w
    · simp only [Generator.roll, if_neg hd]
      rcases h : Generator.rollFrom n d.faces.toInt.toNat d.count.toInt.toNat 0 w.generator with
        - | ⟨total, g⟩
      · intro hsettled
        rw [hnone hsettled]
        simp only [following, h]
        rfl
      · simp only [following, Generator.rollFrom_mono hle h]
        exact .done _ _

end World

/-- A function is found where it was if all functions are changed but keep their names. -/
theorem lookupFunction_map (g : Function → Function) (hg : ∀ f, (g f).name = f.name)
    (functions : List Function) (name : String) :
    lookupFunction (functions.map g) name = (lookupFunction functions name).map g := by
  rw [lookupFunction, lookupFunction, List.find?_map]
  congr 2
  funext f
  rw [Function.comp_apply, hg]

/-- The store, where `pre` was shown before. -/
def Store.following (pre : Array Output) (s : Store) : Store :=
  ⟨s.scope, s.world.following pre⟩

theorem Store.following_empty : Store.following #[] = id :=
  funext fun s => by simp [following, World.following]

/-! ## Rules that go further -/

namespace Rules

/-- The rules `r'` go at least as far as `r`: they know the functions of `r` and allow as many
calls. Where a fault is to be kept, they do not mend it. -/
structure Within (keep : Option Fault → Prop) (r r' : Rules) : Prop where
  functions : ∀ name f, lookupFunction r.functions name = some f →
    lookupFunction r'.functions name = some f
  undefined : ∀ name, keep (some (.undefined name)) → lookupFunction r.functions name = none →
    lookupFunction r'.functions name = none
  maxDepth : r.maxDepth ≤ r'.maxDepth
  tooDeep : keep (some .tooDeep) → r'.maxDepth ≤ r.maxDepth

theorem Within.refl (keep : Option Fault → Prop) (r : Rules) : r.Within keep r where
  functions := fun _ _ h => h
  undefined := fun _ _ h => h
  maxDepth := Nat.le_refl _
  tooDeep := fun _ => Nat.le_refl _

theorem Within.trans {keep : Option Fault → Prop} {r r' r'' : Rules} (h : r.Within keep r')
    (h' : r'.Within keep r'') : r.Within keep r'' where
  functions := fun name f hf => h'.functions name f (h.functions name f hf)
  undefined := fun name hkeep hf => h'.undefined name hkeep (h.undefined name hkeep hf)
  maxDepth := Nat.le_trans h.maxDepth h'.maxDepth
  tooDeep := fun hkeep => Nat.le_trans (h'.tooDeep hkeep) (h.tooDeep hkeep)

/-! ## The interpreter in terms of `bind`

What is written out by cases in the interpreter is brought to the form that the lemmas about
computations are for. -/

section Equations

variable (r : Rules) (n : Nat)

/-- The world in which a call goes on whose body has ended. -/
def leave (s : Store) : World :=
  { s.world with depth := s.world.depth - 1 }

/-- Carries out the body of a function whose parameters are bound. -/
def enter (f : Function) (callee : Scope) (w : World) : Outcome World Value :=
  (((block r n f.body ⟨callee, { w with depth := w.depth + 1 }⟩).mapState leave).mapError
    (·.leaving f.name)).bind fun signal w => .done signal.value w

/-- A call looks up its function, counts and binds its arguments and enters the body. -/
theorem call_succ (scope : Scope) (name : String) (args : List Expr) (w : World) :
    call r (n + 1) scope name args w =
      match lookupFunction r.functions name with
      | none => .failed (.ofFault (.undefined name)) w
      | some f =>
        if args.length ≠ f.parameters.length then
          .failed (.ofFault (wrongCount args.length f.parameters.length)) w
        else
          (bindArguments r n scope f.parameters args .empty w).bind fun callee w =>
            if r.maxDepth ≤ w.depth then .failed (.ofFault .tooDeep) w
            else enter r n f callee w := by
  rw [call]
  congr
  funext f
  congr
  funext callee w
  congr
  unfold enter
  cases block r n f.body ⟨callee, { w with depth := w.depth + 1 }⟩ <;> rfl

/-- Statements go on after one that asks for nothing. -/
theorem sequence_cons (first : Statement) (rest : List Statement) (s : Store) :
    sequence r (n + 1) (first :: rest) s =
      (statement r n first s).bind fun signal s =>
        match signal with
        | .next => sequence r n rest s
        | .returned v => .done (.returned v) s := by
  rw [sequence]
  rcases statement r n first s with ⟨- | v, s⟩ | ⟨e, s⟩ | - <;> rfl

/-- A loop tests its condition, carries out its body and starts over. -/
theorem loop_succ (c : Condition) (body : Block) (s : Store) :
    loop r (n + 1) c body s =
      ((test r n s.scope c s.world).mapState (⟨s.scope, ·⟩)).bind fun holds s =>
        if holds then
          (block r n body s).bind fun signal s =>
            match signal with
            | .next =>
              if s.world.interrupted then
                .failed (.ofFault .interrupted) { s with world.interrupted := false }
              else loop r n c body s
            | .returned v => .done (.returned v) s
        else .done .next s := by
  rw [loop]
  rcases test r n s.scope c s.world with ⟨- | -, w⟩ | ⟨e, w⟩ | -
  · rfl
  · simp only [Outcome.mapState, Outcome.bind_done]
    rcases block r n body ⟨s.scope, w⟩ with ⟨- | v, s⟩ | ⟨e, s⟩ | - <;> rfl
  · rfl
  · rfl

/-- Instructions go on after a statement, whatever it asks for. -/
theorem instructions_cons (first : Statement) (rest : List Statement) (s : Store) :
    instructions r n (first :: rest) s =
      (statement r n first s).bind fun _ s => instructions r n rest s := by
  rw [instructions]
  cases statement r n first s <;> rfl

end Equations

/-! ## Settled outcomes are kept -/

/-- Every computation under the rules `r` with `n` steps keeps its settled outcomes under the rules
`r'` with `n'` steps, where `pre` was shown before. -/
structure KeptAt (keep : Option Fault → Prop) (pre : Array Output) (r r' : Rules) (n n' : Nat) :
    Prop where
  eval : ∀ scope e w, (r.eval n scope e w).Kept keep (World.following pre)
    (r'.eval n' scope e (w.following pre))
  chain : ∀ scope acc rest ops w, (r.chain n scope acc rest ops w).Kept keep (World.following pre)
    (r'.chain n' scope acc rest ops (w.following pre))
  call : ∀ scope f args w, (r.call n scope f args w).Kept keep (World.following pre)
    (r'.call n' scope f args (w.following pre))
  bindArguments : ∀ scope ps args callee w,
    (r.bindArguments n scope ps args callee w).Kept keep (World.following pre)
      (r'.bindArguments n' scope ps args callee (w.following pre))
  test : ∀ scope c w, (r.test n scope c w).Kept keep (World.following pre)
    (r'.test n' scope c (w.following pre))
  block : ∀ b s, (r.block n b s).Kept keep (Store.following pre)
    (r'.block n' b (s.following pre))
  sequence : ∀ statements s, (r.sequence n statements s).Kept keep (Store.following pre)
    (r'.sequence n' statements (s.following pre))
  statement : ∀ st s, (r.statement n st s).Kept keep (Store.following pre)
    (r'.statement n' st (s.following pre))
  action : ∀ st s, (r.action n st s).Kept keep (Store.following pre)
    (r'.action n' st (s.following pre))
  loop : ∀ c body s, (r.loop n c body s).Kept keep (Store.following pre)
    (r'.loop n' c body (s.following pre))

section Step

variable {keep : Option Fault → Prop} {pre : Array Output} {r r' : Rules} {n n' : Nat}

/-- Without steps nothing is settled. -/
theorem keptAt_zero (hnone : keep none → n' = 0) : KeptAt keep pre r r' 0 n' := by
  constructor
  all_goals
    intros
    intro hsettled
    rw [hnone hsettled]
    rfl

/-- The value of an expression is kept. -/
theorem kept_eval (hle : n ≤ n') (hnone : keep none → n' = n) (ih : KeptAt keep pre r r' n n')
    (scope : Scope) (e : Expr) (w : World) :
    (r.eval (n + 1) scope e w).Kept keep (World.following pre)
      (r'.eval (n' + 1) scope e (w.following pre)) := by
  cases e with
  | number v =>
    simp only [eval]
    exact .done _ w
  | text s =>
    simp only [eval]
    exact .done _ w
  | dice d =>
    simp only [eval]
    exact .done _ w
  | var x =>
    simp only [eval]
    exact .ofExcept w _
  | call f args =>
    simp only [eval]
    exact ih.call scope f args w
  | roll operand =>
    simp only [eval]
    -- with more steps there are more attempts, and one that was successful still is
    exact (ih.eval scope operand w).bind fun v w => World.kept_roll pre hle hnone v w
  | chain operands operators =>
    rcases operands with - | ⟨first, rest⟩
    · simp only [eval]
      exact .done _ w
    · simp only [eval]
      refine (ih.eval scope first w).bind fun acc w => ?_
      rcases operators with - | ⟨op, ops⟩
      · exact .done _ w
      · by_cases hacc : acc.isNumeric = true
        · simp only [if_pos hacc]
          exact ih.chain scope acc rest (op :: ops) w
        · simp only [if_neg hacc]
          exact .failed _ w
  | hole =>
    simp only [eval]
    exact .failed _ w
  | «foreign» label =>
    simp only [eval]
    exact .failed _ w

/-- The value of a chain is kept. -/
theorem kept_chain (ih : KeptAt keep pre r r' n n') (scope : Scope) (acc : Value)
    (operands : List Expr) (operators : List ArithOp) (w : World) :
    (r.chain (n + 1) scope acc operands operators w).Kept keep (World.following pre)
      (r'.chain (n' + 1) scope acc operands operators (w.following pre)) := by
  rcases operands with - | ⟨operand, rest⟩
  · simp only [chain]
    exact .done _ w
  rcases operators with - | ⟨op, ops⟩
  · simp only [chain]
    exact .done _ w
  · simp only [chain]
    refine (ih.eval scope operand w).bind fun v w => ?_
    rcases op.apply acc v with f | acc
    · exact .failed _ w
    · exact ih.chain scope acc rest ops w

/-- The arguments of a call are kept. -/
theorem kept_bindArguments (ih : KeptAt keep pre r r' n n') (scope : Scope)
    (parameters : List String) (args : List Expr) (callee : Scope) (w : World) :
    (r.bindArguments (n + 1) scope parameters args callee w).Kept keep (World.following pre)
      (r'.bindArguments (n' + 1) scope parameters args callee (w.following pre)) := by
  rcases parameters with - | ⟨p, ps⟩
  · simp only [bindArguments]
    exact .done _ w
  rcases args with - | ⟨arg, args⟩
  · simp only [bindArguments]
    exact .done _ w
  · simp only [bindArguments]
    refine (ih.eval scope arg w).bind fun v w => ?_
    rcases callee.introduce p v with f | callee
    · exact .failed _ w
    · exact ih.bindArguments scope ps args callee w

/-- What comes of a body is kept. -/
theorem kept_enter (ih : KeptAt keep pre r r' n n') (f : Function) (callee : Scope) (w : World) :
    (r.enter n f callee w).Kept keep (World.following pre)
      (r'.enter n' f callee (w.following pre)) := by
  unfold enter
  refine Outcome.Kept.bind ?_ fun signal w => .done _ w
  refine Outcome.Kept.mapError ?_ fun e => rfl
  exact (ih.block f.body ⟨callee, { w with depth := w.depth + 1 }⟩).mapState fun s => rfl

/-- A call is kept, as the other rules have its function and allow as many calls. -/
theorem kept_call (h : r.Within keep r') (ih : KeptAt keep pre r r' n n') (scope : Scope)
    (name : String) (args : List Expr) (w : World) :
    (r.call (n + 1) scope name args w).Kept keep (World.following pre)
      (r'.call (n' + 1) scope name args (w.following pre)) := by
  rw [call_succ, call_succ]
  rcases hf : lookupFunction r.functions name with - | f
  · -- the name is not defined, and is not by then if that is to be kept
    intro hsettled
    rw [h.undefined name hsettled hf]
    rfl
  rw [h.functions name f hf]
  by_cases hcount : args.length ≠ f.parameters.length
  · simp only [if_pos hcount]
    exact .failed _ w
  simp only [if_neg hcount]
  refine (ih.bindArguments scope f.parameters args .empty w).bind fun callee w => ?_
  by_cases hdepth : r.maxDepth ≤ w.depth
  · rw [if_pos hdepth]
    intro hsettled
    -- where the limit counts at all, it is the same, so it is reached in both runs
    have hdepth' : r'.maxDepth ≤ (w.following pre).depth := Nat.le_trans (h.tooDeep hsettled) hdepth
    rw [if_pos hdepth']
    rfl
  · have hdepth' : ¬r'.maxDepth ≤ (w.following pre).depth := fun hle =>
      hdepth (Nat.le_trans h.maxDepth hle)
    rw [if_neg hdepth, if_neg hdepth']
    exact kept_enter ih f callee w

/-- Whether a condition holds is kept. -/
theorem kept_test (ih : KeptAt keep pre r r' n n') (scope : Scope) (c : Condition) (w : World) :
    (r.test (n + 1) scope c w).Kept keep (World.following pre)
      (r'.test (n' + 1) scope c (w.following pre)) := by
  simp only [test]
  refine (ih.eval scope c.left w).bind fun a w => ?_
  exact (ih.eval scope c.right w).bind fun b w => .ofExcept w _

/-- What comes of a block is kept. -/
theorem kept_block (ih : KeptAt keep pre r r' n n') (b : Block) (s : Store) :
    (r.block (n + 1) b s).Kept keep (Store.following pre)
      (r'.block (n' + 1) b (s.following pre)) := by
  rcases b with - | statements
  · simp only [block]
    exact .done _ s
  · simp only [block]
    exact ih.sequence statements s

/-- What comes of statements in a row is kept. -/
theorem kept_sequence (ih : KeptAt keep pre r r' n n') (statements : List Statement) (s : Store) :
    (r.sequence (n + 1) statements s).Kept keep (Store.following pre)
      (r'.sequence (n' + 1) statements (s.following pre)) := by
  rcases statements with - | ⟨first, rest⟩
  · simp only [sequence]
    exact .done _ s
  · rw [sequence_cons, sequence_cons]
    refine (ih.statement first s).bind fun signal s => ?_
    cases signal with
    | next => exact ih.sequence rest s
    | returned v => exact .done _ s

/-- What comes of a statement is kept, also where there is a request to stop. -/
theorem kept_statement (ih : KeptAt keep pre r r' n n') (st : Statement) (s : Store) :
    (r.statement (n + 1) st s).Kept keep (Store.following pre)
      (r'.statement (n' + 1) st (s.following pre)) := by
  simp only [statement]
  by_cases hstop : s.world.interrupted = true
  · have hstop' : (s.following pre).world.interrupted = true := hstop
    rw [if_pos hstop, if_pos hstop']
    exact .failed _ _
  · have hstop' : ¬(s.following pre).world.interrupted = true := hstop
    rw [if_neg hstop, if_neg hstop']
    exact (ih.action st s).mapError fun e => e.fault_onLine st.line

/-- What a statement does after an expression, a condition or a call. -/
theorem Kept.thenStore {α : Type} {o o' : Outcome World α} {scope : Scope}
    {f f' : α → Store → Outcome Store Signal}
    (h : o.Kept keep (World.following pre) o')
    (hf : ∀ a s, (f a s).Kept keep (Store.following pre) (f' a (s.following pre))) :
    ((o.mapState (⟨scope, ·⟩)).bind f).Kept keep (Store.following pre)
      ((o'.mapState (⟨scope, ·⟩)).bind f') := by
  have hstore : (o.mapState (Store.mk scope)).Kept keep (Store.following pre)
      (o'.mapState (Store.mk scope)) := h.mapState fun _ => rfl
  exact hstore.bind hf

/-- What comes of what a statement says is kept. -/
theorem kept_action (ih : KeptAt keep pre r r' n n') (st : Statement) (s : Store) :
    (r.action (n + 1) st s).Kept keep (Store.following pre)
      (r'.action (n' + 1) st (s.following pre)) := by
  cases st with
  | declare line type x =>
    simp only [action, Store.following]
    rcases s.scope.declare x with f | scope
    · exact .failed _ s
    · exact .done _ _
  | assign line x e =>
    simp only [action]
    refine Kept.thenStore (ih.eval s.scope e s.world) fun v s => ?_
    simp only [Store.following]
    rcases s.scope.assign x v with f | scope
    · exact .failed _ s
    · exact .done _ _
  | attack line attacker defender =>
    simp only [action]
    exact .done _ s
  | loop line c body =>
    simp only [action]
    exact ih.loop c body s
  | branch line c body alternative =>
    simp only [action]
    refine Kept.thenStore (ih.test s.scope c s.world) fun holds s => ?_
    cases holds with
    | true => exact ih.block body s
    | false => exact ih.block alternative s
  | log line e =>
    simp only [action]
    refine Kept.thenStore (ih.eval s.scope e s.world) fun v s => ?_
    -- what is shown is put behind all outputs, those before the run as well
    simp only [Store.following, World.following_display pre]
    exact .done _ _
  | give line e =>
    simp only [action]
    exact Kept.thenStore (ih.eval s.scope e s.world) fun v s => .done _ s
  | call line f args =>
    simp only [action]
    exact Kept.thenStore (ih.call s.scope f args s.world) fun _ s => .done _ s
  | «foreign» line label =>
    simp only [action]
    exact .failed _ s

/-- What comes of a loop is kept. -/
theorem kept_loop (ih : KeptAt keep pre r r' n n') (c : Condition) (body : Block) (s : Store) :
    (r.loop (n + 1) c body s).Kept keep (Store.following pre)
      (r'.loop (n' + 1) c body (s.following pre)) := by
  rw [loop_succ, loop_succ]
  refine Kept.thenStore (ih.test s.scope c s.world) fun holds s => ?_
  cases holds with
  | false => exact .done _ s
  | true =>
    refine (ih.block body s).bind fun signal s => ?_
    cases signal with
    | returned v => exact .done _ s
    | next =>
      by_cases hstop : s.world.interrupted = true
      · have hstop' : (s.following pre).world.interrupted = true := hstop
        simp only [if_pos hstop, if_pos hstop']
        exact .failed _ _
      · have hstop' : ¬(s.following pre).world.interrupted = true := hstop
        simp only [if_neg hstop, if_neg hstop']
        exact ih.loop c body s

/-- With a step more on both sides, everything is kept. -/
theorem keptAt_succ (h : r.Within keep r') (hle : n ≤ n') (hnone : keep none → n' = n)
    (ih : KeptAt keep pre r r' n n') : KeptAt keep pre r r' (n + 1) (n' + 1) where
  eval := kept_eval hle hnone ih
  chain := kept_chain ih
  call := kept_call h ih
  bindArguments := kept_bindArguments ih
  test := kept_test ih
  block := kept_block ih
  sequence := kept_sequence ih
  statement := kept_statement ih
  action := kept_action ih
  loop := kept_loop ih

/-- **Settled outcomes are kept** under rules that go further, with as many steps or more, whatever
was shown before. If running out of steps is to be kept as well, the steps have to be as many. -/
theorem keptAt (h : r.Within keep r') (hle : n ≤ n') (hnone : keep none → n' = n) :
    KeptAt keep pre r r' n n' := by
  induction n generalizing n' with
  | zero => exact keptAt_zero hnone
  | succ n ih =>
    obtain ⟨n', rfl⟩ : ∃ k, n' = k + 1 := ⟨n' - 1, by omega⟩
    have hle' : n ≤ n' := by omega
    have hnone' : keep none → n' = n := fun hkeep => by simpa using hnone hkeep
    exact keptAt_succ h hle' hnone' (ih hle' hnone')

/-- Settled outcomes of instructions are kept. -/
theorem kept_instructions (h : r.Within keep r') (hle : n ≤ n') (hnone : keep none → n' = n)
    (pre : Array Output) (statements : List Statement) (s : Store) :
    (r.instructions n statements s).Kept keep (Store.following pre)
      (r'.instructions n' statements (s.following pre)) := by
  induction statements generalizing s with
  | nil => exact .done () s
  | cons first rest ih =>
    rw [instructions_cons, instructions_cons]
    exact ((keptAt h hle hnone).statement first s).bind fun _ s => ih s

end Step

end Rules

/-! ## Machines -/

namespace Machine

/-- The variables of a machine and its world: what it has shown, its generator and whether it has
been asked to stop. -/
def state (m : Machine) : Store :=
  ⟨m.scope, m.world⟩

/-- Instructions at the top level change nothing about a machine but its state. -/
theorem state_perform (m : Machine) (steps : Nat) (statements : List Statement) :
    (m.perform steps statements).mapState state =
      m.rules.instructions steps statements m.state := by
  rw [perform, Outcome.mapState_mapState, state]
  cases m.rules.instructions steps statements ⟨m.scope, m.world⟩ <;> rfl

end Machine

end Adventure
