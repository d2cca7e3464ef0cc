import Adventure.Proofs.Alike

/-!
# Loops and their unrollings

A loop does the same as a branch on its condition that carries out the body and then the loop. The
two are not carried out in the same way. The loop looks by itself whether the program has been asked
to stop, after each pass, and leaves the line of the error to the statement that it is. In the
branch the loop is a statement of a block, which looks for the request when it is reached and has a
line of its own. That it comes to the same is `Rules.loop_alike_unrolled`.
-/

namespace Adventure

open Outcome (Alike)

/-- Going on with `f` and then having another error is having the other error all along. -/
theorem Outcome.mapError_bind {σ α β : Type} (φ : RuntimeError → RuntimeError) (o : Outcome σ α)
    (f : α → σ → Outcome σ β) :
    (o.bind f).mapError φ = (o.mapError φ).bind fun a s => (f a s).mapError φ := by
  cases o <;> rfl

/-- An error that has got a line keeps it. -/
theorem RuntimeError.onLine_onLine (e : RuntimeError) (line : Int) :
    (e.onLine line).onLine line = e.onLine line := by
  unfold onLine
  by_cases h : e.line = 0
  · simp only [if_pos h]
    split <;> rfl
  · simp only [if_neg h]

theorem Outcome.mapError_onLine_onLine {σ α : Type} (line : Int) (o : Outcome σ α) :
    (o.mapError (·.onLine line)).mapError (·.onLine line) = o.mapError (·.onLine line) := by
  cases o with
  | failed e s => simp only [mapError, RuntimeError.onLine_onLine]
  | done | unfinished => rfl

/-- The statements of the block, and then one more. -/
def Block.followedBy (b : Block) (st : Statement) : Block :=
  some (b.getD [] ++ [st])

namespace Signal

/-- Goes on with `k`, unless it is asked to leave the function. -/
def proceed (k : Store → Outcome Store Signal) : Signal → Store → Outcome Store Signal
  | next, s => k s
  | returned v, s => .done (.returned v) s

theorem bind_proceed_done (o : Outcome Store Signal) :
    o.bind (proceed fun s => .done .next s) = o := by
  rcases o with ⟨- | v, s⟩ | ⟨e, s⟩ | - <;> rfl

theorem bind_proceed_assoc (o : Outcome Store Signal) (k k' : Store → Outcome Store Signal) :
    (o.bind (proceed k)).bind (proceed k') = o.bind (proceed fun s => (k s).bind (proceed k')) := by
  rcases o with ⟨- | v, s⟩ | ⟨e, s⟩ | - <;> rfl

theorem mapError_bind_proceed (φ : RuntimeError → RuntimeError) (o : Outcome Store Signal)
    (k : Store → Outcome Store Signal) :
    (o.bind (proceed k)).mapError φ = (o.mapError φ).bind (proceed fun s => (k s).mapError φ) := by
  rcases o with ⟨- | v, s⟩ | ⟨e, s⟩ | - <;> rfl

/-- What goes on alike behind what is alike is alike. -/
theorem alike_proceed {f f' : Nat → Outcome Store Signal}
    {k k' : Store → Nat → Outcome Store Signal} (h : Alike f f') (hk : ∀ s, Alike (k s) (k' s)) :
    Alike (fun n => (f n).bind (proceed fun s => k s n))
      fun n => (f' n).bind (proceed fun s => k' s n) :=
  h.bind fun signal s => by
    cases signal with
    | next => exact hk s
    | returned v => exact .const _

end Signal

open Signal (proceed)

namespace Rules

variable (r : Rules)

/-! ## Statements one after the other -/

theorem sequence_cons_eq (n : Nat) (first : Statement) (rest : List Statement) (s : Store) :
    r.sequence (n + 1) (first :: rest) s =
      (r.statement n first s).bind (proceed (r.sequence n rest)) := by
  rw [sequence_cons]
  congr
  funext signal s
  cases signal <;> rfl

theorem alike_sequence_nil (s : Store) :
    Alike (fun n => r.sequence n [] s) fun _ => .done .next s :=
  .of_succ (by rw [sequence]) (by simpa only [sequence] using .const _)

/-- The first statements, and then the others unless they have returned. -/
theorem alike_sequence_append (statements more : List Statement) (s : Store) :
    Alike (fun n => r.sequence n (statements ++ more) s)
      fun n => (r.sequence n statements s).bind (proceed (r.sequence n more)) := by
  induction statements generalizing s with
  | nil =>
    have hnil := Signal.alike_proceed (r.alike_sequence_nil s) (r.selfAlike.sequence more)
    exact hnil.symm
  | cons first rest ih =>
    -- with a step more, both carry out the first statement and then what is alike by induction
    refine .of_succ (by rw [List.cons_append, sequence])
      (.symm (.of_succ (by rw [sequence]; rfl) ?_))
    simp only [List.cons_append, sequence_cons_eq, Signal.bind_proceed_assoc]
    refine Signal.alike_proceed (r.selfAlike.statement first s) fun s => .symm ((ih s).trans ?_)
    refine Signal.alike_proceed (r.selfAlike.sequence rest s) fun s => ?_
    exact (r.selfAlike.sequence more s).succ.symm

/-- A statement alone is as good as a sequence of it. -/
theorem alike_sequence_singleton (st : Statement) (s : Store) :
    Alike (fun n => r.sequence n [st] s) fun n => r.statement n st s := by
  refine .of_succ (by rw [sequence]) ?_
  simp only [sequence_cons_eq]
  have hlast := Signal.alike_proceed (r.selfAlike.statement st s) r.alike_sequence_nil
  simpa only [Signal.bind_proceed_done] using hlast

/-- A block that is not there does as little as an empty one. -/
theorem alike_block (b : Block) (s : Store) :
    Alike (fun n => r.block n b s) fun n => r.sequence n (b.getD []) s := by
  refine .of_succ (by rw [block]) ?_
  cases b with
  | none => simpa only [block, Option.getD_none] using (r.alike_sequence_nil s).symm
  | some statements =>
    simpa only [block, Option.getD_some] using r.selfAlike.sequence statements s

theorem alike_block_followedBy (b : Block) (st : Statement) (s : Store) :
    Alike (fun n => r.block n (b.followedBy st) s)
      fun n => (r.block n b s).bind (proceed (r.statement n st)) := by
  have happend := r.alike_sequence_append (b.getD []) [st] s
  have hparts := Signal.alike_proceed (r.alike_block b s).symm (r.alike_sequence_singleton st)
  exact (r.alike_block (b.followedBy st) s).trans (happend.trans hparts)

/-! ## Loops -/

/-- Goes on with `k`, unless the program has been asked to stop. -/
def heeding (k : Store → Outcome Store Signal) (s : Store) : Outcome Store Signal :=
  if s.world.interrupted then .failed (.ofFault .interrupted) { s with world.interrupted := false }
  else k s

theorem statement_succ (n : Nat) (st : Statement) (s : Store) :
    r.statement (n + 1) st s = (heeding (r.action n st) s).mapError (·.onLine st.line) := by
  rw [statement, heeding]
  split <;> rfl

theorem loop_succ_eq (n : Nat) (c : Condition) (body : Block) (s : Store) :
    r.loop (n + 1) c body s =
      ((r.test n s.scope c s.world).mapState (⟨s.scope, ·⟩)).bind fun holds s =>
        if holds then (r.block n body s).bind (proceed (heeding (r.loop n c body)))
        else .done .next s := by
  rw [loop_succ]
  congr
  funext holds s
  congr
  funext signal s
  cases signal <;> rfl

theorem alike_heeding (φ : RuntimeError → RuntimeError) {k k' : Store → Nat → Outcome Store Signal}
    (h : ∀ s, Alike (fun n => (k s n).mapError φ) fun n => (k' s n).mapError φ) (s : Store) :
    Alike (fun n => (heeding (fun s => k s n) s).mapError φ)
      fun n => (heeding (fun s => k' s n) s).mapError φ := by
  unfold heeding
  split
  · exact .const _
  · exact h s

/-- A loop that is reached as a statement. -/
theorem alike_statement_loop (line : Int) (c : Condition) (body : Block) (s : Store) :
    Alike (fun n => r.statement n (.loop line c body) s)
      fun n => (heeding (r.loop n c body) s).mapError (·.onLine line) := by
  refine .of_succ (by rw [statement]) ?_
  simp only [statement_succ, Statement.line]
  refine alike_heeding _ (fun s => .mapError _ (.of_succ (by rw [action]) ?_)) s
  simpa only [action] using r.selfAlike.loop c body s

/-- What follows a pass that has not returned: the loop goes on by itself, or it is the next
statement of a block. -/
theorem alike_next_pass (line : Int) (c : Condition) (body : Block) (s : Store) :
    Alike (fun n => (heeding (r.loop n c body) s).mapError (·.onLine line))
      fun n => (r.statement n (.loop line c body) s).mapError (·.onLine line) := by
  have hstatement := (r.alike_statement_loop line c body s).mapError (·.onLine line)
  simp only [Outcome.mapError_onLine_onLine] at hstatement
  exact hstatement.symm

/-- A pass and what follows it. -/
theorem alike_pass (line : Int) (c : Condition) (body : Block) (s : Store) :
    Alike
      (fun n => ((r.block n body s).bind (proceed (heeding (r.loop n c body)))).mapError
        (·.onLine line))
      fun n => (r.block n (body.followedBy (.loop line c body)) s).mapError (·.onLine line) := by
  have hblock := (r.alike_block body s).trans (r.alike_block body s).symm
  have hpass :=
    Signal.alike_proceed (hblock.mapError (·.onLine line)) (r.alike_next_pass line c body)
  simp only [← Signal.mapError_bind_proceed] at hpass
  exact hpass.trans ((r.alike_block_followedBy body _ s).symm.mapError _)

/-- The condition is tested, and then there is a pass or not. -/
theorem alike_loop_branch (line : Int) (c : Condition) (body : Block) (s : Store) :
    Alike (fun n => (r.loop n c body s).mapError (·.onLine line))
      fun n => (r.action n (.branch line c (body.followedBy (.loop line c body)) none) s).mapError
        (·.onLine line) := by
  refine .of_succ (by rw [loop]; rfl) (.symm (.of_succ (by rw [action]; rfl) (.symm ?_)))
  simp only [loop_succ_eq, action, Outcome.mapError_bind]
  refine .bind (((r.selfAlike.test s.scope c s.world).mapState _).mapError _) fun holds s => ?_
  cases holds with
  | true => simpa only [if_true] using r.alike_pass line c body s
  | false =>
    have hnone := (r.alike_block none s).trans (r.alike_sequence_nil s)
    exact hnone.symm.mapError _

/-- **A loop is its unrolling.** Under any rules and in any state, a loop and a branch on the same
line and with the same condition, whose block is the body and then the loop, come to the same: the
one ends if the other does, and then both go on or return with the same value, or fail with the same
error on the same line and with the same trace, and they leave the same variables, outputs,
generator, request to stop and depth. -/
theorem loop_alike_unrolled (line : Int) (c : Condition) (body : Block) (s : Store) :
    Alike (fun n => r.statement n (.loop line c body) s)
      fun n => r.statement n (.branch line c (body.followedBy (.loop line c body)) none) s := by
  refine (r.alike_statement_loop line c body s).trans (.symm (.of_succ (by rw [statement]) ?_))
  simp only [statement_succ, Statement.line]
  exact (alike_heeding _ (r.alike_loop_branch line c body) s).symm

end Rules

end Adventure
