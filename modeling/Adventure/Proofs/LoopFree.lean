import Adventure.Proofs.Ending
import Adventure.Proofs.Loading

/-!
# Programs without loops end

Calls may recur without bound, and the same body may be carried out again and again, but the calls
in progress are limited. So the limit less the depth goes down with every body that is entered, and
inside of a body the statements and expressions get smaller. Nothing else can go on for ever, if
there is no loop in what is carried out (`Machine.ends_of_loopFree`).

Functions that cannot be called may have loops. Which ones can be called is told by the names in the
statements (`Callable`).
-/

namespace Adventure

open Outcome (Ends)

/-! ## What has no loops -/

/-- Whether the statement is a loop. -/
def Statement.isLoop : Statement → Bool
  | .loop .. => true
  | .declare .. | .assign .. | .attack .. | .branch .. | .log .. | .give .. | .call ..
  | .foreign .. => false

/-- The names of the functions that can be called where the statements are carried out: those that
are called in them, and those that are called in functions that can be called. -/
inductive Callable (functions : List Function) (statements : List Statement) : String → Prop where
  | named {st : Statement} {name : String} (hst : st ∈ Statement.allStatements statements)
      (hname : name ∈ st.calls) : Callable functions statements name
  | through {name name' : String} {f : Function} {st : Statement}
      (h : Callable functions statements name) (hf : lookupFunction functions name = some f)
      (hst : st ∈ Statement.blockStatements f.body) (hname : name' ∈ st.calls) :
      Callable functions statements name'

/-- There is no loop among the statements, nor in a function that can be called. -/
structure LoopFree (functions : List Function) (statements : List Statement) : Prop where
  here : ∀ st ∈ Statement.allStatements statements, st.isLoop = false
  called : ∀ name f, Callable functions statements name →
    lookupFunction functions name = some f →
      ∀ st ∈ Statement.blockStatements f.body, st.isLoop = false

/-- The statement is no loop, and what it calls is `fine`. -/
def Statement.Plain (fine : String → Prop) (st : Statement) : Prop :=
  st.isLoop = false ∧ ∀ name ∈ st.calls, fine name

namespace Rules

variable {r : Rules} {fine : String → Prop} {d : Nat}

/-! ## Statements -/

theorem ends_statement_of_action {st : Statement} {s : Store}
    (h : Ends (fun _ s => s.world.depth = d) fun n => r.action n st s) :
    Ends (fun _ s => s.world.depth = d) fun n => r.statement n st s := by
  apply Ends.of_succ
  simp only [statement]
  by_cases hstop : s.world.interrupted = true
  · simp only [if_pos hstop]
    exact .failed _ _
  · simp only [if_neg hstop]
    exact h.mapError _

mutual

/-- A statement without loops ends if calls do. -/
theorem ends_action (h : r.CallsEnd (fun w => w.depth = d) fine) : ∀ (st : Statement),
    st.Plain fine → (∀ st' ∈ st.nested, st'.Plain fine) → ∀ s : Store, s.world.depth = d →
      Ends (fun _ s => s.world.depth = d) fun n => r.action n st s
  | .declare line type x, _, _, s, hs => by
    apply Ends.of_succ
    simp only [action]
    rcases s.scope.declare x with f | scope
    · exact .failed _ s
    · exact .done hs
  | .assign line x e, hst, _, s, hs => by
    apply Ends.of_succ
    simp only [action]
    refine ends_thenStore (ends_eval h e hst.2 s.scope s.world hs) fun v s hs => ?_
    rcases s.scope.assign x v with f | scope
    · exact .failed _ s
    · exact .done hs
  | .attack line attacker defender, _, _, s, hs => by
    apply Ends.of_succ
    simp only [action]
    exact .done hs
  -- a plain statement is no loop
  | .loop line c body, hst, _, s, hs => absurd hst.1 Bool.noConfusion
  | .branch line c body alternative, hst, hnested, s, hs => by
    rw [Statement.nested, List.forall_mem_append] at hnested
    apply Ends.of_succ
    simp only [action]
    refine ends_thenStore (ends_test h c hst.2 s.scope s.world hs) fun holds s hs => ?_
    cases holds with
    | true => exact ends_block h body hnested.1 s hs
    | false => exact ends_block h alternative hnested.2 s hs
  | .log line e, hst, _, s, hs => by
    apply Ends.of_succ
    simp only [action]
    exact ends_thenStore (ends_eval h e hst.2 s.scope s.world hs) fun v s hs => .done hs
  | .give line e, hst, _, s, hs => by
    apply Ends.of_succ
    simp only [action]
    exact ends_thenStore (ends_eval h e hst.2 s.scope s.world hs) fun v s hs => .done hs
  | .call line f args, hst, _, s, hs => by
    have hcalls := List.forall_mem_cons.mp hst.2
    apply Ends.of_succ
    simp only [action]
    exact ends_thenStore (ends_call h hcalls.1 hcalls.2 s.scope s.world hs) fun v s hs => .done hs
  | .foreign line label, _, _, s, hs => by
    apply Ends.of_succ
    simp only [action]
    exact .failed _ s

/-- A block without loops ends if calls do. -/
theorem ends_block (h : r.CallsEnd (fun w => w.depth = d) fine) : ∀ (b : Option (List Statement)),
    (∀ st ∈ Statement.blockStatements b, st.Plain fine) → ∀ s : Store, s.world.depth = d →
      Ends (fun _ s => s.world.depth = d) fun n => r.block n b s
  | none, _, s, hs => by
    apply Ends.of_succ
    simp only [block]
    exact .done hs
  | some statements, hb, s, hs => by
    rw [Statement.blockStatements] at hb
    apply Ends.of_succ
    simp only [block]
    exact ends_sequence h statements hb s hs

/-- Statements without loops end if calls do. -/
theorem ends_sequence (h : r.CallsEnd (fun w => w.depth = d) fine) :
    ∀ (statements : List Statement),
      (∀ st ∈ Statement.allStatements statements, st.Plain fine) → ∀ s : Store,
        s.world.depth = d → Ends (fun _ s => s.world.depth = d) fun n => r.sequence n statements s
  | [], _, s, hs => by
    apply Ends.of_succ
    simp only [sequence]
    exact .done hs
  | first :: rest, hstatements, s, hs => by
    rw [Statement.allStatements, List.forall_mem_cons, List.forall_mem_append] at hstatements
    obtain ⟨hfirst, hnested, hrest⟩ := hstatements
    apply Ends.of_succ
    simp only [sequence_cons]
    refine (ends_statement_of_action (ends_action h first hfirst hnested s hs)).bind
      fun signal s hs => ?_
    cases signal with
    | next => exact ends_sequence h rest hrest s hs
    | returned v => exact .done hs

end

/-! ## Calls -/

/-- **Calls of functions without loops end**, at whatever depth. The induction is on the calls that
may still be added. -/
theorem callsEnd_of_plain (hfine : ∀ name f, fine name → lookupFunction r.functions name = some f →
      ∀ st ∈ Statement.blockStatements f.body, st.Plain fine) (left : Nat)
    (hd : r.maxDepth ≤ d + left) : r.CallsEnd (fun w => w.depth = d) fine where
  roll := fun _ _ hw => hw
  enter := by
    intro name f hname hf callee w hw hdepth
    induction left generalizing d name f callee w with
    | zero => omega
    | succ left ih =>
      have hdeeper : r.CallsEnd (fun w => w.depth = d + 1) fine :=
        { roll := fun _ _ hw => hw
          enter := fun name f hname hf callee w hw hdepth =>
            ih (by omega) name f hname hf callee w hw hdepth }
      refine ends_enter ((ends_block hdeeper f.body (hfine name f hname hf)
        ⟨callee, { w with depth := w.depth + 1 }⟩ (congrArg (· + 1) hw)).mono fun _ s hs => ?_)
      simp only [leave, hs, Nat.add_sub_cancel]

/-- Instructions without loops end if calls do. -/
theorem ends_instructions (h : r.CallsEnd (fun w => w.depth = d) fine)
    (statements : List Statement)
    (hstatements : ∀ st ∈ Statement.allStatements statements, st.Plain fine) (s : Store)
    (hs : s.world.depth = d) : Ends (fun _ _ => True) fun n => r.instructions n statements s := by
  induction statements generalizing s with
  | nil => exact .done trivial
  | cons first rest ih =>
    rw [Statement.allStatements, List.forall_mem_cons, List.forall_mem_append] at hstatements
    obtain ⟨hfirst, hnested, hrest⟩ := hstatements
    simp only [instructions_cons]
    exact (ends_statement_of_action (ends_action h first hfirst hnested s hs)).bind
      fun _ s hs => ih hrest s hs

end Rules

/-! ## Machines -/

namespace LoopFree

variable {functions : List Function} {statements : List Statement}

theorem plain_statements (h : LoopFree functions statements) :
    ∀ st ∈ Statement.allStatements statements, st.Plain (Callable functions statements) :=
  fun st hst => ⟨h.here st hst, fun _ hname => .named hst hname⟩

theorem plain_functions (h : LoopFree functions statements) (name : String) (f : Function)
    (hname : Callable functions statements name) (hf : lookupFunction functions name = some f) :
    ∀ st ∈ Statement.blockStatements f.body, st.Plain (Callable functions statements) :=
  fun st hst => ⟨h.called name f hname hf st hst, fun _ hname' => .through hname hf hst hname'⟩

end LoopFree

namespace Machine

theorem ends_perform {m : Machine} {statements : List Statement}
    (h : LoopFree m.functions statements) :
    Ends (fun _ _ => True) fun steps => m.perform steps statements := by
  have hcalls : m.rules.CallsEnd (fun w => w.depth = m.world.depth)
      (Callable m.functions statements) :=
    Rules.callsEnd_of_plain h.plain_functions m.maxDepth (Nat.le_add_left _ _)
  exact (Rules.ends_instructions hcalls statements h.plain_statements ⟨m.scope, m.world⟩
    rfl).mapState fun _ _ _ => trivial

/-- **Without loops everything ends.** A machine whose instructions have no loop, nor any function
that can be called from them, comes to an end when it is run, with success or with an error,
whatever its limit, its generator, its listener and its state are. So it does with a program that it
is handed. Functions may call themselves and each other without bound. -/
theorem ends_of_loopFree (m : Machine) :
    (LoopFree m.functions m.instructions → Ends (fun _ _ => True) fun steps => m.run steps) ∧
    ∀ p, LoopFree (m.functions ++ p.functions) p.instructions →
      Ends (fun _ _ => True) fun steps => m.evaluate steps p := by
  refine ⟨fun h => ?_, fun p h => ?_⟩
  · have hquiet : LoopFree m.quiet.functions m.instructions := h
    exact ends_perform hquiet
  · unfold evaluate
    rcases hload : m.quiet.load p with e | m'
    · exact .failed e m.quiet
    · obtain ⟨-, rfl⟩ := (load_eq_ok_iff _ _ _).mp hload
      exact ends_perform h

/-- Two functions that call each other and themselves without end, and one with an endless loop that
they do not call. -/
def echoes : Program :=
  ⟨[], [⟨1, "ping", ["x"], some [.call 2 "pong" [.call "ping" [.var "x"]], .log 3 (.var "x")]⟩,
    ⟨5, "pong", ["x"], some [.branch 6 ⟨.roll (.var "x"), .less, .number 7⟩
      (some [.give 7 (.call "ping" [.var "x"])]) none]⟩,
    ⟨10, "spin", [], some [.loop 11 ⟨.number 1, .equal, .number 1⟩ (some [])]⟩],
    [.call 14 "pong" [.dice ⟨2, 6⟩]]⟩

theorem callable_echoes {name : String} (h : Callable echoes.functions echoes.instructions name) :
    name = "ping" ∨ name = "pong" := by
  induction h with
  | named hst hname =>
    simp [echoes, Statement.allStatements, Statement.nested] at hst
    subst hst
    simp [Statement.calls, Expr.allCalls, Expr.calls] at hname
    exact .inr hname
  | through _ hf hst hname ih =>
    rcases ih with rfl | rfl
    · obtain rfl := Option.some.inj hf
      simp [Statement.blockStatements, Statement.allStatements, Statement.nested] at hst
      rcases hst with rfl | rfl <;>
        simp [Statement.calls, Expr.allCalls, Expr.calls] at hname
      exact hname.symm
    · obtain rfl := Option.some.inj hf
      simp [Statement.blockStatements, Statement.allStatements, Statement.nested] at hst
      rcases hst with rfl | rfl <;>
        simp [Statement.calls, Condition.calls, Expr.allCalls, Expr.calls] at hname
      exact .inl hname

/-- They come to an end all the same, with a thousand calls in progress at most. -/
theorem echoes_ends :
    LoopFree echoes.functions echoes.instructions ∧
      (∃ m, ofProgram echoes ⟨#[], 0, 0⟩ = .ok m ∧ m.maxDepth = 1000 ∧
        ∃ steps, m.run steps ≠ .unfinished) ∧
      ∃ steps, (blank [] ⟨#[], 0, 0⟩).evaluate steps echoes ≠ .unfinished := by
  have hfree : LoopFree echoes.functions echoes.instructions := by
    refine ⟨by simp [echoes, Statement.allStatements, Statement.nested, Statement.isLoop], ?_⟩
    intro name f hname hf
    rcases callable_echoes hname with rfl | rfl <;>
      obtain rfl := Option.some.inj hf <;>
      simp [Statement.blockStatements, Statement.allStatements, Statement.nested, Statement.isLoop]
  have hstart : ofProgram echoes ⟨#[], 0, 0⟩ =
      .ok ((blank echoes.instructions ⟨#[], 0, 0⟩).adding echoes) := rfl
  exact ⟨hfree, ⟨_, hstart, rfl, ((ends_of_loopFree _).1 hfree).exists_ne_unfinished⟩,
    ((ends_of_loopFree (blank [] ⟨#[], 0, 0⟩)).2 echoes hfree).exists_ne_unfinished⟩

end Machine

end Adventure
