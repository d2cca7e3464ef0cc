import Adventure.Proofs.Growth
import Adventure.Proofs.Evaluator
import Adventure.Proofs.WellFormed

/-!
# What a program that was read never comes to

The interpreter has an answer for everything, also for what no text says: a chain without operands,
an operator with no operand behind it, an expression that is not there, a statement of a foreign
kind. The evaluators that report outcomes as it does may give other answers (`Fallback`). With the
usual ones they are the interpreter (`Machine.runOr_standard`); and the programs that were read
never come to any of them, so that they do the same whatever the answers are.

Both are one statement (`Rules.agreesAt`) about computations that agree: either the answers are the
usual ones, or everything that is carried out is well-formed. In the second case nothing fails for
want of support either.
-/

namespace Adventure

/-- Answers to what no program says that was read from a text, each of them an outcome. -/
abbrev Fallback :=
  Evaluator Outcome World Store

namespace Machine

/-- Carries out instructions at the top level. -/
def performOr (fb : Fallback) (steps : Nat) (m : Machine) (statements : List Statement) :
    Outcome Machine Unit :=
  (fb.instructions m.rules steps statements ⟨m.scope, m.world⟩).mapState fun s =>
    { m with scope := s.scope, world := s.world }

/-- Runs the instructions of the machine's program. -/
def runOr (fb : Fallback) (steps : Nat) (m : Machine) : Outcome Machine Unit :=
  performOr fb steps m.quiet m.instructions

/-- Registers another program and carries out its instructions. -/
def evaluateOr (fb : Fallback) (steps : Nat) (m : Machine) (p : Program) : Outcome Machine Unit :=
  match m.quiet.load p with
  | .ok m => performOr fb steps m p.instructions
  | .error e => .failed e m.quiet

end Machine

/-! ## Outcomes that agree -/

/-- Whether something was not supported. -/
def Fault.isUnsupported : Fault → Bool
  | .unsupportedExpression _ | .unsupportedStatement _ => true
  | _ => false

/-- An operation that fails is one that is supported. -/
theorem Fault.isUnsupported_of_isOperational {f : Fault} (h : f.isOperational = true) :
    f.isUnsupported = false := by
  cases f <;> first | rfl | cases h

namespace Outcome

variable {σ τ α β : Type}

/-- The computation did not fail for want of support. -/
def Supported : Outcome σ α → Prop
  | failed e _ => e.fault.isUnsupported = false
  | _ => True

/-- The second outcome is the first one, which is supported where `strict` holds. -/
structure Agrees (strict : Prop) (o o' : Outcome σ α) : Prop where
  eq : o' = o
  supported : strict → o.Supported

namespace Agrees

variable {strict : Prop} {o o' : Outcome σ α}

theorem done (a : α) (s : σ) : Agrees strict (.done a s) (.done a s) :=
  ⟨rfl, fun _ => trivial⟩

theorem unfinished : Agrees strict (.unfinished : Outcome σ α) .unfinished :=
  ⟨rfl, fun _ => trivial⟩

theorem failed {e : RuntimeError} (he : e.fault.isUnsupported = false) (s : σ) :
    Agrees strict (.failed e s : Outcome σ α) (.failed e s) :=
  ⟨rfl, fun _ => he⟩

/-- An operation on values, variables, dice or arguments fails. -/
theorem raise {f : Fault} (hf : f.isOperational = true) (s : σ) :
    Agrees strict (.failed (.ofFault f) s : Outcome σ α) (.failed (.ofFault f) s) :=
  failed (Fault.isUnsupported_of_isOperational hf) s

/-- An operation that leaves the world as it is. -/
theorem ofExcept {x : Except Fault α} (hx : ∀ f, x = .error f → f.isOperational = true)
    (w : World) :
    Agrees strict (.ofExcept w x) (Account.ofExcept w x) := by
  cases x with
  | ok a => exact done a w
  | error f => exact raise (hx f rfl) w

/-- What is not well-formed is answered as usual. -/
theorem answered {fb : Fallback} (hfb : ¬strict → fb = Evaluator.standard) (hlax : ¬strict)
    (h : fb = Evaluator.standard → o' = o) : Agrees strict o o' :=
  ⟨h (hfb hlax), fun hstrict => absurd hstrict hlax⟩

/-- Computations agree if they do so up to a point and from there on. -/
theorem bind {f f' : α → σ → Outcome σ β} (h : Agrees strict o o')
    (hf : ∀ a s, Agrees strict (f a s) (f' a s)) : Agrees strict (o.bind f) (o'.bind f') := by
  obtain ⟨rfl, hsupported⟩ := h
  cases o' with
  | done a s => exact hf a s
  | failed e s => exact ⟨rfl, hsupported⟩
  | unfinished => exact unfinished

theorem mapState (h : Agrees strict o o') (f : σ → τ) :
    Agrees strict (o.mapState f) (o'.mapState f) := by
  obtain ⟨rfl, hsupported⟩ := h
  refine ⟨rfl, fun hstrict => ?_⟩
  cases o' with
  | failed e s => exact hsupported hstrict
  | done a s => trivial
  | unfinished => trivial

theorem mapError (h : Agrees strict o o') {f : RuntimeError → RuntimeError}
    (hf : ∀ e, (f e).fault = e.fault) : Agrees strict (o.mapError f) (o'.mapError f) := by
  obtain ⟨rfl, hsupported⟩ := h
  refine ⟨rfl, fun hstrict => ?_⟩
  cases o' with
  | failed e s => exact (congrArg Fault.isUnsupported (hf e)).trans (hsupported hstrict)
  | done a s => trivial
  | unfinished => trivial

end Agrees

end Outcome

open Outcome

/-- Rolls have no answers to give. -/
theorem World.agrees_roll (strict : Prop) (n : Nat) (v : Value) (w : World) :
    Agrees strict (w.roll n v) (Account.roll n v w) := by
  unfold Account.roll roll
  rcases v.dice? with - | d
  · exact .raise (by rfl) w
  simp only [Realm.world]
  rcases hroll : w.generator.roll n d with f | - | ⟨total, g⟩
  · exact .raise (Generator.isOperational_of_roll hroll) w
  · exact .unfinished
  · exact .done _ _

namespace Rules

/-! ## One induction -/

/-- All computations with `n` steps agree with those that are answered by `fb`, as long as what they
carry out is well-formed where `strict` holds. -/
structure AgreesAt (strict : Prop) (fb : Fallback) (r : Rules) (n : Nat) : Prop where
  eval : ∀ scope (e : Expr) w, (strict → e.WellFormed) →
    Agrees strict (r.eval n scope e w) (fb.eval r n scope e w)
  chain : ∀ scope acc (operands : List Expr) (operators : List ArithOp) w,
    (strict → operands.length = operators.length ∧ Expr.AllWellFormed operands) →
    Agrees strict (r.chain n scope acc operands operators w)
      (fb.chain r n scope acc operands operators w)
  call : ∀ scope name args w, (strict → Expr.AllWellFormed args) →
    Agrees strict (r.call n scope name args w) (fb.call r n scope name args w)
  bindArguments : ∀ scope parameters args callee w, (strict → Expr.AllWellFormed args) →
    Agrees strict (r.bindArguments n scope parameters args callee w)
      (fb.bindArguments r n scope parameters args callee w)
  test : ∀ scope (c : Condition) w, (strict → c.WellFormed) →
    Agrees strict (r.test n scope c w) (fb.test r n scope c w)
  block : ∀ b s, (strict → Statement.BlockWellFormed b) →
    Agrees strict (r.block n b s) (fb.block r n b s)
  sequence : ∀ statements s, (strict → Statement.AllWellFormed statements) →
    Agrees strict (r.sequence n statements s) (fb.sequence r n statements s)
  statement : ∀ (st : Statement) s, (strict → st.WellFormed) →
    Agrees strict (r.statement n st s) (fb.statement r n st s)
  action : ∀ (st : Statement) s, (strict → st.WellFormed) →
    Agrees strict (r.action n st s) (fb.action r n st s)
  loop : ∀ (c : Condition) body s, (strict → c.WellFormed) →
    (strict → Statement.BlockWellFormed body) →
    Agrees strict (r.loop n c body s) (fb.loop r n c body s)

variable {strict : Prop} {fb : Fallback} {r : Rules} {n : Nat}

theorem agreesAt_zero : AgreesAt strict fb r 0 := by
  constructor
  all_goals
    intros
    exact .unfinished

section Step

variable (hfb : ¬strict → fb = Evaluator.standard) (ih : AgreesAt strict fb r n)

include hfb ih

/-- An expression that is well-formed is none that is answered. -/
theorem agrees_eval (scope : Scope) (e : Expr) (w : World) (he : strict → e.WellFormed) :
    Agrees strict (r.eval (n + 1) scope e w) (fb.eval r (n + 1) scope e w) := by
  cases e with
  | number v => exact .done _ w
  | text s => exact .done _ w
  | dice d => exact .done _ w
  | var x => exact .ofExcept (fun f hf => Scope.isOperational_of_get hf) w
  | call f args =>
    simp only [eval, Evaluator.eval]
    exact ih.call scope f args w fun hstrict => (he hstrict).2
  | roll operand =>
    simp only [eval, Evaluator.eval]
    refine (ih.eval scope operand w fun hstrict => (he hstrict).2).bind fun v w => ?_
    exact World.agrees_roll strict n v w
  | chain operands operators =>
    rcases operands with - | ⟨first, rest⟩
    · have hlength (hstrict : strict) : False :=
        Nat.succ_ne_zero _ (he hstrict).1.length_eq.symm
      exact .answered hfb hlength (by rintro rfl; rfl)
    · simp only [eval, Evaluator.eval]
      refine (ih.eval scope first w fun hstrict => (he hstrict).2.1).bind fun acc w => ?_
      rcases operators with - | ⟨op, ops⟩
      · exact .answered hfb (fun hstrict => (he hstrict).1.operators_ne rfl) (by rintro rfl; rfl)
      · by_cases hacc : acc.isNumeric = true
        · simp only [if_pos hacc]
          refine ih.chain scope acc rest (op :: ops) w fun hstrict => ?_
          exact ⟨Nat.succ.inj (he hstrict).1.length_eq, (he hstrict).2.2⟩
        · simp only [if_neg hacc]
          exact .raise (by rfl) w
  | hole => exact .answered hfb he (by rintro rfl; rfl)
  | «foreign» label => exact .answered hfb he (by rintro rfl; rfl)

/-- A chain with as many operators as operands left comes to its end without an answer. -/
theorem agrees_chain (scope : Scope) (acc : Value) (operands : List Expr)
    (operators : List ArithOp) (w : World)
    (h : strict → operands.length = operators.length ∧ Expr.AllWellFormed operands) :
    Agrees strict (r.chain (n + 1) scope acc operands operators w)
      (fb.chain r (n + 1) scope acc operands operators w) := by
  rcases operators with - | ⟨op, ops⟩
  · cases operands <;> exact .done acc w
  rcases operands with - | ⟨operand, rest⟩
  · have hlength (hstrict : strict) : False := Nat.succ_ne_zero _ (h hstrict).1.symm
    exact .answered hfb hlength (by rintro rfl; rfl)
  · simp only [chain, Evaluator.chain]
    refine (ih.eval scope operand w fun hstrict => (h hstrict).2.1).bind fun v w => ?_
    rcases happly : op.apply acc v with f | acc
    · exact .raise (ArithOp.isOperational_of_apply happly) w
    · refine ih.chain scope acc rest ops w fun hstrict => ?_
      exact ⟨Nat.succ.inj (h hstrict).1, (h hstrict).2.2⟩

omit hfb

/-- Arguments agree if each of them does. -/
theorem agrees_bindArguments (scope : Scope) (parameters : List String) (args : List Expr)
    (callee : Scope) (w : World) (hargs : strict → Expr.AllWellFormed args) :
    Agrees strict (r.bindArguments (n + 1) scope parameters args callee w)
      (fb.bindArguments r (n + 1) scope parameters args callee w) := by
  rcases parameters with - | ⟨p, ps⟩
  · simp only [bindArguments, Evaluator.bindArguments]
    exact .done _ w
  rcases args with - | ⟨arg, args⟩
  · simp only [bindArguments, Evaluator.bindArguments]
    exact .done _ w
  · simp only [bindArguments, Evaluator.bindArguments]
    refine (ih.eval scope arg w fun hstrict => (hargs hstrict).1).bind fun v w => ?_
    simp only [Realm.introduce]
    rcases hcallee : callee.introduce p v with f | callee
    · exact .raise (Scope.isOperational_of_introduce hcallee) w
    · exact ih.bindArguments scope ps args callee w fun hstrict => (hargs hstrict).2

/-- Calls agree, as the bodies of functions are well-formed. -/
theorem agrees_call (hr : strict → ∀ f ∈ r.functions, f.WellFormed) (scope : Scope) (name : String)
    (args : List Expr) (w : World) (hargs : strict → Expr.AllWellFormed args) :
    Agrees strict (r.call (n + 1) scope name args w) (fb.call r (n + 1) scope name args w) := by
  simp only [call_succ, Evaluator.call, Realm.function, Family.function]
  rcases hf : lookupFunction r.functions name with - | f
  · exact .raise (by rfl) w
  by_cases hcount : args.length ≠ f.parameters.length
  · simp only [if_pos hcount]
    exact .raise (isOperational_wrongCount _ _) w
  simp only [if_neg hcount]
  refine (ih.bindArguments scope f.parameters args .empty w hargs).bind fun callee w => ?_
  by_cases hdepth : r.maxDepth ≤ w.depth
  · simp only [Realm.world_world, if_pos hdepth]
    exact .failed (by rfl) w
  · simp only [Realm.world_world, if_neg hdepth]
    have hbody := ih.block f.body ⟨callee, { w with depth := w.depth + 1 }⟩ fun hstrict =>
      (hr hstrict f (mem_of_lookupFunction hf)).body
    exact ((hbody.mapState leave).mapError fun e => e.fault_leaving f.name).bind
      fun signal w => .done _ w

/-- Conditions agree if both of their sides do. -/
theorem agrees_test (scope : Scope) (c : Condition) (w : World) (hc : strict → c.WellFormed) :
    Agrees strict (r.test (n + 1) scope c w) (fb.test r (n + 1) scope c w) := by
  simp only [test, Evaluator.test]
  refine (ih.eval scope c.left w fun hstrict => (hc hstrict).left).bind fun a w => ?_
  refine (ih.eval scope c.right w fun hstrict => (hc hstrict).right).bind fun b w => ?_
  exact .ofExcept (fun f hf => CompareOp.isOperational_of_holds hf) w

theorem agrees_block (b : Block) (s : Store) (hb : strict → Statement.BlockWellFormed b) :
    Agrees strict (r.block (n + 1) b s) (fb.block r (n + 1) b s) := by
  rcases b with - | statements
  · exact .done _ s
  · simp only [block, Evaluator.block]
    exact ih.sequence statements s hb

/-- Statements in a row agree if each of them does. -/
theorem agrees_sequence (statements : List Statement) (s : Store)
    (h : strict → Statement.AllWellFormed statements) :
    Agrees strict (r.sequence (n + 1) statements s) (fb.sequence r (n + 1) statements s) := by
  rcases statements with - | ⟨first, rest⟩
  · exact .done _ s
  · rw [sequence_cons, Evaluator.sequence]
    refine (ih.statement first s fun hstrict => (h hstrict).1).bind fun signal s => ?_
    cases signal with
    | next => exact ih.sequence rest s fun hstrict => (h hstrict).2
    | returned v => exact .done _ s

/-- A request to stop is no want of support. -/
theorem agrees_statement (st : Statement) (s : Store) (hst : strict → st.WellFormed) :
    Agrees strict (r.statement (n + 1) st s) (fb.statement r (n + 1) st s) := by
  simp only [statement, Evaluator.statement, Site.world_store]
  by_cases hstop : s.world.interrupted = true
  · simp only [if_pos hstop]
    refine .failed ?_ _
    rw [RuntimeError.fault_onLine]
    rfl
  · simp only [if_neg hstop]
    exact (ih.action st s hst).mapError fun e => e.fault_onLine st.line

/-- A loop agrees if its condition and its body do. -/
theorem agrees_loop (c : Condition) (body : Block) (s : Store) (hc : strict → c.WellFormed)
    (hbody : strict → Statement.BlockWellFormed body) :
    Agrees strict (r.loop (n + 1) c body s) (fb.loop r (n + 1) c body s) := by
  rw [loop_succ, Evaluator.loop]
  refine ((ih.test s.scope c s.world hc).mapState _).bind fun holds s => ?_
  cases holds with
  | false => exact .done _ s
  | true =>
    refine (ih.block body s hbody).bind fun signal s => ?_
    cases signal with
    | returned v => exact .done _ s
    | next =>
      simp only [Site.world_store]
      by_cases hstop : s.world.interrupted = true
      · simp only [if_pos hstop]
        exact .failed (by rfl) _
      · simp only [if_neg hstop]
        exact ih.loop c body s hc hbody

include hfb

/-- A statement that is well-formed is none that is answered. -/
theorem agrees_action (st : Statement) (s : Store) (hst : strict → st.WellFormed) :
    Agrees strict (r.action (n + 1) st s) (fb.action r (n + 1) st s) := by
  cases st with
  | declare line type x =>
    simp only [action, Evaluator.action, Site.declare]
    rcases hscope : s.scope.declare x with f | scope
    · exact .raise (Scope.isOperational_of_introduce hscope) s
    · exact .done _ _
  | assign line x e =>
    simp only [action, Evaluator.action, Site.assign]
    refine ((ih.eval s.scope e s.world fun hstrict => (hst hstrict).2.2).mapState _).bind
      fun v s => ?_
    rcases hscope : s.scope.assign x v with f | scope
    · exact .raise (Scope.isOperational_of_assign hscope) s
    · exact .done _ _
  | attack line attacker defender => exact .done _ s
  | loop line c body =>
    simp only [action, Evaluator.action]
    exact ih.loop c body s (fun hstrict => (hst hstrict).2.1) fun hstrict => (hst hstrict).2.2.2
  | branch line c body alternative =>
    simp only [action, Evaluator.action]
    refine ((ih.test s.scope c s.world fun hstrict => (hst hstrict).2.1).mapState _).bind
      fun holds s => ?_
    cases holds with
    | true => exact ih.block body s fun hstrict => (hst hstrict).2.2.2.1
    | false => exact ih.block alternative s fun hstrict => (hst hstrict).2.2.2.2
  | log line e =>
    simp only [action, Evaluator.action]
    exact ((ih.eval s.scope e s.world fun hstrict => (hst hstrict).2).mapState _).bind
      fun v s => .done _ _
  | give line e =>
    simp only [action, Evaluator.action]
    exact ((ih.eval s.scope e s.world fun hstrict => (hst hstrict).2).mapState _).bind
      fun v s => .done _ s
  | call line f args =>
    simp only [action, Evaluator.action]
    exact ((ih.call s.scope f args s.world fun hstrict => (hst hstrict).2.2).mapState _).bind
      fun v s => .done _ s
  -- no statement that is well-formed is one that nobody knows
  | «foreign» line label => exact .answered hfb hst (by rintro rfl; rfl)

end Step

/-- **All computations agree**, either because the answers are the usual ones or because everything
is well-formed. -/
theorem agreesAt (hfb : ¬strict → fb = Evaluator.standard)
    (hr : strict → ∀ f ∈ r.functions, f.WellFormed) (n : Nat) : AgreesAt strict fb r n := by
  induction n with
  | zero => exact agreesAt_zero
  | succ n ih =>
    exact ⟨agrees_eval hfb ih, agrees_chain hfb ih, agrees_call ih hr, agrees_bindArguments ih,
      agrees_test ih, agrees_block ih, agrees_sequence ih, agrees_statement ih,
      agrees_action hfb ih, agrees_loop ih⟩

/-- Instructions agree if each of them does. -/
theorem agrees_instructions (hfb : ¬strict → fb = Evaluator.standard)
    (hr : strict → ∀ f ∈ r.functions, f.WellFormed) (n : Nat) (statements : List Statement)
    (h : strict → ∀ st ∈ statements, st.WellFormed) (s : Store) :
    Agrees strict (r.instructions n statements s) (fb.instructions r n statements s) := by
  induction statements generalizing s with
  | nil => exact .done _ s
  | cons first rest ih =>
    rw [instructions_cons, Evaluator.instructions]
    refine ((agreesAt hfb hr n).statement first s fun hstrict => ?_).bind fun _ s => ?_
    · exact h hstrict first List.mem_cons_self
    · exact ih (fun hstrict st hst => h hstrict st (List.mem_cons_of_mem _ hst)) s

end Rules

/-! ## Machines -/

namespace Machine

variable {strict : Prop} {fb : Fallback} {m m' : Machine} {p : Program}

/-- The functions of the machine and the instructions that it runs are well-formed. -/
structure WellFormed (m : Machine) : Prop where
  functions : ∀ f ∈ m.functions, f.WellFormed
  instructions : ∀ st ∈ m.instructions, st.WellFormed

theorem agrees_perform (hfb : ¬strict → fb = Evaluator.standard)
    (hm : strict → ∀ f ∈ m.functions, f.WellFormed) (steps : Nat) {statements : List Statement}
    (h : strict → ∀ st ∈ statements, st.WellFormed) :
    Agrees strict (m.perform steps statements) (m.performOr fb steps statements) :=
  (Rules.agrees_instructions hfb hm steps statements h ⟨m.scope, m.world⟩).mapState _

theorem agrees_run (hfb : ¬strict → fb = Evaluator.standard) (hm : strict → m.WellFormed)
    (steps : Nat) : Agrees strict (m.run steps) (m.runOr fb steps) := by
  have hfunctions : strict → ∀ f ∈ m.quiet.functions, f.WellFormed :=
    fun hstrict => (hm hstrict).functions
  exact agrees_perform hfb hfunctions steps fun hstrict => (hm hstrict).instructions

/-- A program that cannot be registered is not refused for want of support. -/
theorem agrees_evaluate (hfb : ¬strict → fb = Evaluator.standard) (hm : strict → m.WellFormed)
    (hp : strict → p.WellFormed) (steps : Nat) :
    Agrees strict (m.evaluate steps p) (m.evaluateOr fb steps p) := by
  rw [evaluate, evaluateOr]
  rcases hload : m.quiet.load p with e | m'
  · refine .failed ?_ _
    obtain ⟨f, -, rfl⟩ | ⟨-, t, -, hblames⟩ := refusedFor_of_load hload
    · rfl
    · cases hblames <;> rfl
  · obtain ⟨-, rfl⟩ := (load_eq_ok_iff _ _ _).mp hload
    refine agrees_perform hfb (fun hstrict => ?_) steps fun hstrict => (hp hstrict).instructions
    exact List.forall_mem_append.mpr ⟨(hm hstrict).functions, (hp hstrict).functions⟩

/-- **With the answers of the interpreter**, a run is a run. -/
theorem runOr_standard (m : Machine) (steps : Nat) : m.runOr .standard steps = m.run steps := by
  have h : Agrees False (m.run steps) (m.runOr .standard steps) :=
    agrees_run (fun _ => rfl) False.elim steps
  exact h.eq

/-- With the answers of the interpreter, a further program is carried out as usual. -/
theorem evaluateOr_standard (m : Machine) (steps : Nat) (p : Program) :
    m.evaluateOr .standard steps p = m.evaluate steps p := by
  have h : Agrees False (m.evaluate steps p) (m.evaluateOr .standard steps p) :=
    agrees_evaluate (fun _ => rfl) False.elim False.elim steps
  exact h.eq

/-- A machine that is reached with programs that were read holds nothing else. -/
theorem Reached.wellFormed (h : m.Reached Program.IsRead) : m.WellFormed := by
  obtain ⟨p, g, hp, hgrows⟩ := h.grows
  refine ⟨fun f hf => ?_, fun st hst => ?_⟩
  · obtain ⟨q, hq, hmem⟩ := hgrows.functions.kind_of_mem f hf
    exact hq.wellFormed.functions f hmem
  · rw [hgrows.instructions] at hst
    exact hp.wellFormed.instructions st hst

/-- **Programs that were read are well-formed**, and therefore need no answers to what they cannot
say. The interpreter with open answers is the interpreter if the answers are the usual ones. On a
machine that is reached with programs that were read it comes to the same with all answers, so none
of them is ever given, and no run and no further program fails for want of support. -/
theorem read_programs_need_no_fallback :
    (∀ (text : String) (p : Program), (Source.ofString text).parse = .ok p → p.IsRead) ∧
    (∀ p : Program, p.IsRead → p.WellFormed) ∧
    (∀ (m : Machine) (steps : Nat) (p : Program), m.runOr .standard steps = m.run steps ∧
      m.evaluateOr .standard steps p = m.evaluate steps p) ∧
    ∀ m : Machine, m.Reached Program.IsRead → ∀ steps,
      ((∀ fb, m.runOr fb steps = m.run steps) ∧ (m.run steps).Supported) ∧
      ∀ p : Program, p.IsRead →
        (∀ fb, m.evaluateOr fb steps p = m.evaluate steps p) ∧ (m.evaluate steps p).Supported := by
  refine ⟨fun text p => Program.isRead_of_parse, fun p hp => hp.wellFormed,
    fun m steps p => ⟨runOr_standard m steps, evaluateOr_standard m steps p⟩,
    fun m hm steps => ⟨?_, fun p hp => ?_⟩⟩
  · have hrun : ∀ fb, Agrees True (m.run steps) (m.runOr fb steps) := fun fb =>
      agrees_run (fun hlax => absurd trivial hlax) (fun _ => hm.wellFormed) steps
    exact ⟨fun fb => (hrun fb).eq, (hrun .standard).supported trivial⟩
  · have hevaluate : ∀ fb, Agrees True (m.evaluate steps p) (m.evaluateOr fb steps p) := fun fb =>
      agrees_evaluate (fun hlax => absurd trivial hlax) (fun _ => hm.wellFormed)
        (fun _ => hp.wellFormed) steps
    exact ⟨fun fb => (hevaluate fb).eq, (hevaluate .standard).supported trivial⟩

end Machine

open Machine Parsing Text

/-- What the text `?2+2d6;` is read as. -/
def sumWithDice : Program :=
  ⟨[], [], [.log 1 (.chain [.number 2, .dice ⟨2, 6⟩] [.add])]⟩

theorem parse_sumWithDice : (Source.ofString "?2+2d6;").parse = .ok sumWithDice := by
  have hitems : (Source.ofString "?2+2d6;").tokens.items =
      [⟨.questionMark, "", ⟨1, 1⟩⟩, ⟨.numberLiteral, "2", ⟨1, 2⟩⟩, ⟨.plus, "", ⟨1, 3⟩⟩,
        ⟨.diceLiteral, "2d6", ⟨1, 4⟩⟩, ⟨.semicolon, "", ⟨1, 7⟩⟩] := by decide +kernel
  have hfailure : (Source.ofString "?2+2d6;").tokens.failure = none := by decide +kernel
  have htwo : Numeral.decimal "2" = .ok 2 := by decide +kernel
  have hsix : Numeral.decimal "6" = .ok 6 := by decide +kernel
  have hdice : Grammar.IsDiceText "2d6" "2" "6" := ⟨rfl, by decide⟩
  refine (Source.parse_eq_ok_iff _ _).mpr ⟨hfailure, (Parsing.program_eq_ok_iff _ _).mpr ?_⟩
  rw [hitems]
  exact ⟨[.instruction (.log ⟨⟨.questionMark, "", ⟨1, 1⟩⟩, by decide⟩ (.expression (.mk
      (.mk (.number ⟨⟨.numberLiteral, "2", ⟨1, 2⟩⟩, rfl, 2, htwo⟩) .nil)
      (.cons ⟨⟨.plus, "", ⟨1, 3⟩⟩, by decide⟩
        (.mk (.dice ⟨⟨.diceLiteral, "2d6", ⟨1, 4⟩⟩, rfl, ⟨2, 6⟩, _, _, hdice, htwo, hsix⟩) .nil)
        .nil)))
      ⟨⟨.semicolon, "", ⟨1, 7⟩⟩, by decide⟩)], rfl, rfl⟩

/-- Answers that never come. -/
def Fallback.silent : Fallback where
  noOperand _ := .unfinished
  noOperator _ _ := .unfinished
  missingOperand _ _ := .unfinished
  otherExpression _ _ := .unfinished
  otherStatement _ _ := .unfinished

/-- Dice are no number, so the sum has no value. The run fails for this reason also if nothing else
was ever answered. -/
theorem sumWithDice_needs_no_fallback :
    ∃ m m', ofProgram sumWithDice ⟨#[], 0, 0⟩ = .ok m ∧ m.Reached Program.IsRead ∧
      m.run 9 = .failed ⟨.arithmeticOnOther, 1, []⟩ m' ∧
      m.runOr .silent 9 = .failed ⟨.arithmeticOnOther, 1, []⟩ m' ∧ (m.run 9).Supported := by
  obtain ⟨hread, -, -, hneeds⟩ := read_programs_need_no_fallback
  obtain ⟨m, m', hstart, hrun⟩ : ∃ m m', ofProgram sumWithDice ⟨#[], 0, 0⟩ = .ok m ∧
      m.run 9 = .failed ⟨.arithmeticOnOther, 1, []⟩ m' := ⟨_, _, rfl, rfl⟩
  have hreached : m.Reached Program.IsRead := .start (hread _ _ parse_sumWithDice) hstart
  obtain ⟨⟨hsame, hsupported⟩, -⟩ := hneeds m hreached 9
  exact ⟨m, m', hstart, hreached, hrun, (hsame _).trans hrun, hsupported⟩

end Adventure
