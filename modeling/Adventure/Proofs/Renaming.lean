import Adventure.Proofs.Loading
import Adventure.Proofs.Settled

/-!
# Only the equality of names matters

A renaming gives variables new names and functions new names, and keeps different names different.
The two have nothing to do with each other: a variable and a function of one name can get different
ones. Programs are renamed wherever they mention a variable or a function.

A renamed program does what the program does, step by step (`Rules.renamedAt`): the world is the
same at every moment, scopes have the new names, and errors tell the new names. There is one
equation for each function of the interpreter, and one induction on the number of steps. Names are
also looked at when a program is loaded, and `Program.loadAndRun_renamed` is about both.
-/

namespace Adventure

/-- New names for variables and for functions. -/
structure Renaming where
  vars : String → String
  functions : String → String
  vars_injective : ∀ x y, vars x = vars y → x = y
  functions_injective : ∀ f g, functions f = functions g → f = g

namespace Renaming

variable (ρ : Renaming)

/-- Different variables stay different. -/
theorem vars_beq (x y : String) : (ρ.vars x == ρ.vars y) = (x == y) := by
  rw [Bool.eq_iff_iff, beq_iff_eq, beq_iff_eq]
  exact ⟨ρ.vars_injective x y, congrArg ρ.vars⟩

/-- Different functions stay different. -/
theorem functions_beq (f g : String) : (ρ.functions f == ρ.functions g) = (f == g) := by
  rw [Bool.eq_iff_iff, beq_iff_eq, beq_iff_eq]
  exact ⟨ρ.functions_injective f g, congrArg ρ.functions⟩

end Renaming

variable (ρ : Renaming)

/-! ## Renamed programs -/

namespace Expr

mutual

/-- The expression with new names. -/
def renamed (ρ : Renaming) : Expr → Expr
  | .number v => .number v
  | .text s => .text s
  | .dice d => .dice d
  | .var x => .var (ρ.vars x)
  | .call f args => .call (ρ.functions f) (allRenamed ρ args)
  | .roll operand => .roll (renamed ρ operand)
  | .chain operands operators => .chain (allRenamed ρ operands) operators
  | .hole => .hole
  | .foreign label => .foreign label

/-- Expressions with new names. -/
def allRenamed (ρ : Renaming) : List Expr → List Expr
  | [] => []
  | e :: more => renamed ρ e :: allRenamed ρ more

end

/-- There are as many expressions as before. -/
theorem length_allRenamed (es : List Expr) : (allRenamed ρ es).length = es.length := by
  induction es with
  | nil => simp only [allRenamed]
  | cons e more ih => simp only [allRenamed, List.length_cons, ih]

end Expr

/-- The condition with new names. -/
def Condition.renamed (c : Condition) : Condition :=
  ⟨c.left.renamed ρ, c.op, c.right.renamed ρ⟩

namespace Statement

mutual

/-- The statement with new names. -/
def renamed (ρ : Renaming) : Statement → Statement
  | .declare line type x => .declare line type (ρ.vars x)
  | .assign line x e => .assign line (ρ.vars x) (e.renamed ρ)
  | .attack line attacker defender => .attack line (ρ.vars attacker) (ρ.vars defender)
  | .loop line c body => .loop line (c.renamed ρ) (blockRenamed ρ body)
  | .branch line c body alternative =>
    .branch line (c.renamed ρ) (blockRenamed ρ body) (blockRenamed ρ alternative)
  | .log line e => .log line (e.renamed ρ)
  | .give line e => .give line (e.renamed ρ)
  | .call line f args => .call line (ρ.functions f) (Expr.allRenamed ρ args)
  | .foreign line label => .foreign line label

/-- The block with new names. -/
def blockRenamed (ρ : Renaming) : Option (List Statement) → Option (List Statement)
  | none => none
  | some statements => some (allRenamed ρ statements)

/-- Statements with new names. -/
def allRenamed (ρ : Renaming) : List Statement → List Statement
  | [] => []
  | st :: more => renamed ρ st :: allRenamed ρ more

end

/-- Statements stay on their lines. -/
@[simp] theorem line_renamed (st : Statement) : (st.renamed ρ).line = st.line := by
  cases st <;> simp only [renamed, line]

end Statement

/-- The function with new names. -/
def Function.renamed (f : Function) : Function :=
  ⟨f.line, ρ.functions f.name, f.parameters.map ρ.vars, Statement.blockRenamed ρ f.body⟩

/-- The attribute with new names. -/
def Attribute.renamed (a : Attribute) : Attribute :=
  { a with amount := a.amount.renamed ρ }

/-- The template with new names for the variables and functions that it mentions. Its own name is
the name of neither. -/
def Template.renamed : Template → Template
  | .item i => .item i
  | .character c =>
    .character { c with
      level := c.level.map (·.renamed ρ), reqexp := c.reqexp.map (·.renamed ρ),
      exp := c.exp.map (·.renamed ρ), health := c.health.map (·.renamed ρ),
      attack := c.attack.map (·.renamed ρ), defence := c.defence.map (·.renamed ρ) }
  | .foreign name => .foreign name

/-- The program with new names. -/
def Program.renamed (p : Program) : Program :=
  ⟨p.templates.map (·.renamed ρ), p.functions.map (·.renamed ρ),
    Statement.allRenamed ρ p.instructions⟩

/-! ## Renamed states and errors -/

/-- The scope with new names. -/
def Scope.renamed (s : Scope) : Scope :=
  ⟨s.vars.map fun entry => (ρ.vars entry.1, entry.2)⟩

/-- The store with new names. -/
def Store.renamed (s : Store) : Store :=
  ⟨s.scope.renamed ρ, s.world⟩

/-- The fault with another name in the place of the one that it is about. -/
def Fault.requoted (new : String → String) : Fault → Fault
  | .undefined name => .undefined (new name)
  | .alreadyDefined name => .alreadyDefined (new name)
  | .undeclared name => .undeclared (new name)
  | f => f

/-- The new name of what a fault of this kind is about. A name that is already defined where a
program runs is that of a variable, since functions are defined before. -/
def Renaming.ofKind : FaultKind → String → String
  | .name => ρ.functions
  | _ => ρ.vars

/-- A fault of a run with new names. -/
def Fault.renamed (f : Fault) : Fault :=
  f.requoted (ρ.ofKind f.kind)

/-- An error of a run with new names. -/
def RuntimeError.renamed (e : RuntimeError) : RuntimeError :=
  ⟨e.fault.renamed ρ, e.line, e.trace.map ρ.functions⟩

/-- Putting an error on a line has nothing to do with names. -/
theorem RuntimeError.renamed_onLine (e : RuntimeError) (line : Int) :
    (e.onLine line).renamed ρ = (e.renamed ρ).onLine line := by
  by_cases h : e.line = 0 <;> simp [onLine, renamed, h]

/-- An error leaves a function under the new name. -/
theorem RuntimeError.renamed_leaving (e : RuntimeError) (name : String) :
    (e.leaving name).renamed ρ = (e.renamed ρ).leaving (ρ.functions name) := by
  simp only [leaving, renamed, List.map_append, List.map_cons, List.map_nil]

namespace Scope

/-- A variable is found under its new name. -/
theorem get?_renamed (s : Scope) (x : String) : (s.renamed ρ).get? (ρ.vars x) = s.get? x := by
  obtain ⟨vars⟩ := s
  simp only [get?, renamed]
  induction vars with
  | nil => rfl
  | cons entry vars ih =>
    obtain ⟨y, v⟩ := entry
    simp only [List.map_cons, List.lookup_cons, ρ.vars_beq, ih]

/-- Reading a variable comes to the same, with the names in a fault renamed. -/
theorem get_renamed (s : Scope) (x : String) :
    (s.renamed ρ).get (ρ.vars x) = (s.get x).mapError (Fault.renamed ρ) := by
  rw [get, get, get?_renamed]
  cases s.get? x <;> rfl

/-- Introducing a variable comes to the same. -/
theorem introduce_renamed (s : Scope) (x : String) (v : Value) :
    (s.renamed ρ).introduce (ρ.vars x) v =
      ((s.introduce x v).map (·.renamed ρ)).mapError (Fault.renamed ρ) := by
  rw [introduce, introduce, get?_renamed]
  cases s.get? x <;> rfl

/-- Giving a variable another value comes to the same. -/
theorem assign_renamed (s : Scope) (x : String) (v : Value) :
    (s.renamed ρ).assign (ρ.vars x) v =
      ((s.assign x v).map (·.renamed ρ)).mapError (Fault.renamed ρ) := by
  rw [assign, assign, get?_renamed]
  cases s.get? x with
  | none => rfl
  | some w =>
    refine congrArg (fun vars => Except.ok (Scope.mk vars)) ?_
    simp only [renamed, List.map_map]
    refine List.map_congr_left fun entry _ => ?_
    simp only [Function.comp_apply, ρ.vars_beq]
    split <;> rfl

end Scope

/-- A function is found under its new name. -/
theorem lookupFunction_renamed (functions : List Function) (name : String) :
    lookupFunction (functions.map (·.renamed ρ)) (ρ.functions name) =
      (lookupFunction functions name).map (·.renamed ρ) := by
  simp only [lookupFunction, List.find?_map]
  congr 2
  funext f
  exact ρ.functions_beq f.name name

/-- Operations on values have no names in their faults. -/
theorem ArithOp.mapError_apply (op : ArithOp) (a b : Value) :
    (op.apply a b).mapError (Fault.renamed ρ) = op.apply a b := by
  unfold apply
  repeat' split
  all_goals rfl

/-- The faults of comparisons have no names in them. -/
theorem CompareOp.mapError_holds (op : CompareOp) (a b : Value) :
    (op.holds a b).mapError (Fault.renamed ρ) = op.holds a b := by
  unfold holds
  repeat' split
  all_goals rfl

/-! ## Renamed outcomes -/

namespace Outcome

variable {σ τ α β γ δ : Type}

/-- The outcome with new names in its error, and with the given changes to its value and its
state. -/
def renamed (value : α → β) (state : σ → τ) : Outcome σ α → Outcome τ β
  | done a s => done (value a) (state s)
  | failed e s => failed (e.renamed ρ) (state s)
  | unfinished => unfinished

/-- Going on after a computation is renamed by renaming both. -/
theorem renamed_bind {value : α → β} {value' : γ → δ} {state : σ → τ} {o : Outcome σ α}
    {f : α → σ → Outcome σ γ} {f' : β → τ → Outcome τ δ}
    (h : ∀ a s, f' (value a) (state s) = (f a s).renamed ρ value' state) :
    (o.renamed ρ value state).bind f' = (o.bind f).renamed ρ value' state := by
  cases o with
  | done a s => exact h a s
  | failed e s => rfl
  | unfinished => rfl

/-- A state that does not depend on names can be changed before or after. -/
theorem renamed_mapState {υ φ : Type} {value : α → β} {state : σ → τ} {state' : υ → φ}
    {g : σ → υ} {g' : τ → φ} (h : ∀ s, g' (state s) = state' (g s)) (o : Outcome σ α) :
    (o.renamed ρ value state).mapState g' = (o.mapState g).renamed ρ value state' := by
  cases o with
  | done a s => exact congrArg (done (value a)) (h s)
  | failed e s => exact congrArg (failed (e.renamed ρ)) (h s)
  | unfinished => rfl

/-- An error that does not depend on names can be changed before or after. -/
theorem renamed_mapError {value : α → β} {state : σ → τ} {g g' : RuntimeError → RuntimeError}
    (h : ∀ e, g' (e.renamed ρ) = (g e).renamed ρ) (o : Outcome σ α) :
    (o.renamed ρ value state).mapError g' = (o.mapError g).renamed ρ value state := by
  cases o with
  | done a s => rfl
  | failed e s => exact congrArg (failed · (state s)) (h e)
  | unfinished => rfl

/-- An operation that leaves the state as it is comes to the same. -/
theorem renamed_ofExcept (s : σ) (x : Except Fault α) :
    (ofExcept s x).renamed ρ id id = ofExcept s (x.mapError (Fault.renamed ρ)) := by
  cases x <;> rfl

end Outcome

/-- Rolls have no names in them. -/
theorem World.renamed_roll (n : Nat) (v : Value) (w : World) :
    (w.roll n v).renamed ρ id id = w.roll n v := by
  unfold roll
  rcases v.dice? with - | d
  · rfl
  by_cases hd : (d.faces ≤ 0 || d.count < 0) = true
  · simp only [Generator.roll, if_pos hd]
    rfl
  · simp only [Generator.roll, if_neg hd]
    split <;> first | rfl | contradiction

/-! ## The interpreter -/

/-- The rules with new names. -/
def Rules.renamed (r : Rules) : Rules :=
  { r with functions := r.functions.map (·.renamed ρ) }

namespace Rules

/-- What is renamed does the same as before with `n` steps, up to the new names. -/
structure RenamedAt (r : Rules) (n : Nat) : Prop where
  eval : ∀ scope e w, (r.renamed ρ).eval n (scope.renamed ρ) (e.renamed ρ) w =
    (r.eval n scope e w).renamed ρ id id
  chain : ∀ scope acc operands ops w,
    (r.renamed ρ).chain n (scope.renamed ρ) acc (Expr.allRenamed ρ operands) ops w =
      (r.chain n scope acc operands ops w).renamed ρ id id
  call : ∀ scope f args w,
    (r.renamed ρ).call n (scope.renamed ρ) (ρ.functions f) (Expr.allRenamed ρ args) w =
      (r.call n scope f args w).renamed ρ id id
  bindArguments : ∀ scope ps args callee w,
    (r.renamed ρ).bindArguments n (scope.renamed ρ) (ps.map ρ.vars) (Expr.allRenamed ρ args)
      (callee.renamed ρ) w = (r.bindArguments n scope ps args callee w).renamed ρ (·.renamed ρ) id
  test : ∀ scope c w, (r.renamed ρ).test n (scope.renamed ρ) (c.renamed ρ) w =
    (r.test n scope c w).renamed ρ id id
  block : ∀ b s, (r.renamed ρ).block n (Statement.blockRenamed ρ b) (s.renamed ρ) =
    (r.block n b s).renamed ρ id (·.renamed ρ)
  sequence : ∀ statements s,
    (r.renamed ρ).sequence n (Statement.allRenamed ρ statements) (s.renamed ρ) =
      (r.sequence n statements s).renamed ρ id (·.renamed ρ)
  statement : ∀ st s, (r.renamed ρ).statement n (st.renamed ρ) (s.renamed ρ) =
    (r.statement n st s).renamed ρ id (·.renamed ρ)
  action : ∀ st s, (r.renamed ρ).action n (st.renamed ρ) (s.renamed ρ) =
    (r.action n st s).renamed ρ id (·.renamed ρ)
  loop : ∀ c body s,
    (r.renamed ρ).loop n (c.renamed ρ) (Statement.blockRenamed ρ body) (s.renamed ρ) =
      (r.loop n c body s).renamed ρ id (·.renamed ρ)

section Induction

variable {ρ} {r : Rules} {n : Nat}

theorem renamedAt_zero : RenamedAt ρ r 0 := by
  constructor
  all_goals
    intros
    rfl

/-- The value of an expression does not depend on names. -/
theorem eval_renamed (ih : RenamedAt ρ r n) (scope : Scope) (e : Expr) (w : World) :
    (r.renamed ρ).eval (n + 1) (scope.renamed ρ) (e.renamed ρ) w =
      (r.eval (n + 1) scope e w).renamed ρ id id := by
  cases e with
  | number v | text s | dice d | hole | «foreign» label =>
    simp only [Expr.renamed, eval]
    rfl
  | var x =>
    simp only [Expr.renamed, eval, Scope.get_renamed]
    exact (Outcome.renamed_ofExcept ρ w _).symm
  | call f args =>
    simp only [Expr.renamed, eval]
    exact ih.call scope f args w
  | roll operand =>
    simp only [Expr.renamed, eval, ih.eval]
    exact Outcome.renamed_bind ρ fun v w => (World.renamed_roll ρ n v w).symm
  | chain operands operators =>
    rcases operands with - | ⟨first, rest⟩
    · simp only [Expr.renamed, Expr.allRenamed, eval]
      rfl
    · simp only [Expr.renamed, Expr.allRenamed, eval, ih.eval]
      refine Outcome.renamed_bind ρ fun acc w => ?_
      rcases operators with - | ⟨op, ops⟩
      · rfl
      · by_cases hacc : acc.isNumeric = true
        · simp only [id_eq, if_pos hacc]
          exact ih.chain scope acc rest (op :: ops) w
        · simp only [id_eq, if_neg hacc]
          rfl

/-- Neither does that of a chain. -/
theorem chain_renamed (ih : RenamedAt ρ r n) (scope : Scope) (acc : Value) (operands : List Expr)
    (operators : List ArithOp) (w : World) :
    (r.renamed ρ).chain (n + 1) (scope.renamed ρ) acc (Expr.allRenamed ρ operands) operators w =
      (r.chain (n + 1) scope acc operands operators w).renamed ρ id id := by
  rcases operands with - | ⟨operand, rest⟩
  · simp only [Expr.allRenamed, chain]
    rfl
  rcases operators with - | ⟨op, ops⟩
  · simp only [Expr.allRenamed, chain]
    rfl
  · simp only [Expr.allRenamed, chain, ih.eval]
    refine Outcome.renamed_bind ρ fun v w => ?_
    conv => lhs; rw [id_eq, ← op.mapError_apply ρ acc v]
    rcases op.apply acc v with f | acc
    · rfl
    · exact ih.chain scope acc rest ops w

/-- The arguments are bound to the new names of the parameters. -/
theorem bindArguments_renamed (ih : RenamedAt ρ r n) (scope : Scope) (parameters : List String)
    (args : List Expr) (callee : Scope) (w : World) :
    (r.renamed ρ).bindArguments (n + 1) (scope.renamed ρ) (parameters.map ρ.vars)
      (Expr.allRenamed ρ args) (callee.renamed ρ) w =
        (r.bindArguments (n + 1) scope parameters args callee w).renamed ρ (·.renamed ρ) id := by
  rcases parameters with - | ⟨p, ps⟩
  · simp only [List.map_nil, bindArguments]
    rfl
  rcases args with - | ⟨arg, args⟩
  · simp only [Expr.allRenamed, bindArguments]
    rfl
  · simp only [List.map_cons, Expr.allRenamed, bindArguments, ih.eval]
    refine Outcome.renamed_bind ρ fun v w => ?_
    simp only [id_eq, Scope.introduce_renamed]
    rcases callee.introduce p v with f | callee
    · rfl
    · exact ih.bindArguments scope ps args callee w

/-- A body does the same under new names. -/
theorem enter_renamed (ih : RenamedAt ρ r n) (f : Function) (callee : Scope) (w : World) :
    (r.renamed ρ).enter n (f.renamed ρ) (callee.renamed ρ) w =
      (r.enter n f callee w).renamed ρ id id := by
  have hbody : (r.renamed ρ).block n (f.renamed ρ).body
      ⟨callee.renamed ρ, { w with depth := w.depth + 1 }⟩ =
      (r.block n f.body ⟨callee, { w with depth := w.depth + 1 }⟩).renamed ρ id (·.renamed ρ) :=
    ih.block f.body ⟨callee, { w with depth := w.depth + 1 }⟩
  have hleft : ∀ o : Outcome Store Signal, (o.renamed ρ id (·.renamed ρ)).mapState leave =
      (o.mapState leave).renamed ρ id id := Outcome.renamed_mapState ρ fun _ => rfl
  rw [enter, enter, hbody, hleft,
    Outcome.renamed_mapError ρ fun e => (e.renamed_leaving ρ f.name).symm]
  exact Outcome.renamed_bind ρ fun _ _ => rfl

/-- A call finds the same function under its new name. -/
theorem call_renamed (ih : RenamedAt ρ r n) (scope : Scope) (name : String) (args : List Expr)
    (w : World) :
    (r.renamed ρ).call (n + 1) (scope.renamed ρ) (ρ.functions name) (Expr.allRenamed ρ args) w =
      (r.call (n + 1) scope name args w).renamed ρ id id := by
  rw [call_succ, call_succ]
  have hlookup : lookupFunction (r.renamed ρ).functions (ρ.functions name) =
      (lookupFunction r.functions name).map (·.renamed ρ) :=
    lookupFunction_renamed ρ r.functions name
  rw [hlookup]
  rcases lookupFunction r.functions name with - | f
  · rfl
  have hparameters : (f.renamed ρ).parameters.length = f.parameters.length := List.length_map _
  simp only [Option.map_some, Expr.length_allRenamed, hparameters]
  -- the message of a wrong number of arguments tells no name of a variable
  by_cases hcount : args.length ≠ f.parameters.length
  · simp only [if_pos hcount, wrongCount]
    split <;> rfl
  simp only [if_neg hcount]
  have hargs := ih.bindArguments scope f.parameters args .empty w
  simp only [show (f.renamed ρ).parameters = f.parameters.map ρ.vars from rfl]
  rw [show Scope.empty = Scope.empty.renamed ρ from rfl, hargs]
  refine Outcome.renamed_bind ρ fun callee w => ?_
  -- names do not count towards the depth
  by_cases hdepth : r.maxDepth ≤ w.depth
  · have hdepth' : (r.renamed ρ).maxDepth ≤ w.depth := hdepth
    simp only [id_eq, if_pos hdepth, if_pos hdepth']
    rfl
  · have hdepth' : ¬(r.renamed ρ).maxDepth ≤ w.depth := hdepth
    simp only [id_eq, if_neg hdepth, if_neg hdepth']
    exact enter_renamed ih f callee w

/-- Conditions hold or not, whatever the names are. -/
theorem test_renamed (ih : RenamedAt ρ r n) (scope : Scope) (c : Condition) (w : World) :
    (r.renamed ρ).test (n + 1) (scope.renamed ρ) (c.renamed ρ) w =
      (r.test (n + 1) scope c w).renamed ρ id id := by
  simp only [test, Condition.renamed, ih.eval]
  refine Outcome.renamed_bind ρ fun a w => ?_
  refine Outcome.renamed_bind ρ fun b w => ?_
  rw [Outcome.renamed_ofExcept, CompareOp.mapError_holds]
  rfl

/-- A block does the same under new names. -/
theorem block_renamed (ih : RenamedAt ρ r n) (b : Block) (s : Store) :
    (r.renamed ρ).block (n + 1) (Statement.blockRenamed ρ b) (s.renamed ρ) =
      (r.block (n + 1) b s).renamed ρ id (·.renamed ρ) := by
  rcases b with - | statements
  · simp only [Statement.blockRenamed, block]
    rfl
  · simp only [Statement.blockRenamed, block]
    exact ih.sequence statements s

/-- Statements in a row do the same under new names. -/
theorem sequence_renamed (ih : RenamedAt ρ r n) (statements : List Statement) (s : Store) :
    (r.renamed ρ).sequence (n + 1) (Statement.allRenamed ρ statements) (s.renamed ρ) =
      (r.sequence (n + 1) statements s).renamed ρ id (·.renamed ρ) := by
  rcases statements with - | ⟨first, rest⟩
  · simp only [Statement.allRenamed, sequence]
    rfl
  · rw [Statement.allRenamed, sequence_cons, sequence_cons, ih.statement]
    refine Outcome.renamed_bind ρ fun signal s => ?_
    cases signal with
    | next => exact ih.sequence rest s
    | returned v => rfl

/-- A statement does the same under new names, and fails on the same line. -/
theorem statement_renamed (ih : RenamedAt ρ r n) (st : Statement) (s : Store) :
    (r.renamed ρ).statement (n + 1) (st.renamed ρ) (s.renamed ρ) =
      (r.statement (n + 1) st s).renamed ρ id (·.renamed ρ) := by
  simp only [statement, Statement.line_renamed, ih.action]
  by_cases hstop : s.world.interrupted = true
  · have hstop' : (s.renamed ρ).world.interrupted = true := hstop
    rw [if_pos hstop, if_pos hstop', Outcome.renamed, RuntimeError.renamed_onLine]
    rfl
  · have hstop' : ¬(s.renamed ρ).world.interrupted = true := hstop
    rw [if_neg hstop, if_neg hstop']
    exact Outcome.renamed_mapError ρ (fun e => (e.renamed_onLine ρ st.line).symm) _

/-- What a statement does after an expression, a condition or a call. -/
theorem renamed_thenStore {α : Type} {scope : Scope} {o : Outcome World α}
    {f f' : α → Store → Outcome Store Signal}
    (h : ∀ a s, f' a (s.renamed ρ) = (f a s).renamed ρ id (·.renamed ρ)) :
    ((o.renamed ρ id id).mapState (⟨scope.renamed ρ, ·⟩)).bind f' =
      ((o.mapState (⟨scope, ·⟩)).bind f).renamed ρ id (·.renamed ρ) := by
  have hstore : (o.renamed ρ id id).mapState (Store.mk (scope.renamed ρ)) =
      (o.mapState (Store.mk scope)).renamed ρ id (·.renamed ρ) := by
    refine Outcome.renamed_mapState ρ ?_ o
    exact fun _ => rfl
  rw [hstore]
  exact Outcome.renamed_bind ρ h

/-- What a statement says is done in the same way under new names. -/
theorem action_renamed (ih : RenamedAt ρ r n) (st : Statement) (s : Store) :
    (r.renamed ρ).action (n + 1) (st.renamed ρ) (s.renamed ρ) =
      (r.action (n + 1) st s).renamed ρ id (·.renamed ρ) := by
  have hscope : (s.renamed ρ).scope = s.scope.renamed ρ := rfl
  have hworld : (s.renamed ρ).world = s.world := rfl
  cases st with
  | declare line type x =>
    simp only [Statement.renamed, action, hscope, Scope.declare, Scope.introduce_renamed]
    rcases s.scope.introduce x .nothing with f | scope <;> rfl
  | assign line x e =>
    simp only [Statement.renamed, action, hscope, hworld, ih.eval]
    refine renamed_thenStore fun v s => ?_
    simp only [Store.renamed, Scope.assign_renamed]
    rcases s.scope.assign x v with f | scope <;> rfl
  | attack line attacker defender | «foreign» line label =>
    simp only [Statement.renamed, action]
    rfl
  | loop line c body =>
    simp only [Statement.renamed, action]
    exact ih.loop c body s
  | branch line c body alternative =>
    simp only [Statement.renamed, action, hscope, hworld, ih.test]
    refine renamed_thenStore fun holds s => ?_
    cases holds with
    | true => exact ih.block body s
    | false => exact ih.block alternative s
  | log line e | give line e =>
    simp only [Statement.renamed, action, hscope, hworld, ih.eval]
    exact renamed_thenStore fun v s => rfl
  | call line f args =>
    simp only [Statement.renamed, action, hscope, hworld, ih.call]
    exact renamed_thenStore fun _ s => rfl

/-- A loop has as many passes as before. -/
theorem loop_renamed (ih : RenamedAt ρ r n) (c : Condition) (body : Block) (s : Store) :
    (r.renamed ρ).loop (n + 1) (c.renamed ρ) (Statement.blockRenamed ρ body) (s.renamed ρ) =
      (r.loop (n + 1) c body s).renamed ρ id (·.renamed ρ) := by
  have hscope : (s.renamed ρ).scope = s.scope.renamed ρ := rfl
  have hworld : (s.renamed ρ).world = s.world := rfl
  rw [loop_succ, loop_succ, hscope, hworld, ih.test]
  refine renamed_thenStore fun holds s => ?_
  cases holds with
  | false => rfl
  | true =>
    simp only [if_true, ih.block]
    refine Outcome.renamed_bind ρ fun signal s => ?_
    cases signal with
    | returned v => rfl
    | next =>
      by_cases hstop : s.world.interrupted = true
      · have hstop' : (s.renamed ρ).world.interrupted = true := hstop
        simp only [id_eq, if_pos hstop, if_pos hstop']
        rfl
      · have hstop' : ¬(s.renamed ρ).world.interrupted = true := hstop
        simp only [id_eq, if_neg hstop, if_neg hstop']
        exact ih.loop c body s

end Induction

/-- **What is renamed does the same**, with any number of steps. -/
theorem renamedAt (r : Rules) (n : Nat) : RenamedAt ρ r n := by
  induction n with
  | zero => exact renamedAt_zero
  | succ n ih =>
    exact
      { eval := eval_renamed ih
        chain := chain_renamed ih
        call := call_renamed ih
        bindArguments := bindArguments_renamed ih
        test := test_renamed ih
        block := block_renamed ih
        sequence := sequence_renamed ih
        statement := statement_renamed ih
        action := action_renamed ih
        loop := loop_renamed ih }

/-- Instructions do the same under new names. -/
theorem instructions_renamed (r : Rules) (n : Nat) (statements : List Statement) (s : Store) :
    (r.renamed ρ).instructions n (Statement.allRenamed ρ statements) (s.renamed ρ) =
      (r.instructions n statements s).renamed ρ id (·.renamed ρ) := by
  induction statements generalizing s with
  | nil =>
    rw [Statement.allRenamed]
    rfl
  | cons first rest ih =>
    rw [Statement.allRenamed, instructions_cons, instructions_cons,
      (renamedAt ρ r n).statement first s]
    exact Outcome.renamed_bind ρ fun _ s => ih s

end Rules

/-! ## Machines -/

namespace Machine

/-- The machine with new names. -/
def renamed (m : Machine) : Machine :=
  { m with
    instructions := Statement.allRenamed ρ m.instructions
    functions := m.functions.map (·.renamed ρ)
    templates := m.templates.map (·.renamed ρ)
    scope := m.scope.renamed ρ }

/-- **A renamed machine runs as before**, up to the new names. -/
theorem run_renamed (m : Machine) (steps : Nat) :
    (m.renamed ρ).run steps = (m.run steps).renamed ρ id (·.renamed ρ) := by
  have hrun : (m.renamed ρ).quiet.rules.instructions steps (m.renamed ρ).instructions
      ⟨(m.renamed ρ).quiet.scope, (m.renamed ρ).quiet.world⟩ =
      (m.quiet.rules.instructions steps m.instructions
        ⟨m.quiet.scope, m.quiet.world⟩).renamed ρ id (·.renamed ρ) :=
    Rules.instructions_renamed ρ m.quiet.rules steps m.instructions ⟨m.quiet.scope, m.quiet.world⟩
  rw [run, run, perform, perform, hrun]
  refine Outcome.renamed_mapState ρ ?_ _
  exact fun _ => rfl

/-! ### Loading -/

/-- The first name that is taken is the same one, under its new name. -/
theorem firstClash_map {f : String → String} (hf : ∀ x y, f x = f y → x = y)
    (taken : List String) (entries : List (String × Int)) :
    firstClash (taken.map f) (entries.map fun entry => (f entry.1, entry.2)) =
      (firstClash taken entries).map fun clash => (f clash.1, clash.2) := by
  induction entries generalizing taken with
  | nil => rfl
  | cons entry entries ih =>
    obtain ⟨name, line⟩ := entry
    have hmem : f name ∈ taken.map f ↔ name ∈ taken :=
      ⟨fun h => by
        obtain ⟨x, hx, heq⟩ := List.mem_map.mp h
        exact hf x name heq ▸ hx, List.mem_map_of_mem⟩
    simp only [List.map_cons, firstClash, hmem]
    by_cases hname : name ∈ taken
    · simp only [if_pos hname, Option.map_some]
    · rw [if_neg hname, if_neg hname, ← List.map_cons, ih]

theorem name_templateRenamed (t : Template) : (t.renamed ρ).name = t.name := by
  cases t <;> rfl

theorem line_templateRenamed (t : Template) : (t.renamed ρ).line = t.line := by
  cases t <;> rfl

/-- Renaming a program keeps its names apart, or lets the same ones clash. -/
theorem clash_renamed (m : Machine) (p : Program) :
    (m.renamed ρ).clash (p.renamed ρ) =
      ((firstClash (m.functions.map (·.name)) (p.functions.map fun f => (f.name, f.line))).map
        fun clash => (ρ.functions clash.1, clash.2)).or
        (firstClash (m.templates.map (·.name)) (p.templates.map fun t => (t.name, t.line))) := by
  rw [← firstClash_map ρ.functions_injective]
  simp only [clash, renamed, Program.renamed, List.map_map, Function.comp_def,
    name_templateRenamed, line_templateRenamed]
  rfl

end Machine

/-! ## Programs -/

namespace Fault

/-- The name that the message of a fault quotes, if it quotes one. -/
def quoted? : Fault → Option String
  | .undefined name | .alreadyDefined name | .undeclared name => some name
  | _ => none

/-- Other names do not change the kind of a fault. -/
theorem kind_requoted (new : String → String) (f : Fault) : (f.requoted new).kind = f.kind := by
  cases f <;> rfl

/-- Other names do not change the cause of a fault. -/
theorem cause?_requoted (new : String → String) (f : Fault) :
    (f.requoted new).cause? = f.cause? := by
  cases f <;> rfl

/-- A fault without a name stays as it is. -/
theorem requoted_of_quoted?_eq_none (new : String → String) {f : Fault} (h : f.quoted? = none) :
    f.requoted new = f := by
  cases f <;> first | rfl | cases h

/-- A message that quotes a name is the same around it whatever the name is. -/
theorem exists_message_requoted {f : Fault} {name : String} (h : f.quoted? = some name) :
    ∃ before after, f.message = before ++ "'" ++ name ++ "'" ++ after ∧ ∀ new : String → String,
      (f.requoted new).message = before ++ "'" ++ new name ++ "'" ++ after := by
  have hundefined : ∀ x : String, "Name '" ++ x ++ "' is not defined" =
      "Name " ++ "'" ++ x ++ "'" ++ " is not defined" := by simp [← String.toList_inj]
  have hdefined : ∀ x : String, "Name '" ++ x ++ "' is already defined" =
      "Name " ++ "'" ++ x ++ "'" ++ " is already defined" := by simp [← String.toList_inj]
  have hundeclared : ∀ x : String, "Variable '" ++ x ++ "' is not declared" =
      "Variable " ++ "'" ++ x ++ "'" ++ " is not declared" := by simp [← String.toList_inj]
  cases f <;> cases h
  · exact ⟨_, _, hundefined name, fun new => hundefined (new name)⟩
  · exact ⟨_, _, hdefined name, fun new => hdefined (new name)⟩
  · exact ⟨_, _, hundeclared name, fun new => hundeclared (new name)⟩

end Fault

namespace Renaming

/-- The error `e'` says the same as `e` with new names: it has the same kind, line and cause, the
functions of its trace have their new names, and its message is the same but for the name that it
quotes, which is the one that `new` gives. -/
structure Retells (new : String → String) (e e' : RuntimeError) : Prop where
  kind : e'.fault.kind = e.fault.kind
  line : e'.line = e.line
  cause : e'.fault.cause? = e.fault.cause?
  trace : e'.trace = e.trace.map ρ.functions
  message : e.fault.quoted? = none → e'.fault.message = e.fault.message
  quotes : ∀ name, e.fault.quoted? = some name → ∃ before after,
    e.fault.message = before ++ "'" ++ name ++ "'" ++ after ∧
      e'.fault.message = before ++ "'" ++ new name ++ "'" ++ after

/-- An error is retold if its name is replaced and the calls that it left are renamed. -/
theorem retells_requoted (new : String → String) (e : RuntimeError) :
    ρ.Retells new e ⟨e.fault.requoted new, e.line, e.trace.map ρ.functions⟩ where
  kind := e.fault.kind_requoted new
  line := rfl
  cause := e.fault.cause?_requoted new
  trace := rfl
  message := fun h => congrArg Fault.message (Fault.requoted_of_quoted?_eq_none new h)
  quotes := by
    intro name h
    obtain ⟨before, after, hmessage, hnew⟩ := Fault.exists_message_requoted h
    exact ⟨before, after, hmessage, hnew new⟩

/-- The machines are in the same state up to the new names of the variables: what they have shown,
their generators, their calls in progress and their requests to stop are the same. -/
structure Matches (m m' : Machine) : Prop where
  world : m'.world = m.world
  scope : m'.scope.vars = m.scope.vars.map fun entry => (ρ.vars entry.1, entry.2)

/-- A program that is loaded and run comes to the same as another one, up to the new names. Where it
cannot be loaded, the error is about the name of a function or that of a template, which stays. -/
inductive Alike : Except RuntimeError (Outcome Machine Unit) →
    Except RuntimeError (Outcome Machine Unit) → Prop where
  | functionRefused {e e' : RuntimeError} (h : ρ.Retells ρ.functions e e') :
      Alike (.error e) (.error e')
  | templateRefused {e e' : RuntimeError} (h : ρ.Retells id e e') : Alike (.error e) (.error e')
  | done {m m' : Machine} (h : ρ.Matches m m') : Alike (.ok (.done () m)) (.ok (.done () m'))
  | failed {e e' : RuntimeError} {m m' : Machine} (he : ρ.Retells (ρ.ofKind e.fault.kind) e e')
      (h : ρ.Matches m m') : Alike (.ok (.failed e m)) (.ok (.failed e' m'))
  | unfinished : Alike (.ok .unfinished) (.ok .unfinished)

/-- A machine matches itself under new names. -/
theorem matches_renamed (m : Machine) : ρ.Matches m (m.renamed ρ) :=
  ⟨rfl, rfl⟩

/-- Outcomes of runs are renamed as they should be. -/
theorem alike_renamed (o : Outcome Machine Unit) :
    ρ.Alike (.ok o) (.ok (o.renamed ρ id (·.renamed ρ))) := by
  cases o with
  | done a m => exact .done (ρ.matches_renamed m)
  | failed e m => exact .failed (ρ.retells_requoted _ e) (ρ.matches_renamed m)
  | unfinished => exact .unfinished

end Renaming

namespace Program

/-- What comes of loading a program and running it, where `depth` limits the calls in progress and
`listener` is told what is shown. -/
def loadAndRun (p : Program) (g : Generator) (depth : Int) (listener : Option Listener)
    (steps : Nat) : Except RuntimeError (Outcome Machine Unit) :=
  (Machine.ofProgram p g).map fun m => ((m.limitDepth depth).setListener listener).run steps

/-- **Only the equality of names matters.** If the variables of a program get new names and its
functions get new names, both in a way that keeps different names different, then it can be loaded
as before or fails to for the same reason, and its run comes to the same with any number of steps:
it shows the same, leaves the same generator, the same request to stop and the same variables under
their new names, and fails with the same error under the new names if it fails. -/
theorem loadAndRun_renamed (ρ : Renaming) (p : Program) (g : Generator) (depth : Int)
    (listener : Option Listener) (steps : Nat) :
    ρ.Alike (p.loadAndRun g depth listener steps)
      ((p.renamed ρ).loadAndRun g depth listener steps) := by
  have hblank : Machine.blank (p.renamed ρ).instructions g =
      (Machine.blank p.instructions g).renamed ρ := rfl
  rw [loadAndRun, loadAndRun, Machine.ofProgram, Machine.ofProgram, Machine.load, Machine.load,
    hblank, Machine.clash_renamed, Machine.clash]
  -- functions are looked through before templates
  rcases Machine.firstClash _ (p.functions.map _) with - | ⟨name, line⟩
  · rcases Machine.firstClash _ (p.templates.map _) with - | ⟨name, line⟩
    · let m : Machine := (Machine.blank p.instructions g).adding p
      have hrun := Machine.run_renamed ρ ((m.limitDepth depth).setListener listener) steps
      have halike := ρ.alike_renamed (((m.limitDepth depth).setListener listener).run steps)
      rw [← hrun] at halike
      exact halike
    · exact .templateRefused (ρ.retells_requoted id ⟨.alreadyDefined name, line, []⟩)
  · exact .functionRefused (ρ.retells_requoted ρ.functions ⟨.alreadyDefined name, line, []⟩)

/-- A variable and a function share the name `x`, and the function assigns to a variable that is
not there. -/
def echo : Program :=
  ⟨[], [⟨1, "x", ["x"], some [.log 1 (.var "x"), .assign 1 "y" (.var "x")]⟩],
    [.declare 2 "Number" "x", .assign 3 "x" (.number 7), .call 4 "x" [.var "x"]]⟩

/-- Variables and functions get new names that differ at the front. -/
def marked : Renaming where
  vars x := "v" ++ x
  functions f := "f" ++ f
  vars_injective _ _ := (String.append_right_inj _).mp
  functions_injective _ _ := (String.append_right_inj _).mp

/-- What was one name for a variable and a function are two names now, and the error tells of the
new ones. -/
theorem echo_marked_alike :
    marked.vars "x" ≠ marked.functions "x" ∧
      marked.Alike (echo.loadAndRun ⟨#[], 0, 0⟩ 4 none 20)
        ((echo.renamed marked).loadAndRun ⟨#[], 0, 0⟩ 4 none 20) ∧
      (∃ m, echo.loadAndRun ⟨#[], 0, 0⟩ 4 none 20 =
        .ok (.failed ⟨.undeclared "y", 1, ["x"]⟩ m)) ∧
      ∃ m, (echo.renamed marked).loadAndRun ⟨#[], 0, 0⟩ 4 none 20 =
        .ok (.failed ⟨.undeclared "vy", 1, ["fx"]⟩ m) :=
  ⟨by decide, loadAndRun_renamed marked echo _ _ _ _, ⟨_, rfl⟩, ⟨_, rfl⟩⟩

end Program

end Adventure
