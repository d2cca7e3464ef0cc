import Adventure.Proofs.Settled

/-!
# The interpreter in general

The interpreter of `Adventure.Machine.Evaluation` is made to be run: it tells how a computation ends
and hands each expression and each statement what it is about. Here it is told a second time, with
three things left open.

* `Account`: what is said about a computation. How it ends is the least; an account may also hold
  what happened on the way, for which it is told of the events.
* `Realm` and `Site`: where the variables and the functions are.
* `Evaluator`: the answers to what no program says that was read from a text, such as a chain
  without operands.

Each of the modules that follow fills them in for the sake of one question, and none goes through
expressions and statements again: `Adventure.Proofs.Record` is about what happens,
`Adventure.Proofs.Memory` about variables that are not in the current scope, and
`Adventure.Proofs.Fallback` about the answers. That they speak of the interpreter is proved there.
-/

namespace Adventure

/-! ## What is said about computations -/

/-- Something that happens while a program runs. -/
inductive Record.Event where
  /-- a statement comes next -/
  | reach (st : Statement)
  /-- the statement is over -/
  | finish
  /-- a call comes next: there is such a function and its parameters are bound -/
  | attempt (name : String)
  /-- the body of the function begins -/
  | enter (name : String)
  /-- the body is over -/
  | leave
  /-- dice are rolled -/
  | roll
  /-- a text is shown -/
  | display (text : String)
  /-- a pass of a loop is over -/
  | pass
  /-- something goes wrong -/
  | raise (fault : Fault)
  deriving Repr

/-- Ways to speak about computations that leave a state and may have a value. -/
class Account (R : Type → Type → Type) where
  /-- it ended with a value -/
  done {σ α : Type} : α → σ → R σ α
  /-- it needs more steps -/
  unfinished {σ α : Type} : R σ α
  /-- something goes wrong in a world and leaves a state -/
  raise {σ α : Type} : Fault → World → σ → R σ α
  /-- goes on after a computation that ended with a value -/
  bind {σ α β : Type} : R σ α → (α → σ → R σ β) → R σ β
  /-- has another state at the end -/
  mapState {σ τ α : Type} : (σ → τ) → R σ α → R τ α
  /-- has another error at the end -/
  mapError {σ α : Type} : (RuntimeError → RuntimeError) → R σ α → R σ α
  /-- an event in a world, and then the computation -/
  note {σ α : Type} : Record.Event → World → R σ α → R σ α
  /-- the computation and, if it ended with a value, an event in the world of its state -/
  noteEnd {σ α : Type} : Record.Event → (σ → World) → R σ α → R σ α

/-- An outcome says how a computation ends, and nothing of what happened. -/
instance : Account Outcome where
  done := .done
  unfinished := .unfinished
  raise f _ s := .failed (.ofFault f) s
  bind := .bind
  mapState := .mapState
  mapError := .mapError
  note _ _ o := o
  noteEnd _ _ o := o

/-! ## Where the variables are -/

/-- Where a running program has its variables and functions. An expression is evaluated in a scope,
which is known by a `κ`, and may change a state `ω`. The world is a part of the state. -/
class Realm (ω : Type) (κ : outParam Type) where
  world : ω → World
  /-- the state in another world -/
  inWorld : ω → World → ω
  /-- the value of a variable of the scope -/
  get : κ → String → ω → Except Fault Value
  /-- the function of a name -/
  function : Rules → String → ω → Except Fault Function
  /-- a scope for a call -/
  fresh : ω → κ × ω
  /-- binds a parameter in the scope of a call -/
  introduce : String → Value → κ → ω → Except Fault (κ × ω)

/-- What statements work on: a scope, which they may change, and a state. -/
class Site (τ : Type) (κ ω : outParam Type) where
  join : κ → ω → τ
  scope : τ → κ
  state : τ → ω
  /-- declares a variable in the scope -/
  declare : String → τ → Except Fault τ
  /-- gives a variable of the scope another value -/
  assign : String → Value → τ → Except Fault τ

/-- A scope is known by its variables. There are no scopes in the state. -/
instance : Realm World Scope where
  world w := w
  inWorld _ w := w
  get scope x _ := scope.get x
  function r name _ := Family.function ⟨r.functions, []⟩ name
  fresh w := (.empty, w)
  introduce p v scope w := (scope.introduce p v).map (·, w)

instance : Site Store Scope World where
  join := Store.mk
  scope := Store.scope
  state := Store.world
  declare x s := (s.scope.declare x).map (⟨·, s.world⟩)
  assign x v s := (s.scope.assign x v).map (⟨·, s.world⟩)

section Derived

variable {R : Type → Type → Type} {τ ω κ σ α : Type} [Account R] [Realm ω κ] [Site τ κ ω]

/-- The state with one more call in progress. -/
def Realm.deeper (w : ω) : ω :=
  inWorld w { world w with depth := (world w).depth + 1 }

/-- The state with one call less in progress. -/
def Realm.shallower (w : ω) : ω :=
  inWorld w { world w with depth := (world w).depth - 1 }

open Realm

/-- The world of what a statement works on. -/
abbrev Site.world (s : τ) : World :=
  Realm.world (state s)

/-- What a statement works on, in another world. -/
def Site.inWorld (s : τ) (w : World) : τ :=
  join (scope s) (Realm.inWorld (state s) w)

@[simp]
theorem Realm.world_world (w : World) : Realm.world w = w :=
  rfl

@[simp]
theorem Site.state_store (s : Store) : Site.state s = s.world :=
  rfl

theorem Site.world_store (s : Store) : Site.world s = s.world :=
  rfl

@[simp]
theorem Site.inWorld_store (s : Store) (w : World) : Site.inWorld s w = ⟨s.scope, w⟩ :=
  rfl

namespace Account

/-- Something goes wrong with an expression. -/
def fault (f : Fault) (w : ω) : R ω α :=
  raise f (world w) w

/-- An operation that leaves the state as it is. -/
def ofExcept (w : ω) : Except Fault α → R ω α
  | .ok a => done a w
  | .error f => fault f w

/-- An operation on the variables of the scope. -/
def update (s : τ) : Except Fault τ → R τ Signal
  | .ok s => done .next s
  | .error f => raise f (Site.world s) s

/-- The program has been asked to stop, and that is what happens. -/
def stop (s : τ) : R τ α :=
  raise .interrupted (Site.world s) (Site.inWorld s { Site.world s with interrupted := false })

/-- Rolls the dice that a value holds. -/
def roll (attempts : Nat) (v : Value) (w : ω) : R ω Value :=
  match v.dice? with
  | none => fault (.rollOf v.kind) w
  | some d =>
    match (world w).generator.roll attempts d with
    | .error f => fault f w
    | .ok none => unfinished
    | .ok (some (total, g)) =>
      note .roll (world w) (done (.int total) (inWorld w { world w with generator := g }))

/-- What a statement does with the value of an expression of its scope. -/
def thenAt (s : τ) (a : R ω α) (f : α → τ → R τ Signal) : R τ Signal :=
  bind (mapState (Site.join (Site.scope s)) a) f

/-- The value of a call of the function whose body does what is reported. -/
def leave (f : Function) (a : R τ Signal) : R ω Value :=
  bind (mapError (·.leaving f.name) (mapState (shallower ∘ Site.state)
    (noteEnd .leave Site.world a))) fun signal w => done signal.value w

end Account

end Derived

/-! ## The interpreter -/

/-- The answers of an interpreter to what no program says that was read from a text. -/
structure Evaluator (R : Type → Type → Type) (ω τ : Type) where
  /-- to a chain without operands -/
  noOperand : ω → R ω Value
  /-- to a chain without operators, whose first operand has a value -/
  noOperator : Value → ω → R ω Value
  /-- to an operator without an operand behind it, where what stands before has a value -/
  missingOperand : Value → ω → R ω Value
  /-- to an expression that is not there, or of a foreign kind -/
  otherExpression : String → ω → R ω Value
  /-- to a statement of a foreign kind -/
  otherStatement : String → τ → R τ Signal

namespace Evaluator

variable {R : Type → Type → Type} {ω κ τ : Type} [Account R] [Realm ω κ] [Site τ κ ω]

open Account Realm Site

/-- The usual answers. -/
def standard : Evaluator R ω τ where
  noOperand w := done .nothing w
  noOperator acc w := done acc w
  missingOperand acc w := done acc w
  otherExpression label w := fault (.unsupportedExpression label) w
  otherStatement label s := raise (.unsupportedStatement label) (Site.world s) s

mutual

/-- The value of an expression. -/
def eval (E : Evaluator R ω τ) (r : Rules) : (steps : Nat) → κ → Expr → ω → R ω Value
  | 0, _, _, _ => unfinished
  | n + 1, k, e, w =>
    match e with
    | .number v => done (.int v) w
    | .text s => done (.text s) w
    | .dice d => done (.dice d) w
    | .var x => ofExcept w (get k x w)
    | .call f args => call E r n k f args w
    | .roll operand => Account.bind (eval E r n k operand w) fun v w => roll n v w
    | .chain [] _ => E.noOperand w
    | .chain (first :: rest) operators =>
      Account.bind (eval E r n k first w) fun acc w =>
        match operators with
        | [] => E.noOperator acc w
        | _ :: _ =>
          if acc.isNumeric then chain E r n k acc rest operators w
          else fault .arithmeticOnOther w
    | .hole => E.otherExpression "<nil>" w
    | .foreign label => E.otherExpression label w
termination_by structural steps => steps

/-- The value of a chain whose first operands are worth `acc`. -/
def chain (E : Evaluator R ω τ) (r : Rules) :
    (steps : Nat) → κ → Value → List Expr → List ArithOp → ω → R ω Value
  | 0, _, _, _, _, _ => unfinished
  | _ + 1, _, acc, _, [], w => done acc w
  | _ + 1, _, acc, [], _ :: _, w => E.missingOperand acc w
  | n + 1, k, acc, operand :: rest, op :: ops, w =>
    Account.bind (eval E r n k operand w) fun v w =>
      match op.apply acc v with
      | .ok acc => chain E r n k acc rest ops w
      | .error f => fault f w
termination_by structural steps => steps

/-- The value of a call. -/
def call (E : Evaluator R ω τ) (r : Rules) :
    (steps : Nat) → κ → String → List Expr → ω → R ω Value
  | 0, _, _, _, _ => unfinished
  | n + 1, k, name, args, w =>
    match function r name w with
    | .error f => fault f w
    | .ok f =>
      if args.length ≠ f.parameters.length then
        fault (Rules.wrongCount args.length f.parameters.length) w
      else
        Account.bind (bindArguments E r n k f.parameters args (fresh w).1 (fresh w).2) fun c w =>
          note (.attempt f.name) (Realm.world w) <|
            if r.maxDepth ≤ (Realm.world w).depth then fault .tooDeep w
            else
              note (.enter f.name) (Realm.world w) <|
                leave f (block E r n f.body (join c (deeper w)))
termination_by structural steps => steps

/-- The scope `c` with each parameter bound to the value of its argument in the scope `k`. -/
def bindArguments (E : Evaluator R ω τ) (r : Rules) :
    (steps : Nat) → κ → List String → List Expr → κ → ω → R ω κ
  | 0, _, _, _, _, _ => unfinished
  | n + 1, k, p :: ps, arg :: args, c, w =>
    Account.bind (eval E r n k arg w) fun v w =>
      match introduce p v c w with
      | .ok (c, w) => bindArguments E r n k ps args c w
      | .error f => fault f w
  | _ + 1, _, _, _, c, w => done c w
termination_by structural steps => steps

/-- Whether a condition holds. -/
def test (E : Evaluator R ω τ) (r : Rules) : (steps : Nat) → κ → Condition → ω → R ω Bool
  | 0, _, _, _ => unfinished
  | n + 1, k, c, w =>
    Account.bind (eval E r n k c.left w) fun a w =>
      Account.bind (eval E r n k c.right w) fun b w => ofExcept w (c.op.holds a b)
termination_by structural steps => steps

/-- Carries out the statements of a block, if there are any. -/
def block (E : Evaluator R ω τ) (r : Rules) : (steps : Nat) → Block → τ → R τ Signal
  | 0, _, _ => unfinished
  | _ + 1, none, s => done .next s
  | n + 1, some statements, s => sequence E r n statements s
termination_by structural steps => steps

/-- Carries out statements one after the other until one returns. -/
def sequence (E : Evaluator R ω τ) (r : Rules) :
    (steps : Nat) → List Statement → τ → R τ Signal
  | 0, _, _ => unfinished
  | _ + 1, [], s => done .next s
  | n + 1, first :: rest, s =>
    Account.bind (statement E r n first s) fun signal s =>
      match signal with
      | .next => sequence E r n rest s
      | .returned v => done (.returned v) s
termination_by structural steps => steps

/-- Carries out a statement, unless the program has been asked to stop. -/
def statement (E : Evaluator R ω τ) (r : Rules) : (steps : Nat) → Statement → τ → R τ Signal
  | 0, _, _ => unfinished
  | n + 1, st, s =>
    note (.reach st) (Site.world s) <| mapError (·.onLine st.line) <|
      if (Site.world s).interrupted then stop s
      else noteEnd .finish Site.world (action E r n st s)
termination_by structural steps => steps

/-- Does what a statement says. -/
def action (E : Evaluator R ω τ) (r : Rules) : (steps : Nat) → Statement → τ → R τ Signal
  | 0, _, _ => unfinished
  | n + 1, st, s =>
    match st with
    | .declare _ _ x => update s (declare x s)
    | .assign _ x e =>
      thenAt s (eval E r n (scope s) e (state s)) fun v s => update s (assign x v s)
    | .attack _ _ _ => done .next s
    | .loop _ c body => loop E r n c body s
    | .branch _ c body alternative =>
      thenAt s (test E r n (scope s) c (state s)) fun holds s =>
        if holds then block E r n body s else block E r n alternative s
    | .log _ e =>
      thenAt s (eval E r n (scope s) e (state s)) fun v s =>
        note (.display v.format) (Site.world s) <|
          done .next (Site.inWorld s ((Site.world s).display v.format))
    | .give _ e =>
      thenAt s (eval E r n (scope s) e (state s)) fun v s => done (.returned v) s
    | .call _ f args =>
      thenAt s (call E r n (scope s) f args (state s)) fun _ s => done .next s
    | .foreign _ label => E.otherStatement label s
termination_by structural steps => steps

/-- Runs the body of a loop while its condition holds. -/
def loop (E : Evaluator R ω τ) (r : Rules) :
    (steps : Nat) → Condition → Block → τ → R τ Signal
  | 0, _, _, _ => unfinished
  | n + 1, c, body, s =>
    thenAt s (test E r n (scope s) c (state s)) fun holds s =>
      if holds then
        Account.bind (block E r n body s) fun signal s =>
          match signal with
          | .next =>
            note .pass (Site.world s) <|
              if (Site.world s).interrupted then stop s else loop E r n c body s
          | .returned v => done (.returned v) s
      else done .next s
termination_by structural steps => steps

end

/-- Carries out the body of a function whose parameters are bound in the scope `c`. -/
def enter (E : Evaluator R ω τ) (r : Rules) (steps : Nat) (f : Function) (c : κ) (w : ω) :
    R ω Value :=
  leave f (E.block r steps f.body (join c (deeper w)))

/-- Carries out the instructions of the top level. -/
def instructions (E : Evaluator R ω τ) (r : Rules) (steps : Nat) :
    List Statement → τ → R τ Unit
  | [], s => done () s
  | first :: rest, s =>
    Account.bind (E.statement r steps first s) fun _ s => instructions E r steps rest s

end Evaluator

end Adventure
