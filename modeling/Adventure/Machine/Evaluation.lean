import Adventure.Machine.World
import Adventure.Value.Arithmetic

/-!
# Carrying out expressions and statements

The functions here take a number of steps, which is how deep they may go: into an expression, along
a list, around a loop or into a call. A computation that needs more is unfinished. More steps never
change an outcome, and only loops can need more than any number.

Operands and arguments are evaluated from left to right, and the first failure ends everything. The
arguments of a call are evaluated in the scope of the caller; the body sees its own scope alone.

Every statement first looks whether the program has been asked to stop, and so does every loop
after each pass. An error gets the line of the innermost statement around it, and the name of each
function that it leaves.
-/

namespace Adventure

/-- What a statement asks of the statements around it. -/
inductive Signal where
  /-- to go on -/
  | next
  /-- to leave the function with a value -/
  | returned (v : Value)

/-- What a call is worth whose body ended with the signal. -/
def Signal.value : Signal → Value
  | next => .nothing
  | returned v => v

namespace Rules

/-- The fault of a call with the wrong number of arguments. -/
def wrongCount (arguments parameters : Nat) : Fault :=
  if arguments < parameters then .missingArguments (parameters - arguments)
  else .extraArguments (arguments - parameters)

mutual

/-- The value of an expression. -/
def eval (r : Rules) : (steps : Nat) → Scope → Expr → World → Outcome World Value
  | 0, _, _, _ => .unfinished
  | n + 1, scope, e, w =>
    match e with
    | .number v => .done (.int v) w
    | .text s => .done (.text s) w
    | .dice d => .done (.dice d) w
    | .var x => .ofExcept w (scope.get x)
    | .call f args => call r n scope f args w
    | .roll operand => (eval r n scope operand w).bind fun v w => w.roll n v
    | .chain [] _ => .done .nothing w
    | .chain (first :: rest) operators =>
      (eval r n scope first w).bind fun acc w =>
        match operators with
        | [] => .done acc w
        | _ :: _ =>
          if acc.isNumeric then chain r n scope acc rest operators w
          else .failed (.ofFault .arithmeticOnOther) w
    | .hole => .failed (.ofFault (.unsupportedExpression "<nil>")) w
    | .foreign label => .failed (.ofFault (.unsupportedExpression label)) w

/-- The value of a chain whose first operands are worth `acc`. -/
def chain (r : Rules) :
    (steps : Nat) → Scope → Value → List Expr → List ArithOp → World → Outcome World Value
  | 0, _, _, _, _, _ => .unfinished
  | n + 1, scope, acc, operand :: rest, op :: ops, w =>
    (eval r n scope operand w).bind fun v w =>
      match op.apply acc v with
      | .ok acc => chain r n scope acc rest ops w
      | .error f => .failed (.ofFault f) w
  | _ + 1, _, acc, _, _, w => .done acc w

/-- The value of a call. -/
def call (r : Rules) : (steps : Nat) → Scope → String → List Expr → World → Outcome World Value
  | 0, _, _, _, _ => .unfinished
  | n + 1, scope, name, args, w =>
    match lookupFunction r.functions name with
    | none => .failed (.ofFault (.undefined name)) w
    | some f =>
      if args.length ≠ f.parameters.length then
        .failed (.ofFault (wrongCount args.length f.parameters.length)) w
      else
        (bindArguments r n scope f.parameters args .empty w).bind fun callee w =>
          if r.maxDepth ≤ w.depth then .failed (.ofFault .tooDeep) w
          else
            match block r n f.body ⟨callee, { w with depth := w.depth + 1 }⟩ with
            | .done signal s => .done signal.value { s.world with depth := s.world.depth - 1 }
            | .failed e s => .failed (e.leaving f.name) { s.world with depth := s.world.depth - 1 }
            | .unfinished => .unfinished

/-- The scope `callee` with each parameter bound to the value of its argument. -/
def bindArguments (r : Rules) :
    (steps : Nat) → Scope → List String → List Expr → Scope → World → Outcome World Scope
  | 0, _, _, _, _, _ => .unfinished
  | n + 1, scope, p :: ps, arg :: args, callee, w =>
    (eval r n scope arg w).bind fun v w =>
      match callee.introduce p v with
      | .ok callee => bindArguments r n scope ps args callee w
      | .error f => .failed (.ofFault f) w
  | _ + 1, _, _, _, callee, w => .done callee w

/-- Whether a condition holds. -/
def test (r : Rules) : (steps : Nat) → Scope → Condition → World → Outcome World Bool
  | 0, _, _, _ => .unfinished
  | n + 1, scope, c, w =>
    (eval r n scope c.left w).bind fun a w =>
      (eval r n scope c.right w).bind fun b w => .ofExcept w (c.op.holds a b)

/-- Carries out the statements of a block, if there are any. -/
def block (r : Rules) : (steps : Nat) → Block → Store → Outcome Store Signal
  | 0, _, _ => .unfinished
  | _ + 1, none, s => .done .next s
  | n + 1, some statements, s => sequence r n statements s

/-- Carries out statements one after the other until one returns. -/
def sequence (r : Rules) : (steps : Nat) → List Statement → Store → Outcome Store Signal
  | 0, _, _ => .unfinished
  | _ + 1, [], s => .done .next s
  | n + 1, first :: rest, s =>
    match statement r n first s with
    | .done .next s => sequence r n rest s
    | .done (.returned v) s => .done (.returned v) s
    | .failed e s => .failed e s
    | .unfinished => .unfinished

/-- Carries out a statement, unless the program has been asked to stop. -/
def statement (r : Rules) : (steps : Nat) → Statement → Store → Outcome Store Signal
  | 0, _, _ => .unfinished
  | n + 1, st, s =>
    if s.world.interrupted then
      .failed ((RuntimeError.ofFault .interrupted).onLine st.line)
        { s with world.interrupted := false }
    else (action r n st s).mapError (·.onLine st.line)

/-- Does what a statement says. -/
def action (r : Rules) : (steps : Nat) → Statement → Store → Outcome Store Signal
  | 0, _, _ => .unfinished
  | n + 1, st, s =>
    match st with
    | .declare _ _ x =>
      match s.scope.declare x with
      | .ok scope => .done .next { s with scope }
      | .error f => .failed (.ofFault f) s
    | .assign _ x e =>
      ((eval r n s.scope e s.world).mapState (⟨s.scope, ·⟩)).bind fun v s =>
        match s.scope.assign x v with
        | .ok scope => .done .next { s with scope }
        | .error f => .failed (.ofFault f) s
    | .attack _ _ _ => .done .next s
    | .loop _ c body => loop r n c body s
    | .branch _ c body alternative =>
      ((test r n s.scope c s.world).mapState (⟨s.scope, ·⟩)).bind fun holds s =>
        if holds then block r n body s else block r n alternative s
    | .log _ e =>
      ((eval r n s.scope e s.world).mapState (⟨s.scope, ·⟩)).bind fun v s =>
        .done .next { s with world := s.world.display v.format }
    | .give _ e =>
      ((eval r n s.scope e s.world).mapState (⟨s.scope, ·⟩)).bind fun v s => .done (.returned v) s
    | .call _ f args =>
      ((call r n s.scope f args s.world).mapState (⟨s.scope, ·⟩)).bind fun _ s => .done .next s
    | .foreign _ label => .failed (.ofFault (.unsupportedStatement label)) s

/-- Runs the body of a loop while its condition holds. -/
def loop (r : Rules) : (steps : Nat) → Condition → Block → Store → Outcome Store Signal
  | 0, _, _, _ => .unfinished
  | n + 1, c, body, s =>
    match test r n s.scope c s.world with
    | .done false w => .done .next ⟨s.scope, w⟩
    | .done true w =>
      match block r n body ⟨s.scope, w⟩ with
      | .done .next s =>
        if s.world.interrupted then
          .failed (.ofFault .interrupted) { s with world.interrupted := false }
        else loop r n c body s
      | .done (.returned v) s => .done (.returned v) s
      | .failed e s => .failed e s
      | .unfinished => .unfinished
    | .failed e w => .failed e ⟨s.scope, w⟩
    | .unfinished => .unfinished

end

/-- Carries out the instructions of the top level, where there is nothing to return from. Each has
its own number of steps. -/
def instructions (r : Rules) (steps : Nat) : List Statement → Store → Outcome Store Unit
  | [], s => .done () s
  | first :: rest, s =>
    match statement r steps first s with
    | .done _ s => instructions r steps rest s
    | .failed e s => .failed e s
    | .unfinished => .unfinished

end Rules

end Adventure
