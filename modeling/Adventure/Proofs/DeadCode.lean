import Adventure.Proofs.Settled

/-!
# Code behind a certain return

A statement that is certain to return is one that gives a value, or a branch with an alternative
where both blocks have such a statement. What stands behind it in a block is never reached, so a
program without it does the same: `Machine.pruned_alike`.

There are two parts. A statement that is certain to return does not ask to go on, whatever the rules
(`Rules.leaves_statement`); this follows the syntax. And a program that is cut everywhere at once,
in the bodies of its functions too, is carried out as before (`Rules.prunedAt`); this is an
induction on the number of steps, which are as many for both.
-/

namespace Adventure

/-! ## Cutting programs -/

namespace Statement

mutual

/-- Whether the statement is certain to return: it gives a value, or it is a branch both ways of
which are certain to return. -/
def returns : Statement → Bool
  | .give .. => true
  | .branch _ _ body alternative => blockReturns body && blockReturns alternative
  | .declare .. | .assign .. | .attack .. | .loop .. | .log .. | .call .. | .foreign .. => false

/-- Whether there is a block and it has a statement that is certain to return. -/
def blockReturns : Option (List Statement) → Bool
  | none => false
  | some statements => someReturns statements

/-- Whether some of the statements are certain to return. -/
def someReturns : List Statement → Bool
  | [] => false
  | st :: more => st.returns || someReturns more

end

mutual

/-- The statement with its blocks cut. -/
def pruned : Statement → Statement
  | .loop line c body => .loop line c (blockPruned body)
  | .branch line c body alternative =>
    .branch line c (blockPruned body) (blockPruned alternative)
  | .declare line type x => .declare line type x
  | .assign line x e => .assign line x e
  | .attack line attacker defender => .attack line attacker defender
  | .log line e => .log line e
  | .give line e => .give line e
  | .call line f args => .call line f args
  | .foreign line label => .foreign line label

/-- The block, cut at every depth. -/
def blockPruned : Option (List Statement) → Option (List Statement)
  | none => none
  | some statements => some (upToReturn statements)

/-- The statements up to the first one that is certain to return, with their blocks cut. -/
def upToReturn : List Statement → List Statement
  | [] => []
  | st :: more => if st.returns then [st.pruned] else st.pruned :: upToReturn more

end

/-- Statements stay on their lines. -/
@[simp] theorem line_pruned (st : Statement) : st.pruned.line = st.line := by
  cases st <;> simp only [pruned, line]

mutual

/-- Cutting does not change what is certain to return. -/
theorem returns_pruned : ∀ st : Statement, st.pruned.returns = st.returns
  | .branch line c body alternative => by
    rw [pruned, returns, returns, blockReturns_blockPruned body,
      blockReturns_blockPruned alternative]
  | .loop .. | .declare .. | .assign .. | .attack .. | .log .. | .give .. | .call ..
  | .foreign .. => by simp only [pruned, returns]

theorem blockReturns_blockPruned : ∀ b : Option (List Statement),
    blockReturns (blockPruned b) = blockReturns b
  | none => by rw [blockPruned]
  | some statements => by
    rw [blockPruned, blockReturns, blockReturns, someReturns_upToReturn statements]

theorem someReturns_upToReturn : ∀ statements : List Statement,
    someReturns (upToReturn statements) = someReturns statements
  | [] => by rw [upToReturn]
  | st :: more => by
    have hst := returns_pruned st
    have hmore := someReturns_upToReturn more
    rw [upToReturn]
    by_cases h : st.returns = true
    · simp [someReturns, hst, h]
    · simp [someReturns, hst, hmore, h]

end

mutual

/-- Nothing is left to cut. -/
theorem pruned_pruned : ∀ st : Statement, st.pruned.pruned = st.pruned
  | .loop line c body => by simp only [pruned, blockPruned_blockPruned body]
  | .branch line c body alternative => by
    simp only [pruned, blockPruned_blockPruned body, blockPruned_blockPruned alternative]
  | .declare .. | .assign .. | .attack .. | .log .. | .give .. | .call .. | .foreign .. => by
    simp only [pruned]

theorem blockPruned_blockPruned : ∀ b : Option (List Statement),
    blockPruned (blockPruned b) = blockPruned b
  | none => by rw [blockPruned, blockPruned]
  | some statements => by rw [blockPruned, blockPruned, upToReturn_upToReturn statements]

theorem upToReturn_upToReturn : ∀ statements : List Statement,
    upToReturn (upToReturn statements) = upToReturn statements
  | [] => by rw [upToReturn, upToReturn]
  | st :: more => by
    have hst := pruned_pruned st
    have hmore := upToReturn_upToReturn more
    have hreturns := returns_pruned st
    by_cases h : st.returns = true
    · simp [upToReturn, h, hreturns, hst]
    · simp [upToReturn, h, hreturns, hst, hmore]

end

end Statement

/-- The function with its body cut. -/
def Function.pruned (f : Function) : Function :=
  { f with body := Statement.blockPruned f.body }

/-- There is nothing to be left out twice. -/
theorem Function.pruned_pruned (f : Function) : f.pruned.pruned = f.pruned := by
  simp only [pruned, Statement.blockPruned_blockPruned]

/-- The program with all blocks cut. The instructions of the top level are no block: a return there
has nothing to return from, and what stands behind it is carried out. -/
def Program.pruned (p : Program) : Program :=
  ⟨p.templates, p.functions.map (·.pruned), p.instructions.map (·.pruned)⟩

/-! ## What is certain to return does not go on -/

/-- The outcome does not ask to go on: it is a return or an error, or there are not enough steps. -/
def Outcome.Leaves (o : Outcome Store Signal) : Prop :=
  ∀ s, o ≠ .done .next s

namespace Outcome.Leaves

/-- A failure goes no further. -/
theorem failed (e : RuntimeError) (s : Store) : (Outcome.failed e s).Leaves := by
  intro s' h
  cases h

/-- A return goes no further. -/
theorem returned (v : Value) (s : Store) : (Outcome.done (.returned v) s).Leaves := by
  intro s' h
  cases h

/-- What does not end goes no further. -/
theorem unfinished : Outcome.unfinished.Leaves := by
  intro s' h
  cases h

/-- After a computation it is for what follows to leave. -/
theorem bind {α : Type} {o : Outcome Store α} {f : α → Store → Outcome Store Signal}
    (h : ∀ a s, (f a s).Leaves) : (o.bind f).Leaves := by
  cases o with
  | done a s => exact h a s
  | failed e s => exact .failed e s
  | unfinished => exact .unfinished

/-- Another error goes no further either. -/
theorem mapError {o : Outcome Store Signal} (h : o.Leaves) (g : RuntimeError → RuntimeError) :
    (o.mapError g).Leaves := by
  cases o with
  | done signal s => exact h
  | failed e s => exact .failed _ s
  | unfinished => exact .unfinished

end Outcome.Leaves

open Outcome (Leaves)

namespace Rules

variable {r : Rules}

/-- What stands behind a statement that leaves does not matter. -/
theorem sequence_of_leaves {n : Nat} {first : Statement} {s : Store}
    (h : (r.statement n first s).Leaves) (rest : List Statement) :
    r.sequence (n + 1) (first :: rest) s = r.statement n first s := by
  rw [sequence]
  rcases hfirst : r.statement n first s with ⟨- | v, s'⟩ | ⟨e, s'⟩ | -
  · exact absurd hfirst (h s')
  · rfl
  · rfl
  · rfl

mutual

theorem leaves_action : ∀ st : Statement, st.returns = true → ∀ n s, (r.action n st s).Leaves
  | st, _, 0, s => by
    rw [action]
    exact .unfinished
  | .give line e, _, n + 1, s => by
    simp only [action]
    exact .bind fun v s => .returned v s
  | .branch line c body alternative, h, n + 1, s => by
    rw [Statement.returns, Bool.and_eq_true] at h
    simp only [action]
    refine .bind fun holds s => ?_
    cases holds with
    | true => exact leaves_block body h.1 n s
    | false => exact leaves_block alternative h.2 n s

/-- A statement that is certain to return does not ask to go on. -/
theorem leaves_statement : ∀ st : Statement, st.returns = true →
    ∀ n s, (r.statement n st s).Leaves
  | st, h, 0, s => by
    rw [statement]
    exact .unfinished
  | st, h, n + 1, s => by
    rw [statement]
    split
    · exact .failed _ _
    · exact (leaves_action st h n s).mapError _

theorem leaves_block : ∀ b : Block, Statement.blockReturns b = true →
    ∀ n s, (r.block n b s).Leaves
  | b, _, 0, s => by
    rw [block]
    exact .unfinished
  | some statements, h, n + 1, s => by
    rw [Statement.blockReturns] at h
    rw [block]
    exact leaves_sequence statements h n s

theorem leaves_sequence : ∀ statements : List Statement,
    Statement.someReturns statements = true → ∀ n s, (r.sequence n statements s).Leaves
  | statements, _, 0, s => by
    rw [sequence]
    exact .unfinished
  | first :: rest, h, n + 1, s => by
    rw [Statement.someReturns, Bool.or_eq_true] at h
    rcases h with h | h
    · have hfirst := leaves_statement first h n s
      rwa [sequence_of_leaves hfirst]
    · rw [sequence_cons]
      refine .bind fun signal s => ?_
      cases signal with
      | next => exact leaves_sequence rest h n s
      | returned v => exact .returned v s

end

end Rules

/-! ## Programs that are cut do the same -/

/-- The rules with all functions cut. -/
def Rules.pruned (r : Rules) : Rules :=
  { r with functions := r.functions.map (·.pruned) }

namespace Rules

/-- With `n` steps, everything is carried out as before where functions and blocks are cut. -/
structure PrunedAt (r : Rules) (n : Nat) : Prop where
  eval : ∀ scope e w, r.pruned.eval n scope e w = r.eval n scope e w
  chain : ∀ scope acc operands ops w,
    r.pruned.chain n scope acc operands ops w = r.chain n scope acc operands ops w
  call : ∀ scope f args w, r.pruned.call n scope f args w = r.call n scope f args w
  bindArguments : ∀ scope ps args callee w,
    r.pruned.bindArguments n scope ps args callee w = r.bindArguments n scope ps args callee w
  test : ∀ scope c w, r.pruned.test n scope c w = r.test n scope c w
  block : ∀ b s, r.pruned.block n (Statement.blockPruned b) s = r.block n b s
  sequence : ∀ statements s,
    r.pruned.sequence n (Statement.upToReturn statements) s = r.sequence n statements s
  statement : ∀ st s, r.pruned.statement n st.pruned s = r.statement n st s
  action : ∀ st s, r.pruned.action n st.pruned s = r.action n st s
  loop : ∀ c body s, r.pruned.loop n c (Statement.blockPruned body) s = r.loop n c body s

section Induction

variable {r : Rules} {n : Nat}

theorem prunedAt_zero : PrunedAt r 0 := by
  constructor
  all_goals
    intros
    rfl

/-- Expressions are the same. -/
theorem eval_pruned (ih : PrunedAt r n) (scope : Scope) (e : Expr) (w : World) :
    r.pruned.eval (n + 1) scope e w = r.eval (n + 1) scope e w := by
  cases e with
  | chain operands operators =>
    rcases operands with - | ⟨first, rest⟩ <;> simp only [eval, ih.eval, ih.chain]
  | number v | text s | dice d | var x | call f args | roll operand | hole | «foreign» label =>
    simp only [eval, ih.eval, ih.call]

theorem chain_pruned (ih : PrunedAt r n) (scope : Scope) (acc : Value) (operands : List Expr)
    (operators : List ArithOp) (w : World) :
    r.pruned.chain (n + 1) scope acc operands operators w =
      r.chain (n + 1) scope acc operands operators w := by
  rcases operands with - | ⟨operand, rest⟩ <;> rcases operators with - | ⟨op, ops⟩ <;>
    simp only [chain, ih.eval, ih.chain]

theorem bindArguments_pruned (ih : PrunedAt r n) (scope : Scope) (parameters : List String)
    (args : List Expr) (callee : Scope) (w : World) :
    r.pruned.bindArguments (n + 1) scope parameters args callee w =
      r.bindArguments (n + 1) scope parameters args callee w := by
  rcases parameters with - | ⟨p, ps⟩ <;> rcases args with - | ⟨arg, args⟩ <;>
    simp only [bindArguments, ih.eval, ih.bindArguments]

/-- A call finds the function with its dead code left out. -/
theorem call_pruned (ih : PrunedAt r n) (scope : Scope) (name : String) (args : List Expr)
    (w : World) : r.pruned.call (n + 1) scope name args w = r.call (n + 1) scope name args w := by
  have hlookup : lookupFunction r.pruned.functions name =
      (lookupFunction r.functions name).map (·.pruned) :=
    lookupFunction_map (·.pruned) (fun _ => rfl) r.functions name
  have henter : ∀ f callee w, r.pruned.enter n (Function.pruned f) callee w =
      r.enter n f callee w := by
    intro f callee w
    rw [enter, enter, ← ih.block]
    rfl
  rw [call_succ, call_succ, hlookup]
  rcases lookupFunction r.functions name with - | f
  · rfl
  simp only [Option.map_some, henter, ih.bindArguments]
  rfl

theorem test_pruned (ih : PrunedAt r n) (scope : Scope) (c : Condition) (w : World) :
    r.pruned.test (n + 1) scope c w = r.test (n + 1) scope c w := by
  simp only [test, ih.eval]

/-- A block does the same without its dead code. -/
theorem block_pruned (ih : PrunedAt r n) (b : Block) (s : Store) :
    r.pruned.block (n + 1) (Statement.blockPruned b) s = r.block (n + 1) b s := by
  rcases b with - | statements
  · simp only [Statement.blockPruned, block]
  · simp only [Statement.blockPruned, block, ih.sequence]

/-- The one place where something is cut: the statement before the cut leaves. -/
theorem sequence_pruned (ih : PrunedAt r n) (statements : List Statement) (s : Store) :
    r.pruned.sequence (n + 1) (Statement.upToReturn statements) s =
      r.sequence (n + 1) statements s := by
  rcases statements with - | ⟨first, rest⟩
  · simp only [Statement.upToReturn, sequence]
  rw [Statement.upToReturn]
  by_cases h : first.returns = true
  · have hfirst : (r.statement n first s).Leaves := leaves_statement first h n s
    have hpruned : (r.pruned.statement n first.pruned s).Leaves := by
      rwa [ih.statement]
    rw [if_pos h, sequence_of_leaves hpruned, sequence_of_leaves hfirst, ih.statement]
  · rw [if_neg h]
    simp only [sequence_cons, ih.statement, ih.sequence]

/-- A statement does the same without its dead code. -/
theorem statement_pruned (ih : PrunedAt r n) (st : Statement) (s : Store) :
    r.pruned.statement (n + 1) st.pruned s = r.statement (n + 1) st s := by
  simp only [statement, Statement.line_pruned, ih.action]

/-- What a statement says is done in the same way without its dead code. -/
theorem action_pruned (ih : PrunedAt r n) (st : Statement) (s : Store) :
    r.pruned.action (n + 1) st.pruned s = r.action (n + 1) st s := by
  cases st with
  | loop line c body => simp only [Statement.pruned, action, ih.loop]
  | branch line c body alternative => simp only [Statement.pruned, action, ih.test, ih.block]
  | declare line type x | assign line x e | attack line attacker defender | log line e
  | give line e | call line f args | «foreign» line label =>
    simp only [Statement.pruned, action, ih.eval, ih.call]

/-- A loop has as many passes without its dead code. -/
theorem loop_pruned (ih : PrunedAt r n) (c : Condition) (body : Block) (s : Store) :
    r.pruned.loop (n + 1) c (Statement.blockPruned body) s = r.loop (n + 1) c body s := by
  simp only [loop, ih.test, ih.block, ih.loop]

end Induction

/-- **What is cut is carried out as before**, with any number of steps. -/
theorem prunedAt (r : Rules) (n : Nat) : PrunedAt r n := by
  induction n with
  | zero => exact prunedAt_zero
  | succ n ih =>
    exact
      { eval := eval_pruned ih
        chain := chain_pruned ih
        call := call_pruned ih
        bindArguments := bindArguments_pruned ih
        test := test_pruned ih
        block := block_pruned ih
        sequence := sequence_pruned ih
        statement := statement_pruned ih
        action := action_pruned ih
        loop := loop_pruned ih }

/-- Instructions of the top level are carried out as before where their blocks are cut. -/
theorem instructions_pruned (r : Rules) (n : Nat) (statements : List Statement) (s : Store) :
    r.pruned.instructions n (statements.map (·.pruned)) s = r.instructions n statements s := by
  induction statements generalizing s with
  | nil => rfl
  | cons first rest ih =>
    simp only [List.map_cons, instructions_cons, (prunedAt r n).statement, ih]

/-- So it is with rules that only agree in the functions once these are cut. -/
theorem instructions_of_pruned_eq {r r' : Rules} (h : r'.pruned = r.pruned) (n : Nat)
    (statements : List Statement) (s : Store) :
    r'.instructions n (statements.map (·.pruned)) s = r.instructions n statements s := by
  have hcut : (statements.map (·.pruned)).map (·.pruned) = statements.map (·.pruned) := by
    simp [Statement.pruned_pruned]
  rw [← instructions_pruned r', h, hcut, instructions_pruned]

end Rules

/-! ## Machines -/

namespace Machine

/-- The machine with its program cut. -/
def pruned (m : Machine) : Machine :=
  { m with
    instructions := m.instructions.map (·.pruned)
    functions := m.functions.map (·.pruned) }

/-- Cutting a program has no part in whether it can be registered. -/
theorem clash_pruned (m : Machine) (p : Program) : m.clash p.pruned = m.clash p := by
  simp only [clash, Program.pruned, List.map_map]
  rfl

/-- Dead code has nothing to do with what can be registered. -/
theorem load_pruned (m : Machine) (p : Program) :
    m.load p.pruned = (m.load p).map fun m' =>
      { m' with functions := m.functions ++ p.functions.map (·.pruned) } := by
  rw [load, load, clash_pruned]
  rcases m.clash p with - | ⟨name, line⟩ <;> rfl

/-- A machine is made of a program without its dead code as of the program. -/
theorem ofProgram_pruned (p : Program) (g : Generator) :
    ofProgram p.pruned g = (ofProgram p g).map (·.pruned) := by
  rw [ofProgram, ofProgram, load_pruned, load, load]
  have hclash : (blank p.pruned.instructions g).clash p = (blank p.instructions g).clash p := rfl
  rw [hclash]
  rcases (blank p.instructions g).clash p with - | ⟨name, line⟩ <;> rfl

/-- A run does the same without dead code. -/
theorem state_run_pruned (m : Machine) (steps : Nat) :
    (m.pruned.run steps).mapState state = (m.run steps).mapState state := by
  rw [run, run, state_perform, state_perform]
  exact Rules.instructions_pruned m.quiet.rules steps m.instructions m.quiet.state

/-- The functions of the added program are cut and those that the machine had are not, so both sides
are compared with the rules where all functions are cut. -/
theorem state_evaluate_pruned (m : Machine) (steps : Nat) (p : Program) :
    (m.evaluate steps p.pruned).mapState state = (m.evaluate steps p).mapState state := by
  rw [evaluate, evaluate, load_pruned]
  rcases hload : m.quiet.load p with e | m'
  · rfl
  have hfunctions : m'.functions = m.functions ++ p.functions := by
    rw [load] at hload
    split at hload <;> cases hload
    rfl
  simp only [Except.map, state_perform]
  refine Rules.instructions_of_pruned_eq ?_ steps p.instructions m'.state
  simp only [Rules.pruned, rules, hfunctions, quiet, List.map_append, List.map_map,
    Function.comp_def, Function.pruned_pruned]

/-- **Code behind a certain return is dead.** If in every block of a program, at any depth, the
statements behind the first one that is certain to return are taken out, then it is registered as
before or fails to be in the same way, and it is carried out as before with any number of steps, be
it run or handed to a machine in any state, whatever asks it to stop: the error is the same if there
is one, and so are the variables of the top level, what is shown, the generator and the request to
stop. It takes as many steps, so the one does not end if the other does not. -/
theorem pruned_alike (p : Program) :
    (∀ g, ofProgram p.pruned g = (ofProgram p g).map (·.pruned)) ∧
    (∀ (m : Machine) (steps : Nat),
      (m.pruned.run steps).mapState state = (m.run steps).mapState state) ∧
    ∀ (m : Machine) (steps : Nat),
      (m.evaluate steps p.pruned).mapState state = (m.evaluate steps p).mapState state :=
  ⟨ofProgram_pruned p, state_run_pruned, fun m steps => state_evaluate_pruned m steps p⟩

end Machine

end Adventure
