import Adventure.Proofs.Echo
import Adventure.Proofs.Pieces

/-!
# What has no effect

Attack moves, the type names of declarations and templates are part of a program, but nothing comes
of them when it runs. Two programs that differ in nothing else do the same, as long as they are not
asked to stop: `Machine.inert_parts_change_nothing`.

A program is made bare by leaving these out, and programs that differ in nothing else are those that
have the same bare form. An attack move takes steps, though, and it is a place where a request to
stop is found. So the programs are compared as in `Adventure.Proofs.Echo`: each one is echoed by the
other. The relation is the same in both directions, and so is the proof (`Rules.echoedAt`).
-/

namespace Adventure

/-! ## Bare programs -/

namespace Statement

/-- Whether the statement is an attack move. -/
def isAttack : Statement → Bool
  | .attack .. => true
  | .declare .. | .assign .. | .loop .. | .branch .. | .log .. | .give .. | .call ..
  | .foreign .. => false

mutual

/-- The statement with no type names, and with no attack moves in its blocks. -/
def bare : Statement → Statement
  | .declare line _ x => .declare line "" x
  | .loop line c body => .loop line c (blockBare body)
  | .branch line c body alternative => .branch line c (blockBare body) (blockBare alternative)
  | .assign line x e => .assign line x e
  | .attack line attacker defender => .attack line attacker defender
  | .log line e => .log line e
  | .give line e => .give line e
  | .call line f args => .call line f args
  | .foreign line label => .foreign line label

/-- The block with no type names and no attack moves. -/
def blockBare : Option (List Statement) → Option (List Statement)
  | none => none
  | some statements => some (allBare statements)

/-- The statements with no type names, without those that are attack moves. -/
def allBare : List Statement → List Statement
  | [] => []
  | st :: more => if st.isAttack then allBare more else st.bare :: allBare more

end

/-- How two statements look that have the same bare form. -/
inductive Alike : Statement → Statement → Prop where
  | declare (line : Int) (type type' x : String) :
      Alike (.declare line type x) (.declare line type' x)
  | assign (line : Int) (x : String) (e : Expr) : Alike (.assign line x e) (.assign line x e)
  | attack (line : Int) (attacker defender : String) :
      Alike (.attack line attacker defender) (.attack line attacker defender)
  | loop (line : Int) (c : Condition) {body body' : Block}
      (hbody : blockBare body' = blockBare body) : Alike (.loop line c body) (.loop line c body')
  | branch (line : Int) (c : Condition) {body body' alternative alternative' : Block}
      (hbody : blockBare body' = blockBare body)
      (halternative : blockBare alternative' = blockBare alternative) :
      Alike (.branch line c body alternative) (.branch line c body' alternative')
  | log (line : Int) (e : Expr) : Alike (.log line e) (.log line e)
  | give (line : Int) (e : Expr) : Alike (.give line e) (.give line e)
  | call (line : Int) (f : String) (args : List Expr) :
      Alike (.call line f args) (.call line f args)
  | foreign (line : Int) (label : String) : Alike (.foreign line label) (.foreign line label)

/-- Statements that are the same without attacks are alike. -/
theorem Alike.of_bare_eq {st st' : Statement} (h : st'.bare = st.bare) : Alike st st' := by
  cases st <;> cases st' <;> rw [bare, bare] at h
  case loop.loop =>
    obtain ⟨rfl, rfl, hbody⟩ := (loop.injEq ..).mp h
    exact .loop _ _ hbody
  case branch.branch =>
    obtain ⟨rfl, rfl, hbody, halternative⟩ := (branch.injEq ..).mp h
    exact .branch _ _ hbody halternative
  all_goals cases h
  all_goals constructor

/-- Statements that are alike have the same line. -/
theorem Alike.line_eq {st st' : Statement} (h : Alike st st') : st'.line = st.line := by
  cases h <;> rfl

/-- How two lists of statements look that have the same bare form: either may have an attack move
that the other one does not have. -/
inductive Matched : List Statement → List Statement → Prop where
  | nil : Matched [] []
  | attackFirst {line : Int} {attacker defender : String} {rest rest' : List Statement}
      (h : Matched rest rest') : Matched (.attack line attacker defender :: rest) rest'
  | attackSecond {line : Int} {attacker defender : String} {rest rest' : List Statement}
      (h : Matched rest rest') : Matched rest (.attack line attacker defender :: rest')
  | cons {st st' : Statement} {rest rest' : List Statement} (hst : Alike st st')
      (h : Matched rest rest') : Matched (st :: rest) (st' :: rest')

theorem isAttack_iff {st : Statement} :
    st.isAttack = true ↔ ∃ line attacker defender, st = .attack line attacker defender := by
  cases st <;> simp [isAttack]

@[simp] theorem allBare_nil : allBare [] = [] := by
  rw [allBare]

@[simp] theorem allBare_attack (line : Int) (attacker defender : String)
    (rest : List Statement) :
    allBare (.attack line attacker defender :: rest) = allBare rest := by
  rw [allBare, isAttack, if_pos rfl]

/-- A statement that is no attack stays, without the attacks in it. -/
theorem allBare_cons {st : Statement} (h : ¬st.isAttack = true) (rest : List Statement) :
    allBare (st :: rest) = st.bare :: allBare rest := by
  rw [allBare, if_neg h]

/-- The attack moves in front of the second list are taken off first. -/
theorem Matched.of_allBare_eq {statements statements' : List Statement}
    (h : allBare statements' = allBare statements) : Matched statements statements' := by
  induction statements' generalizing statements with
  | nil =>
    induction statements with
    | nil => exact .nil
    | cons st rest ih =>
      -- an attack at the front of either list is left out, else both begin with the same statement
      by_cases hst : st.isAttack = true
      · obtain ⟨line, attacker, defender, rfl⟩ := isAttack_iff.mp hst
        exact .attackFirst (ih (by simpa using h))
      · rw [allBare_cons hst, allBare_nil] at h
        cases h
  | cons st' rest' ih' =>
    by_cases hst' : st'.isAttack = true
    · obtain ⟨line, attacker, defender, rfl⟩ := isAttack_iff.mp hst'
      exact .attackSecond (ih' (by simpa using h))
    · induction statements with
      | nil =>
        rw [allBare_cons hst', allBare_nil] at h
        cases h
      | cons st rest ih =>
        by_cases hst : st.isAttack = true
        · obtain ⟨line, attacker, defender, rfl⟩ := isAttack_iff.mp hst
          exact .attackFirst (ih (by simpa using h))
        · rw [allBare_cons hst, allBare_cons hst'] at h
          obtain ⟨hhead, htail⟩ := List.cons.inj h
          exact .cons (.of_bare_eq hhead) (ih' htail)

end Statement

/-- The function with no type names and no attack moves in its body. -/
def Function.bare (f : Function) : Function :=
  { f with body := Statement.blockBare f.body }

/-- Functions that have the same bare forms are found under the same names. -/
theorem lookupFunction_of_bare_eq {functions functions' : List Function}
    (h : functions'.map (·.bare) = functions.map (·.bare)) (name : String) :
    (lookupFunction functions name = none ∧ lookupFunction functions' name = none) ∨
      ∃ f f', lookupFunction functions name = some f ∧ lookupFunction functions' name = some f' ∧
        f'.bare = f.bare := by
  have hlookup : (lookupFunction functions' name).map (·.bare) =
      (lookupFunction functions name).map (·.bare) := by
    rw [← lookupFunction_map (·.bare) (fun _ => rfl), h,
      lookupFunction_map (·.bare) (fun _ => rfl)]
  rcases hf : lookupFunction functions name with - | f
  · rw [hf, Option.map_none, Option.map_eq_none_iff] at hlookup
    exact .inl ⟨rfl, hlookup⟩
  · rw [hf, Option.map_some, Option.map_eq_some_iff] at hlookup
    obtain ⟨f', hf', hff'⟩ := hlookup
    exact .inr ⟨f, f', rfl, hf', hff'⟩

/-- The program with no type names, no attack moves and no templates. -/
def Program.bare (p : Program) : Program :=
  ⟨[], p.functions.map (·.bare), Statement.allBare p.instructions⟩

/-- The rules with the functions bare. -/
def Rules.bare (r : Rules) : Rules :=
  { r with functions := r.functions.map (·.bare) }

/-! ## Attack moves -/

namespace Rules

section Attacks

variable {α : Type} {r : Rules} {line : Int} {attacker defender : String}
  {s : Store}

/-- Where the program has not been asked to stop, an attack move is over at once. -/
theorem statement_attack (hs : s.world.interrupted = false) (n : Nat) :
    recorder.statement r (n + 2) (.attack line attacker defender) s =
      ((Record.silent (.done .next s)).note .finish s.world).note
        (.reach (.attack line attacker defender)) s.world := by
  simp only [Evaluator.statement, Evaluator.action, Site.world_store, hs]
  rfl

/-- Nothing comes of an attack move before what is echoed. -/
theorem echoed_attack_bind {g : Signal → Store → Record Store α} {f : Nat → Record Store α}
    (n : Nat) (hs : s.world.interrupted = false) (h : (g .next s).Echoed Store.world f) :
    ((recorder.statement r n (.attack line attacker defender) s).bind g).Echoed Store.world
      f := by
  -- with fewer than two steps it does not get past the attack move, and has shown nothing
  rcases n with - | - | n
  · exact .of_unfinished ⟨rfl, rfl⟩
  · refine .of_unfinished ?_
    simp only [Evaluator.statement, Evaluator.action, Site.world_store, hs]
    exact ⟨rfl, rfl⟩
  · rw [statement_attack hs]
    exact h.congr ⟨rfl, rfl⟩ fun _ => ⟨rfl, rfl⟩

/-- Nothing comes of an attack move before an echo. -/
theorem echoed_bind_attack {a : Record Store α} {k : Nat → Signal → Store → Record Store α}
    (hs : s.world.interrupted = false)
    (h : a.Echoed Store.world fun n => k n .next s) :
    a.Echoed Store.world fun n =>
      (recorder.statement r n (.attack line attacker defender) s).bind (k n) := by
  refine .of_succ (.of_succ ?_)
  simp only [statement_attack hs]
  exact (h.later 2).congr ⟨rfl, rfl⟩ fun _ => ⟨rfl, rfl⟩

end Attacks

/-! ## Each program is echoed by the other -/

/-- What is done under the rules `r` with `n` steps is echoed under the rules `r'`, by statements
that have the same bare form. Expressions are the same in both. -/
structure EchoedAt (r r' : Rules) (n : Nat) : Prop where
  eval : ∀ scope e w, w.interrupted = false →
    (recorder.eval r n scope e w).Echoed id fun k => recorder.eval r' k scope e w
  chain : ∀ scope acc rest ops w, w.interrupted = false →
    (recorder.chain r n scope acc rest ops w).Echoed id fun k =>
      recorder.chain r' k scope acc rest ops w
  call : ∀ scope f args w, w.interrupted = false →
    (recorder.call r n scope f args w).Echoed id fun k => recorder.call r' k scope f args w
  bindArguments : ∀ scope ps args callee w, w.interrupted = false →
    (recorder.bindArguments r n scope ps args callee w).Echoed id fun k =>
      recorder.bindArguments r' k scope ps args callee w
  test : ∀ scope c w, w.interrupted = false →
    (recorder.test r n scope c w).Echoed id fun k => recorder.test r' k scope c w
  block : ∀ b b' s, Statement.blockBare b' = Statement.blockBare b → s.world.interrupted = false →
    (recorder.block r n b s).Echoed Store.world fun k => recorder.block r' k b' s
  sequence : ∀ statements statements' s, Statement.Matched statements statements' →
    s.world.interrupted = false →
      (recorder.sequence r n statements s).Echoed Store.world fun k =>
        recorder.sequence r' k statements' s
  statement : ∀ st st' s, Statement.Alike st st' → s.world.interrupted = false →
    (recorder.statement r n st s).Echoed Store.world fun k => recorder.statement r' k st' s
  action : ∀ st st' s, Statement.Alike st st' → s.world.interrupted = false →
    (recorder.action r n st s).Echoed Store.world fun k => recorder.action r' k st' s
  loop : ∀ c body body' s, Statement.blockBare body' = Statement.blockBare body →
    s.world.interrupted = false →
      (recorder.loop r n c body s).Echoed Store.world fun k => recorder.loop r' k c body' s

section Induction

variable {r r' : Rules} {n : Nat}

/-- Without steps nothing is heard. -/
theorem echoedAt_zero : EchoedAt r r' 0 := by
  constructor
  all_goals
    intros
    exact .of_unfinished ⟨rfl, rfl⟩

/-- Expressions are echoed. -/
theorem echoed_eval (ih : EchoedAt r r' n) (scope : Scope) (e : Expr) (w : World)
    (hw : w.interrupted = false) :
    (recorder.eval r (n + 1) scope e w).Echoed id fun k => recorder.eval r' k scope e w := by
  apply Record.Echoed.of_succ
  cases e with
  | number | text | dice =>
    simp only [Evaluator.eval]
    exact .done _ hw
  | var x =>
    simp only [Evaluator.eval]
    exact .ofExcept hw _
  | call f args =>
    simp only [Evaluator.eval]
    exact ih.call scope f args w hw
  | roll operand =>
    simp only [Evaluator.eval]
    exact (ih.eval scope operand w hw).bind fun v w hw => World.echoed_roll n v hw
  | chain operands operators =>
    rcases operands with - | ⟨first, rest⟩
    · simp only [Evaluator.eval]
      exact .done _ hw
    · simp only [Evaluator.eval]
      refine (ih.eval scope first w hw).bind fun acc w hw => ?_
      rcases operators with - | ⟨op, ops⟩
      · exact .done _ hw
      · by_cases hacc : acc.isNumeric = true
        · simp only [if_pos hacc]
          exact ih.chain scope acc rest (op :: ops) w hw
        · simp only [if_neg hacc]
          exact .raise _ w w
  | hole | «foreign» =>
    simp only [Evaluator.eval]
    exact .raise _ w w

/-- The operands of a chain are echoed. -/
theorem echoed_chain (ih : EchoedAt r r' n) (scope : Scope) (acc : Value) (operands : List Expr)
    (operators : List ArithOp) (w : World) (hw : w.interrupted = false) :
    (recorder.chain r (n + 1) scope acc operands operators w).Echoed id fun k =>
      recorder.chain r' k scope acc operands operators w := by
  apply Record.Echoed.of_succ
  rcases operators with - | ⟨op, ops⟩
  · simp only [Evaluator.chain]
    exact .done _ hw
  rcases operands with - | ⟨operand, rest⟩
  · exact .done _ hw
  · simp only [Evaluator.chain]
    refine (ih.eval scope operand w hw).bind fun v w hw => ?_
    rcases op.apply acc v with f | acc
    · exact .raise f w w
    · exact ih.chain scope acc rest ops w hw

/-- Arguments are echoed. -/
theorem echoed_bindArguments (ih : EchoedAt r r' n) (scope : Scope) (parameters : List String)
    (args : List Expr) (callee : Scope) (w : World) (hw : w.interrupted = false) :
    (recorder.bindArguments r (n + 1) scope parameters args callee w).Echoed id fun k =>
      recorder.bindArguments r' k scope parameters args callee w := by
  apply Record.Echoed.of_succ
  rcases parameters with - | ⟨p, ps⟩
  · simp only [Evaluator.bindArguments]
    exact .done _ hw
  rcases args with - | ⟨arg, args⟩
  · simp only [Evaluator.bindArguments]
    exact .done _ hw
  · simp only [Evaluator.bindArguments]
    refine (ih.eval scope arg w hw).bind fun v w hw => ?_
    simp only [Realm.introduce]
    rcases callee.introduce p v with f | callee
    · exact .raise f w w
    · exact ih.bindArguments scope ps args callee w hw

/-- Conditions are echoed. -/
theorem echoed_test (ih : EchoedAt r r' n) (scope : Scope) (c : Condition) (w : World)
    (hw : w.interrupted = false) :
    (recorder.test r (n + 1) scope c w).Echoed id fun k => recorder.test r' k scope c w := by
  apply Record.Echoed.of_succ
  simp only [Evaluator.test]
  refine (ih.eval scope c.left w hw).bind fun a w hw => ?_
  exact (ih.eval scope c.right w hw).bind fun b w hw => .ofExcept hw _

/-- A block is echoed by one that is the same without attacks. -/
theorem echoed_block (ih : EchoedAt r r' n) (b b' : Block) (s : Store)
    (hb : Statement.blockBare b' = Statement.blockBare b) (hs : s.world.interrupted = false) :
    (recorder.block r (n + 1) b s).Echoed Store.world fun k => recorder.block r' k b' s := by
  apply Record.Echoed.of_succ
  rcases b with - | statements <;> rcases b' with - | statements' <;>
    simp only [Statement.blockBare, reduceCtorEq, Option.some.injEq] at hb
  · simp only [Evaluator.block]
    exact .done _ hs
  · simp only [Evaluator.block]
    exact ih.sequence statements statements' s (.of_allBare_eq hb) hs

/-- A list of statements is echoed by one with attacks before and between them. -/
theorem echoed_sequence (ih : EchoedAt r r' n) (statements statements' : List Statement)
    (s : Store) (h : Statement.Matched statements statements') (hs : s.world.interrupted = false) :
    (recorder.sequence r (n + 1) statements s).Echoed Store.world fun k =>
      recorder.sequence r' k statements' s := by
  -- the first list has one step less for what follows an attack move, and the induction on steps
  -- is for that; the second list has as many as it needs
  induction h with
  | nil =>
    apply Record.Echoed.of_succ
    simp only [Evaluator.sequence]
    exact .done _ hs
  | attackFirst hrest =>
    rw [Evaluator.sequence]
    exact echoed_attack_bind n hs (ih.sequence _ _ s hrest hs)
  | attackSecond hrest ihrest =>
    apply Record.Echoed.of_succ
    simp only [Evaluator.sequence]
    exact echoed_bind_attack hs ihrest
  | cons hst hrest =>
    apply Record.Echoed.of_succ
    simp only [Evaluator.sequence]
    refine (ih.statement _ _ s hst hs).bind fun signal s hs => ?_
    cases signal with
    | next => exact ih.sequence _ _ s hrest hs
    | returned v => exact .done _ hs

/-- A statement is echoed by one that is alike. -/
theorem echoed_statement (ih : EchoedAt r r' n) (st st' : Statement) (s : Store)
    (hst : Statement.Alike st st') (hs : s.world.interrupted = false) :
    (recorder.statement r (n + 1) st s).Echoed Store.world fun k =>
      recorder.statement r' k st' s := by
  apply Record.Echoed.of_succ
  simp only [Evaluator.statement, Site.world_store, hs, hst.line_eq]
  exact (((ih.action st st' s hst hs).noteEnd .finish fun _ => rfl).mapError _).note rfl rfl

/-- A loop is echoed by one whose body is the same without attacks. -/
theorem echoed_loop (ih : EchoedAt r r' n) (c : Condition) (body body' : Block) (s : Store)
    (hbody : Statement.blockBare body' = Statement.blockBare body)
    (hs : s.world.interrupted = false) :
    (recorder.loop r (n + 1) c body s).Echoed Store.world fun k =>
      recorder.loop r' k c body' s := by
  apply Record.Echoed.of_succ
  simp only [Evaluator.loop]
  refine (ih.test s.scope c s.world hs).thenStore fun holds s hs => ?_
  cases holds with
  | false => exact .done _ hs
  | true =>
    refine (ih.block body body' s hbody hs).bind fun signal s hs => ?_
    cases signal with
    | returned v => exact .done _ hs
    | next =>
      -- a pass that is over finds no request
      simp only [Site.world_store, hs]
      exact (ih.loop c body body' s hbody hs).note rfl rfl

/-- A call whose parameters are bound is echoed if the body is. -/
theorem echoed_enter (ih : EchoedAt r r' n) {f f' : Function} (hname : f'.name = f.name)
    (hbody : Statement.blockBare f'.body = Statement.blockBare f.body) (callee : Scope) {w : World}
    (hw : w.interrupted = false) :
    (recorder.enter r n f callee w).Echoed id fun k => recorder.enter r' k f' callee w := by
  have hblock := (ih.block f.body f'.body ⟨callee, { w with depth := w.depth + 1 }⟩ hbody
    hw).noteEnd .leave fun _ => rfl
  have hleft : (((recorder.block r n f.body ⟨callee, { w with depth := w.depth + 1 }⟩).noteEnd
      .leave Store.world).mapState leave).Echoed id fun k =>
        ((recorder.block r' k f'.body ⟨callee, { w with depth := w.depth + 1 }⟩).noteEnd
          .leave Store.world).mapState leave :=
    hblock.mapState fun _ => rfl
  simp only [Evaluator.enter, Account.leave, hname]
  exact (hleft.mapError (·.leaving f.name)).bind fun signal w hw => .done _ hw

/-- A call is echoed by that of a function that is the same without attacks. -/
theorem echoed_call (hr : r'.bare = r.bare) (ih : EchoedAt r r' n) (scope : Scope) (name : String)
    (args : List Expr) (w : World) (hw : w.interrupted = false) :
    (recorder.call r (n + 1) scope name args w).Echoed id fun k =>
      recorder.call r' k scope name args w := by
  obtain ⟨hfunctions, hmaxDepth⟩ := (Rules.mk.injEq ..).mp hr
  apply Record.Echoed.of_succ
  simp only [Evaluator.call, Realm.function, Family.function, hmaxDepth]
  rcases lookupFunction_of_bare_eq hfunctions name with ⟨hf, hf'⟩ | ⟨f, f', hf, hf', hff'⟩
  · simp only [hf, hf']
    exact .raise _ w w
  obtain ⟨-, hname, hparameters, hbody⟩ := (Function.mk.injEq ..).mp hff'
  simp only [hf, hf', hname, hparameters]
  by_cases hcount : args.length ≠ f.parameters.length
  · simp only [if_pos hcount]
    exact .raise _ w w
  simp only [if_neg hcount]
  refine (ih.bindArguments scope f.parameters args .empty w hw).bind fun callee w hw => ?_
  by_cases hdepth : r.maxDepth ≤ w.depth
  · simp only [Realm.world_world, if_pos hdepth]
    exact (Record.Echoed.raise _ w w).note rfl rfl
  · simp only [Realm.world_world, if_neg hdepth]
    exact ((echoed_enter ih hname hbody callee hw).note rfl rfl).note rfl rfl

/-- What a statement says is echoed by what one says that is alike. -/
theorem echoed_action (ih : EchoedAt r r' n) (st st' : Statement)
    (s : Store) (hst : Statement.Alike st st') (hs : s.world.interrupted = false) :
    (recorder.action r (n + 1) st s).Echoed Store.world fun k => recorder.action r' k st' s := by
  apply Record.Echoed.of_succ
  cases hst with
  | declare line type type' x =>
    simp only [Evaluator.action, Site.declare]
    rcases s.scope.declare x with f | scope
    · exact .raise f s.world s
    · exact .done _ hs
  | assign line x e =>
    simp only [Evaluator.action, Site.assign]
    refine (ih.eval s.scope e s.world hs).thenStore fun v s hs => ?_
    rcases s.scope.assign x v with f | scope
    · exact .raise f s.world s
    · exact .done _ hs
  | attack line attacker defender =>
    simp only [Evaluator.action]
    exact .done _ hs
  | loop line c hbody =>
    simp only [Evaluator.action]
    exact ih.loop c _ _ s hbody hs
  | branch line c hbody halternative =>
    simp only [Evaluator.action]
    refine (ih.test s.scope c s.world hs).thenStore fun holds s hs => ?_
    cases holds with
    | true => exact ih.block _ _ s hbody hs
    | false => exact ih.block _ _ s halternative hs
  | log line e =>
    simp only [Evaluator.action]
    refine (ih.eval s.scope e s.world hs).thenStore fun v s hs => ?_
    -- nobody has asked the program to stop, and if the record is calm nobody does now
    exact .display v.format s.world _ fun hcalm => by simp [World.display, hs, hcalm]
  | give line e =>
    simp only [Evaluator.action]
    exact (ih.eval s.scope e s.world hs).thenStore fun v s hs => .done _ hs
  | call line f args =>
    simp only [Evaluator.action]
    exact (ih.call s.scope f args s.world hs).thenStore fun _ s hs => .done _ hs
  | «foreign» line label =>
    simp only [Evaluator.action]
    exact .raise _ s.world s

end Induction

/-- **Each is echoed by the other.** What is done under some rules is echoed under rules that have
the same bare form. -/
theorem echoedAt {r r' : Rules} (hr : r'.bare = r.bare) (n : Nat) : EchoedAt r r' n := by
  induction n with
  | zero => exact echoedAt_zero
  | succ n ih =>
    exact
      { eval := echoed_eval ih
        chain := echoed_chain ih
        call := echoed_call hr ih
        bindArguments := echoed_bindArguments ih
        test := echoed_test ih
        block := echoed_block ih
        sequence := echoed_sequence ih
        statement := echoed_statement ih
        action := echoed_action ih
        loop := echoed_loop ih }

/-- Instructions are echoed by instructions that are the same without attacks. -/
theorem echoed_instructions {r r' : Rules} (hr : r'.bare = r.bare) (n : Nat)
    {statements statements' : List Statement} (h : Statement.Matched statements statements')
    {s : Store} (hs : s.world.interrupted = false) :
    (recorder.instructions r n statements s).Echoed Store.world fun k =>
      recorder.instructions r' k statements' s := by
  induction h generalizing s with
  | nil => exact .done () hs
  | attackFirst hrest ih =>
    rw [Evaluator.instructions]
    exact echoed_attack_bind n hs (ih hs)
  | attackSecond hrest ih =>
    simp only [Evaluator.instructions]
    exact echoed_bind_attack hs (ih hs)
  | cons hst hrest ih =>
    simp only [Evaluator.instructions]
    exact ((echoedAt hr n).statement _ _ s hst hs).bind fun _ s hs => ih hs

end Rules

/-! ## Machines -/

/-- An output is shown exactly if it is heard. -/
theorem Moment.shown?_eq_none_iff (m : Moment) : m.shown? = none ↔ m.heard? = none := by
  simp [heard?]

/-- Along a path, the listener is told of everything that is shown. -/
theorem Path.requested_eq_false_iff {r : Rules} {known : Statement → Prop} {s s₁ : Spot}
    {moments : List Moment} (h : Path r known s moments s₁) :
    requested s.world.listener s.world.interrupted moments = false ↔
      s.world.interrupted = false ∧ ∀ told ∈ moments.filterMap Moment.heard?, told.2 = false := by
  induction h with
  | nil s => simp [requested, Listener.asksAmong]
  | cons hstep _ ih =>
    rw [hstep.requested_cons, ih]
    cases hstep <;>
      simp [Moment.heard?, Moment.shown?, World.display, World.asks, and_assoc]

/-- A record tells of a path and of moments behind it that show nothing. -/
theorem Record.Tells.exists_path {σ α : Type} {r : Rules} {known : Statement → Prop}
    {world : σ → World} {w : World} {a : Record σ α} {o : Outcome σ α}
    (h : a.Tells r known world w o) :
    ∃ path last s, a.moments = path ++ last ∧ Path r known ⟨[], w⟩ path s ∧
      ∀ m ∈ last, m.shown? = none := by
  obtain ⟨rfl, hcourse⟩ := h
  obtain ⟨moments, o⟩ := a
  cases o with
  | done v m => exact ⟨moments, [], _, (List.append_nil _).symm, hcourse [], by simp⟩
  | unfinished =>
    obtain ⟨s, hs⟩ := hcourse []
    exact ⟨moments, [], s, (List.append_nil _).symm, hs, by simp⟩
  | failed e m =>
    obtain ⟨frames, w', hfails, -⟩ := hcourse
    obtain ⟨path, s, last, hsplit, hpath, hstop⟩ := (hfails []).exists_stop
    exact ⟨path, last, s, hsplit, hpath, fun m hm => hstop.shown?_eq hm⟩

/-- Nobody asks to stop exactly if it was not asked before and the record is calm. -/
theorem Record.Tells.requested_eq_false_iff {σ α : Type} {r : Rules} {known : Statement → Prop}
    {world : σ → World} {w : World} {a : Record σ α} {o : Outcome σ α}
    (h : a.Tells r known world w o) :
    requested w.listener w.interrupted a.moments = false ↔ w.interrupted = false ∧ a.Calm := by
  obtain ⟨path, last, s, hmoments, hpath, hmute⟩ := h.exists_path
  have hnothing : last.filterMap Moment.heard? = [] :=
    List.filterMap_eq_nil_iff.mpr fun m hm => (m.shown?_eq_none_iff).mp (hmute m hm)
  rw [Calm, heard, hmoments, requested_append_of_mute _ _ _ hmute, List.filterMap_append,
    hnothing, List.append_nil]
  exact hpath.requested_eq_false_iff

namespace Machine

/-- The machine with nothing that has no effect. -/
def bare (m : Machine) : Machine :=
  { m with
    instructions := Statement.allBare m.instructions
    functions := m.functions.map (·.bare)
    templates := [] }

/-- The machine has not been asked to stop, and nothing that a run shows asks it to, with any number
of steps. -/
def Unasked (m : Machine) : Prop :=
  ∀ steps,
    requested m.world.listener m.world.interrupted (m.recordRun steps).moments = false

/-- Whatever a run of `m` has shown after some steps, a run of `m'` shows with enough steps. And if
the run of `m` has ended, then so does that of `m'`, with the same error if there is one and in the
same state. -/
def RunEchoed (m m' : Machine) : Prop :=
  ∀ steps, ∃ least, ∀ n, least ≤ n →
    (m.recordRun steps).shown <+: (m'.recordRun n).shown ∧
      (m.run steps ≠ .unfinished → (m'.run n).mapState state = (m.run steps).mapState state)

/-- The record of a run tells of the run. -/
theorem tells_recordRun (m : Machine) (steps : Nat) :
    (m.recordRun steps).Tells m.quiet.rules (fun _ => True) world m.quiet.world (m.run steps) :=
  m.quiet.tells_perform (fun _ _ _ _ => trivial) steps fun _ _ => trivial

/-- The record of a run has its outcome. -/
theorem outcome_recordRun (m : Machine) (steps : Nat) :
    (m.recordRun steps).outcome = m.run steps :=
  (m.tells_recordRun steps).outcome

/-- Nobody asks a machine to stop exactly if every record of it is calm. -/
theorem unasked_iff (m : Machine) :
    m.Unasked ↔ m.world.interrupted = false ∧ ∀ steps, (m.recordRun steps).Calm := by
  have hsteps : ∀ steps, _ ↔ _ := fun steps => (m.tells_recordRun steps).requested_eq_false_iff
  exact ⟨fun h => ⟨((hsteps 0).mp (h 0)).1, fun steps => ((hsteps steps).mp (h steps)).2⟩,
    fun h steps => (hsteps steps).mpr ⟨h.1, h.2 steps⟩⟩

/-- A run is on record as its instructions are. -/
theorem state_recordRun (m : Machine) (steps : Nat) :
    (m.recordRun steps).mapState state =
      recorder.instructions m.quiet.rules steps m.instructions m.quiet.state := by
  rw [recordRun, recordPerform, state]
  obtain ⟨moments, o⟩ :=
    recorder.instructions m.quiet.rules steps m.instructions ⟨m.quiet.scope, m.quiet.world⟩
  cases o <;> rfl

variable {m m' : Machine}

/-- A run is echoed by that of a machine that is the same without attacks. -/
theorem echo_recordRun (h : m'.bare = m.bare) (hm : m.world.interrupted = false) (steps : Nat) :
    ∃ least, ∀ n, least ≤ n →
      ((m.recordRun steps).mapState state).Echo ((m'.recordRun n).mapState state) := by
  obtain ⟨hinstructions, hfunctions, -, hscope, hworld, hdepth⟩ :=
    (Machine.mk.injEq ..).mp h
  have hrules : m'.quiet.rules.bare = m.quiet.rules.bare := by
    simp only [Rules.bare, rules, quiet, hfunctions, hdepth]
  have hstate : m'.quiet.state = m.quiet.state := by
    simp only [state, quiet, hscope, hworld]
  simp only [state_recordRun, hstate]
  exact (Rules.echoed_instructions hrules steps (.of_allBare_eq hinstructions) hm).echo

/-- A run in which nothing asks the program to stop is echoed as a whole. -/
theorem runEchoed_of_unasked (h : m'.bare = m.bare) (hm : m.Unasked) : m.RunEchoed m' := by
  intro steps
  obtain ⟨hstart, hcalm⟩ := m.unasked_iff.mp hm
  obtain ⟨least, hecho⟩ := echo_recordRun h hstart steps
  refine ⟨least, fun n hn => ⟨?_, fun hend => ?_⟩⟩
  · rw [Record.shown_eq_map_heard, Record.shown_eq_map_heard]
    exact ((hecho n hn).heard (hcalm steps)).map Prod.fst
  have hend' : ((m.recordRun steps).mapState state).outcome ≠ .unfinished := by
    rwa [Record.mapState, ne_eq, Outcome.mapState_eq_unfinished_iff, outcome_recordRun]
  have houtcome := ((hecho n hn).outcome (hcalm steps) hend').1
  rwa [Record.mapState, Record.mapState, outcome_recordRun, outcome_recordRun] at houtcome

/-- If something asked the one program to stop, then something would ask the other one. -/
theorem Unasked.of_bare_eq (h : m'.bare = m.bare) (hm : m.Unasked) : m'.Unasked := by
  obtain ⟨-, -, -, -, hworld, -⟩ := (Machine.mk.injEq ..).mp h
  obtain ⟨hstart, hcalm⟩ := m.unasked_iff.mp hm
  rw [← hworld] at hstart
  refine m'.unasked_iff.mpr ⟨hstart, fun steps => ?_⟩
  obtain ⟨least, hecho⟩ := echo_recordRun h.symm hstart steps
  by_contra halarmed
  exact (hecho least (Nat.le_refl least)).alarmed halarmed (hcalm least)

/-- A machine whose run ends without a request is unasked, because a run shows nothing else if it
has more steps, and no more if it has fewer. -/
theorem Unasked.of_ended {steps : Nat} (hm : m.world.interrupted = false)
    (hend : m.run steps ≠ .unfinished) (hcalm : (m.recordRun steps).Calm) : m.Unasked := by
  refine m.unasked_iff.mpr ⟨hm, fun n => ?_⟩
  obtain ⟨least, hended⟩ := echo_recordRun rfl hm steps
  obtain ⟨least', hecho⟩ := echo_recordRun rfl hm n
  have hend' : ((m.recordRun steps).mapState state).outcome ≠ .unfinished := by
    rwa [Record.mapState, ne_eq, Outcome.mapState_eq_unfinished_iff, outcome_recordRun]
  -- a number of steps that is enough for both
  have hheard := ((hended (max least least') (Nat.le_max_left ..)).outcome hcalm hend').2
  by_contra halarmed
  refine (hecho (max least least') (Nat.le_max_right ..)).alarmed halarmed ?_
  rwa [Record.Calm, hheard]

/-- The runs of two machines are alike: if the one is never asked to stop, then neither is the other
one, and each is echoed by the other. -/
def RunsAlike (m m' : Machine) : Prop :=
  m.Unasked → m'.Unasked ∧ m.RunEchoed m' ∧ m'.RunEchoed m

/-- Machines that are the same without attacks run alike. -/
theorem runsAlike_of_bare_eq (h : m'.bare = m.bare) : m.RunsAlike m' := by
  intro hm
  have hm' : m'.Unasked := hm.of_bare_eq h
  exact ⟨hm', runEchoed_of_unasked h hm, runEchoed_of_unasked h.symm hm'⟩

variable {p p' : Program}

/-- Templates whose names are distinct do not keep a program from being registered. -/
theorem clash_blank_of_nodup (hnames : (p.templates.map (·.name)).Nodup)
    (instructions : List Statement) (g : Generator) :
    (blank instructions g).clash p = firstClash [] (p.functions.map fun f => (f.name, f.line)) := by
  have htemplates : firstClash [] (p.templates.map fun t => (t.name, t.line)) = none := by
    rw [firstClash_eq_none_iff, List.map_map]
    exact ⟨hnames, by simp⟩
  rw [clash, blank, List.map_nil, List.map_nil, htemplates, Option.or_none]

/-- Programs that are the same without attacks make such machines. -/
theorem ofProgram_of_bare_eq (h : p'.bare = p.bare) (hnames : (p.templates.map (·.name)).Nodup)
    (hnames' : (p'.templates.map (·.name)).Nodup) (g : Generator) :
    (ofProgram p' g).map bare = (ofProgram p g).map bare := by
  obtain ⟨-, hfunctions, hinstructions⟩ := (Program.mk.injEq ..).mp h
  have hsigns : (p'.functions.map fun f => (f.name, f.line)) =
      p.functions.map fun f => (f.name, f.line) := by
    have hsigns' := congrArg (List.map fun f : Function => (f.name, f.line)) hfunctions
    rwa [List.map_map, List.map_map] at hsigns'
  have hclash : (blank p'.instructions g).clash p' = (blank p.instructions g).clash p := by
    rw [clash_blank_of_nodup hnames', clash_blank_of_nodup hnames, hsigns]
  rw [ofProgram, ofProgram, load, load, hclash]
  rcases (blank p.instructions g).clash p with - | ⟨name, line⟩
  · simp only [Except.map, bare, blank, List.nil_append, hfunctions, hinstructions]
  · rfl

/-- **Attack moves, type names and templates have no effect.** Two programs that differ in nothing
else, where the templates of the second have distinct names, are registered alike or refused alike;
only the first one can also be refused because of its templates. From any state of the variables and
the world, with any limit on calls and whoever is listening to what is shown, the machine of the
second is then never asked to stop if that of the first is not, and each does what the other does:
it shows the same, and it ends if the other one does, with the same error if there is one, the same
variables, the same generator and the same outputs. -/
theorem inert_parts_change_nothing (p p' : Program) (h : p'.bare = p.bare)
    (hnames' : (p'.templates.map (·.name)).Nodup) (g : Generator) :
    ((p.templates.map (·.name)).Nodup →
      ∀ e, ofProgram p g = .error e → ofProgram p' g = .error e) ∧
    ∀ m, ofProgram p g = .ok m → ∃ m', ofProgram p' g = .ok m' ∧
      ∀ (depth : Int) (s : Store),
        RunsAlike ((m.limitDepth depth).resuming s) ((m'.limitDepth depth).resuming s) := by
  constructor
  · intro hnames e he
    have hmap := ofProgram_of_bare_eq h hnames hnames' g
    rw [he] at hmap
    rcases he' : ofProgram p' g with e' | m'
    · rw [he'] at hmap
      exact congrArg Except.error (Except.error.inj hmap)
    · rw [he'] at hmap
      cases hmap
  · intro m hm
    have hnames : (p.templates.map (·.name)).Nodup := ((load_eq_ok_iff ..).mp hm).1.2.1
    have hmap := ofProgram_of_bare_eq h hnames hnames' g
    rw [hm] at hmap
    rcases hm' : ofProgram p' g with e' | m'
    · rw [hm'] at hmap
      cases hmap
    · rw [hm'] at hmap
      refine ⟨m', rfl, fun depth s => runsAlike_of_bare_eq ?_⟩
      exact congrArg (fun m => (m.limitDepth depth).resuming s) (Except.ok.inj hmap)

/-- Two strokes and what they are worth. -/
def duel : Program :=
  ⟨[.foreign "sword"],
    [⟨1, "strike", ["times"], some [.attack 2 "knight" "dragon", .give 3 (.var "times")]⟩],
    [.declare 5 "Gold" "reward", .attack 6 "knight" "dragon",
      .assign 7 "reward" (.call "strike" [.number 2]), .log 8 (.var "reward")]⟩

/-- The same without the strokes. -/
def truce : Program :=
  ⟨[.foreign "flag", .foreign "quill"],
    [⟨1, "strike", ["times"], some [.give 3 (.var "times")]⟩],
    [.declare 5 "Silver" "reward", .assign 7 "reward" (.call "strike" [.number 2]),
      .log 8 (.var "reward")]⟩

/-- The machine before it has done anything. One call may be in progress, and showing the same again
would ask it to stop. -/
def onGuard (m : Machine) : Machine :=
  (m.limitDepth 1).resuming
    ⟨.empty, ⟨⟨#[], 0, 0⟩, 0, false, #[], some ⟨fun earlier o => earlier.contains o⟩⟩⟩

/-- The duel shows a two and is not asked to stop. So it is with the truce. -/
theorem duel_and_truce_run_alike :
    truce.bare = duel.bare ∧ (truce.templates.map (·.name)).Nodup ∧
      ∃ m m', ofProgram duel ⟨#[], 0, 0⟩ = .ok m ∧ ofProgram truce ⟨#[], 0, 0⟩ = .ok m' ∧
        m.onGuard.Unasked ∧ m'.onGuard.Unasked ∧
          ∃ s, (m.onGuard.run 12).mapState state = .done () s ∧
            s.world.outputs = #[⟨"2", true⟩] ∧
            ∃ least, ∀ n, least ≤ n → (m'.onGuard.run n).mapState state = .done () s := by
  obtain ⟨m, hm⟩ : ∃ m, ofProgram duel ⟨#[], 0, 0⟩ = .ok m := ⟨_, rfl⟩
  have hbare : truce.bare = duel.bare := rfl
  have hnames : (truce.templates.map (·.name)).Nodup := by decide
  obtain ⟨m', hm', hruns⟩ :=
    (inert_parts_change_nothing duel truce hbare hnames ⟨#[], 0, 0⟩).2 m hm
  obtain ⟨s, hdone, houtputs⟩ : ∃ s, (m.onGuard.run 12).mapState state = .done () s ∧
      s.world.outputs = #[⟨"2", true⟩] := by
    cases hm
    exact ⟨_, rfl, rfl⟩
  have hend : m.onGuard.run 12 ≠ .unfinished := by
    rw [ne_eq, ← Outcome.mapState_eq_unfinished_iff _ state, hdone]
    simp
  have hcalm : (m.onGuard.recordRun 12).Calm := by
    have hheard : (m.onGuard.recordRun 12).heard = [(⟨"2", true⟩, false)] := by
      cases hm
      rfl
    rw [Record.Calm, hheard]
    exact List.forall_mem_singleton.mpr rfl
  have hunasked : m.onGuard.Unasked := .of_ended rfl hend hcalm
  obtain ⟨hunasked', hechoed, -⟩ := hruns 1 _ hunasked
  obtain ⟨least, hleast⟩ := hechoed 12
  refine ⟨hbare, hnames, m, m', hm, hm', hunasked, hunasked', s, hdone, houtputs, least, ?_⟩
  exact fun n hn => ((hleast n hn).2 hend).trans hdone

end Machine

end Adventure
