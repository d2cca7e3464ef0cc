import Adventure.Proofs.Draws
import Adventure.Proofs.Statements

/-!
# Computations that end

A computation ends if there is a number of steps that suffices. `Outcome.Ends` says so together with
what holds afterwards: from some number of steps on there is one outcome, which is an error or a
value and a state of some sort.

Expressions have no loops of their own, so they end if the calls in them do. This is said once, in
`Rules.ends_eval`, for calls of any sort: `Rules.CallsEnd` says of some worlds that calls that are
made in them end in such a world again, and rolls lead to such a world. Rolls end, because draws
succeed.
-/

namespace Adventure

/-! ## Outcomes that stay -/

namespace Outcome

variable {σ τ α β : Type}

/-- The outcome is an error, or a value and a state for which `Q` holds. -/
def Meets (Q : α → σ → Prop) : Outcome σ α → Prop
  | done a s => Q a s
  | failed _ _ => True
  | unfinished => False

/-- From some number of steps on the computation has one outcome, which is an error, or a value and
a state for which `Q` holds. -/
def Ends (Q : α → σ → Prop) (f : Nat → Outcome σ α) : Prop :=
  ∃ o, o.Meets Q ∧ ∃ least, ∀ n, least ≤ n → f n = o

namespace Ends

variable {Q : α → σ → Prop} {f : Nat → Outcome σ α}

theorem done {a : α} {s : σ} (h : Q a s) : Ends Q fun _ => .done a s :=
  ⟨.done a s, h, 0, fun _ _ => rfl⟩

theorem failed (e : RuntimeError) (s : σ) : Ends Q fun _ => .failed e s :=
  ⟨.failed e s, trivial, 0, fun _ _ => rfl⟩

theorem ofExcept {x : Except Fault α} {s : σ} (h : ∀ a, Q a s) : Ends Q fun _ => .ofExcept s x := by
  cases x with
  | ok a => exact .done (h a)
  | error f => exact .failed _ s

/-- The first step does not matter. -/
theorem of_succ (h : Ends Q fun n => f (n + 1)) : Ends Q f := by
  obtain ⟨o, ho, least, hleast⟩ := h
  refine ⟨o, ho, least + 1, fun n hn => ?_⟩
  obtain ⟨n, rfl⟩ : ∃ k, n = k + 1 := ⟨n - 1, by omega⟩
  exact hleast n (Nat.le_of_succ_le_succ hn)

theorem mono {R : α → σ → Prop} (h : Ends Q f) (hR : ∀ a s, Q a s → R a s) : Ends R f := by
  obtain ⟨o, ho, least, hleast⟩ := h
  refine ⟨o, ?_, least, hleast⟩
  cases o with
  | done a s => exact hR a s ho
  | failed e s => trivial
  | unfinished => exact ho

/-- Computations that go on end if what they go on with ends. -/
theorem bind {R : β → σ → Prop} {g : α → σ → Nat → Outcome σ β} (h : Ends Q f)
    (hg : ∀ a s, Q a s → Ends R (g a s)) : Ends R fun n => (f n).bind fun a s => g a s n := by
  obtain ⟨o, ho, least, hleast⟩ := h
  cases o with
  | done a s =>
    obtain ⟨o', ho', least', hleast'⟩ := hg a s ho
    refine ⟨o', ho', max least least', fun n hn => ?_⟩
    have hdone := hleast n (Nat.le_trans (Nat.le_max_left _ _) hn)
    simp only [hdone, bind_done]
    exact hleast' n (Nat.le_trans (Nat.le_max_right _ _) hn)
  | failed e s =>
    refine ⟨.failed e s, trivial, least, fun n hn => ?_⟩
    simp only [hleast n hn, bind_failed]
  | unfinished => exact ho.elim

theorem mapState {R : α → τ → Prop} {g : σ → τ} (h : Ends Q f) (hg : ∀ a s, Q a s → R a (g s)) :
    Ends R fun n => (f n).mapState g := by
  obtain ⟨o, ho, least, hleast⟩ := h
  refine ⟨o.mapState g, ?_, least, fun n hn => congrArg (Outcome.mapState g) (hleast n hn)⟩
  cases o with
  | done a s => exact hg a s ho
  | failed e s => trivial
  | unfinished => exact ho

theorem mapError (g : RuntimeError → RuntimeError) (h : Ends Q f) :
    Ends Q fun n => (f n).mapError g := by
  obtain ⟨o, ho, least, hleast⟩ := h
  refine ⟨o.mapError g, ?_, least, fun n hn => congrArg (Outcome.mapError g) (hleast n hn)⟩
  cases o with
  | done a s => exact ho
  | failed e s => trivial
  | unfinished => exact ho

/-- A computation that ends is finished with some number of steps. -/
theorem exists_ne_unfinished (h : Ends Q f) : ∃ n, f n ≠ .unfinished := by
  obtain ⟨o, ho, least, hleast⟩ := h
  refine ⟨least, fun hn => ?_⟩
  obtain rfl : o = .unfinished := (hleast least (Nat.le_refl _)).symm.trans hn
  exact ho

end Ends

end Outcome

open Outcome (Ends)

/-! ## Calls -/

namespace Expr

mutual

/-- The names that are called in an expression. -/
def calls : Expr → List String
  | .call f args => f :: allCalls args
  | .roll operand => operand.calls
  | .chain operands _ => allCalls operands
  | .number _ | .text _ | .dice _ | .var _ | .hole | .foreign _ => []

/-- The names that are called in some expressions. -/
def allCalls : List Expr → List String
  | [] => []
  | e :: more => e.calls ++ allCalls more

end

end Expr

/-- The names that are called in a condition. -/
def Condition.calls (c : Condition) : List String :=
  c.left.calls ++ c.right.calls

/-- The names that are called in a statement, but not those in its blocks. -/
def Statement.calls : Statement → List String
  | .assign _ _ e | .log _ e | .give _ e => e.calls
  | .loop _ c _ | .branch _ c _ _ => c.calls
  | .call _ f args => f :: Expr.allCalls args
  | .declare .. | .attack .. | .foreign .. => []

/-! ## Rolls -/

/-- **A roll ends.** -/
theorem World.ends_roll {I : World → Prop} (hI : ∀ w g, I w → I { w with generator := g })
    (v : Value) {w : World} (hw : I w) : Ends (fun _ w => I w) fun n => w.roll n v := by
  unfold roll
  rcases v.dice? with - | d
  · exact .failed _ w
  by_cases hd : (d.faces ≤ 0 || d.count < 0) = true
  · simp only [Generator.roll, if_pos hd]
    exact .failed _ w
  simp only [Generator.roll, if_neg hd]
  -- the dice can be rolled, so they have faces, and no more than 63 bits can count
  have hfaces : 0 < d.faces.toInt := by
    simp only [Bool.or_eq_true, decide_eq_true_eq, not_or] at hd
    simpa [Int64.le_iff_toInt_le] using hd.1
  have hbound : d.faces.toInt < 2 ^ 63 := d.faces.toInt_lt
  have hpositive : 0 < d.faces.toInt.toNat := by omega
  obtain ⟨attempts, ⟨total, g⟩, hroll⟩ := Generator.exists_rollFrom hpositive (by omega)
    d.count.toInt.toNat 0 w.generator
  refine ⟨.done (.int total) { w with generator := g }, hI w g hw, attempts, fun n hn => ?_⟩
  simp only [Generator.rollFrom_mono hn hroll]

namespace Rules

variable {r : Rules} {I : World → Prop} {fine : String → Prop}

/-- Calls of functions whose names are `fine` end in worlds where `I` holds, and it holds again
afterwards. It also holds after a roll. -/
structure CallsEnd (r : Rules) (I : World → Prop) (fine : String → Prop) : Prop where
  roll : ∀ w g, I w → I { w with generator := g }
  enter : ∀ name f, fine name → lookupFunction r.functions name = some f → ∀ callee w, I w →
    w.depth < r.maxDepth → Ends (fun _ w => I w) fun n => r.enter n f callee w

/-- A call ends if its arguments do. -/
theorem ends_call_of_arguments (h : r.CallsEnd I fine) {name : String} (hname : fine name)
    {args : List Expr} {scope : Scope} {w : World} (hargs : ∀ parameters,
      Ends (fun _ w => I w) fun n => r.bindArguments n scope parameters args .empty w) :
    Ends (fun _ w => I w) fun n => r.call n scope name args w := by
  apply Ends.of_succ
  simp only [call_succ]
  rcases hf : lookupFunction r.functions name with - | f
  · exact .failed _ w
  by_cases hcount : args.length ≠ f.parameters.length
  · simp only [if_pos hcount]
    exact .failed _ w
  simp only [if_neg hcount]
  refine (hargs f.parameters).bind fun callee w hw => ?_
  by_cases hdepth : r.maxDepth ≤ w.depth
  · simp only [if_pos hdepth]
    exact .failed _ w
  · simp only [if_neg hdepth]
    exact h.enter name f hname hf callee w hw (Nat.lt_of_not_le hdepth)

mutual

/-- **An expression ends** if the calls in it do. -/
theorem ends_eval (h : r.CallsEnd I fine) : ∀ (e : Expr), (∀ name ∈ e.calls, fine name) →
    ∀ scope w, I w → Ends (fun _ w => I w) fun n => r.eval n scope e w
  | .number v, _, scope, w, hw | .text v, _, scope, w, hw | .dice v, _, scope, w, hw
  | .chain [] _, _, scope, w, hw => by
    apply Ends.of_succ
    simp only [eval]
    exact .done hw
  | .var x, _, scope, w, hw => by
    apply Ends.of_succ
    simp only [eval]
    exact .ofExcept fun _ => hw
  | .hole, _, scope, w, hw | .foreign label, _, scope, w, hw => by
    apply Ends.of_succ
    simp only [eval]
    exact .failed _ w
  | .call f args, hcalls, scope, w, hw => by
    rw [Expr.calls, List.forall_mem_cons] at hcalls
    apply Ends.of_succ
    simp only [eval]
    exact ends_call_of_arguments h hcalls.1 fun parameters =>
      ends_bindArguments h args hcalls.2 scope parameters .empty w hw
  | .roll operand, hcalls, scope, w, hw => by
    rw [Expr.calls] at hcalls
    apply Ends.of_succ
    simp only [eval]
    exact (ends_eval h operand hcalls scope w hw).bind fun v w hw => World.ends_roll h.roll v hw
  | .chain (first :: rest) operators, hcalls, scope, w, hw => by
    rw [Expr.calls, Expr.allCalls, List.forall_mem_append] at hcalls
    apply Ends.of_succ
    simp only [eval]
    refine (ends_eval h first hcalls.1 scope w hw).bind fun acc w hw => ?_
    rcases operators with - | ⟨op, ops⟩
    · exact .done hw
    · by_cases hacc : acc.isNumeric = true
      · simp only [if_pos hacc]
        exact ends_chain h rest hcalls.2 scope acc (op :: ops) w hw
      · simp only [if_neg hacc]
        exact .failed _ w

/-- The rest of a chain ends. -/
theorem ends_chain (h : r.CallsEnd I fine) : ∀ (operands : List Expr),
    (∀ name ∈ Expr.allCalls operands, fine name) → ∀ scope acc operators w, I w →
      Ends (fun _ w => I w) fun n => r.chain n scope acc operands operators w
  | [], _, scope, acc, operators, w, hw => by
    apply Ends.of_succ
    simp only [chain]
    exact .done hw
  | operand :: rest, hcalls, scope, acc, operators, w, hw => by
    rw [Expr.allCalls, List.forall_mem_append] at hcalls
    apply Ends.of_succ
    rcases operators with - | ⟨op, ops⟩
    · simp only [chain]
      exact .done hw
    · simp only [chain]
      refine (ends_eval h operand hcalls.1 scope w hw).bind fun v w hw => ?_
      rcases op.apply acc v with f | acc
      · exact .failed _ w
      · exact ends_chain h rest hcalls.2 scope acc ops w hw

/-- Binding arguments ends. -/
theorem ends_bindArguments (h : r.CallsEnd I fine) : ∀ (args : List Expr),
    (∀ name ∈ Expr.allCalls args, fine name) → ∀ scope parameters callee w, I w →
      Ends (fun _ w => I w) fun n => r.bindArguments n scope parameters args callee w
  | [], _, scope, parameters, callee, w, hw => by
    apply Ends.of_succ
    simp only [bindArguments]
    exact .done hw
  | arg :: args, hcalls, scope, parameters, callee, w, hw => by
    rw [Expr.allCalls, List.forall_mem_append] at hcalls
    apply Ends.of_succ
    rcases parameters with - | ⟨p, ps⟩
    · simp only [bindArguments]
      exact .done hw
    · simp only [bindArguments]
      refine (ends_eval h arg hcalls.1 scope w hw).bind fun v w hw => ?_
      rcases callee.introduce p v with f | callee
      · exact .failed _ w
      · exact ends_bindArguments h args hcalls.2 scope ps callee w hw

end

/-- A call ends. -/
theorem ends_call (h : r.CallsEnd I fine) {name : String} (hname : fine name) {args : List Expr}
    (hcalls : ∀ name ∈ Expr.allCalls args, fine name) (scope : Scope) (w : World) (hw : I w) :
    Ends (fun _ w => I w) fun n => r.call n scope name args w :=
  ends_call_of_arguments h hname fun parameters =>
    ends_bindArguments h args hcalls scope parameters .empty w hw

/-- A condition ends. -/
theorem ends_test (h : r.CallsEnd I fine) (c : Condition)
    (hcalls : ∀ name ∈ c.calls, fine name) (scope : Scope) (w : World) (hw : I w) :
    Ends (fun _ w => I w) fun n => r.test n scope c w := by
  rw [Condition.calls, List.forall_mem_append] at hcalls
  apply Ends.of_succ
  simp only [test]
  refine (ends_eval h c.left hcalls.1 scope w hw).bind fun a w hw => ?_
  exact (ends_eval h c.right hcalls.2 scope w hw).bind fun b w hw => .ofExcept fun _ => hw

/-! ## Around expressions and bodies -/

/-- What a statement does after an expression, a condition or a call. -/
theorem ends_thenStore {α : Type} {Q : α → World → Prop} {R : Signal → Store → Prop} {scope : Scope}
    {f : Nat → Outcome World α} {g : α → Store → Nat → Outcome Store Signal} (h : Ends Q f)
    (hg : ∀ a s, Q a s.world → Ends R (g a s)) :
    Ends R fun n => ((f n).mapState (⟨scope, ·⟩)).bind fun a s => g a s n := by
  have hstore : Ends (fun a s => Q a s.world) fun n => (f n).mapState (Store.mk scope) :=
    h.mapState fun _ _ hw => hw
  exact hstore.bind hg

/-- A call whose parameters are bound ends if the body does. -/
theorem ends_enter {Q : World → Prop} {f : Function} {callee : Scope} {w : World}
    (h : Ends (fun _ s => Q (leave s)) fun n =>
      r.block n f.body ⟨callee, { w with depth := w.depth + 1 }⟩) :
    Ends (fun _ w => Q w) fun n => r.enter n f callee w := by
  have hleft : Ends (fun _ w => Q w) fun n =>
      (r.block n f.body ⟨callee, { w with depth := w.depth + 1 }⟩).mapState leave :=
    h.mapState fun _ _ hs => hs
  exact (hleft.mapError (·.leaving f.name)).bind fun signal w hw => .done hw

end Rules

end Adventure
