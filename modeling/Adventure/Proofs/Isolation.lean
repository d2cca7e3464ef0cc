import Adventure.Proofs.Memory
import Adventure.Proofs.Reached

/-!
# What a call has to do with the variables of its callers

Nothing: the body of a function neither reads nor changes a variable of any scope but its own.

`Family.Keeps` says which scopes are as before. `Memory.Shows` says of a computation in a memory
what is seen of it from one scope, and which scopes it keeps; it is carried through the ways to put
computations together. `Rules.showsAt` is the main statement: what is seen of every computation is
the outcome of the interpreter that knows a single scope. From there it follows that the scopes
which that interpreter does not know have no influence (`Rules.body_isolated_from_callers`), and
that a program is run as if there were a memory (`Machine.perform_eq_memory`).
-/

namespace Adventure

/-! ## Changes in one scope -/

namespace Scope

/-- Giving a value to a name that is not declared would change nothing. -/
theorem map_eq_of_get?_eq_none {s : Scope} {name : String} (h : s.get? name = none) (v : Value) :
    (s.vars.map fun (x, w) => if x == name then (x, v) else (x, w)) = s.vars := by
  have hne : ∀ p ∈ s.vars, (name == p.1) = false := by simpa using List.lookup_eq_none_iff.mp h
  refine (List.map_congr_left fun p hp => ?_).trans (List.map_id _)
  have hp' : (p.1 == name) = false := by
    rw [BEq.comm]
    exact hne p hp
  simp [hp']

/-- Declaring a variable and giving it a value is introducing it. -/
theorem declare_bind_assign (s : Scope) (name : String) (v : Value) :
    ((s.declare name).bind fun s => s.assign name v) = s.introduce name v := by
  rcases h : s.get? name with - | w
  · have hnew : get? ⟨(name, .nothing) :: s.vars⟩ name = some .nothing := List.lookup_cons_self
    simp only [declare, introduce, h, Except.bind, assign, hnew, List.map_cons,
      map_eq_of_get?_eq_none h, BEq.rfl, if_true]
  · simp only [declare, introduce, h, Except.bind]

end Scope

namespace Family

/-- The scopes of `F` are there in `F'` with the same functions, and those that do not meet `own`
have the same variables with the same values. -/
structure Keeps (own : Nat → Prop) (F F' : Family) : Prop where
  functions : F'.functions = F.functions
  length_le : F.scopes.length ≤ F'.scopes.length
  scope_eq : ∀ k < F.scopes.length, ¬own k → F'.scope k = F.scope k

namespace Keeps

variable {own own' : Nat → Prop} {F F' F'' : Family}

theorem refl (own : Nat → Prop) (F : Family) : F.Keeps own F :=
  ⟨rfl, Nat.le_refl _, fun _ _ _ => rfl⟩

theorem trans (h : F.Keeps own F') (h' : F'.Keeps own F'') : F.Keeps own F'' where
  functions := h'.functions.trans h.functions
  length_le := Nat.le_trans h.length_le h'.length_le
  scope_eq := fun k hk hown =>
    (h'.scope_eq k (Nat.lt_of_lt_of_le hk h.length_le) hown).trans (h.scope_eq k hk hown)

/-- Only scopes that were there before matter. -/
theorem mono (h : F.Keeps own F') (hown : ∀ k < F.scopes.length, own k → own' k) :
    F.Keeps own' F' where
  functions := h.functions
  length_le := h.length_le
  scope_eq := fun k hk hk' => h.scope_eq k hk fun hk'' => hk' (hown k hk hk'')

end Keeps

theorem keeps_child (own : Nat → Prop) (F : Family) : F.Keeps own F.child where
  functions := rfl
  length_le := by simp [child]
  scope_eq := by
    intro k hk _
    simp [child, scope, List.getElem?_append_left hk]

variable {F F' : Family} {k : Nat} {op op' : Scope → Except Fault Scope}

theorem scope_set (hk : k < F.scopes.length) (s : Scope) :
    scope { F with scopes := F.scopes.set k s } k = s := by
  simp [scope, hk]

theorem keeps_set (F : Family) (k : Nat) (s : Scope) :
    F.Keeps (· = k) { F with scopes := F.scopes.set k s } where
  functions := rfl
  length_le := by simp
  scope_eq := by
    intro j hj hne
    simp [scope, List.getElem?_set_ne (Ne.symm hne)]

/-- A change after a change is one change. -/
theorem change_bind (hk : k < F.scopes.length) :
    ((F.change k op).bind fun F => F.change k op') = F.change k fun s => (op s).bind op' := by
  simp only [change]
  rcases hs : op (F.scope k) with e | s
  · simp only [Except.bind]
  · simp only [Except.bind, scope_set hk, List.set_set]

/-- A parameter is declared and assigned in one. -/
theorem introduce_eq_change (hk : k < F.scopes.length) (name : String) (v : Value) :
    F.introduce k name v = F.change k (·.introduce name v) := by
  have h : F.introduce k name v = F.change k fun s => (s.declare name).bind (·.assign name v) :=
    change_bind hk
  simp only [h, Scope.declare_bind_assign]

end Family

namespace Memory

/-- The memory with another scope of number `k`. -/
def setScope (M : Memory) (k : Nat) (s : Scope) : Memory :=
  { M with family := { M.family with scopes := M.family.scopes.set k s } }

theorem keeps_setScope (M : Memory) (k : Nat) (s : Scope) :
    M.family.Keeps (· = k) (M.setScope k s).family :=
  Family.keeps_set M.family k s

theorem update_change (M : Memory) (k : Nat) (op : Scope → Except Fault Scope) :
    M.update k (M.family.change k op) =
      (op (M.family.scope k)).map fun s => (k, M.setScope k s) := by
  unfold update Family.change
  rcases op (M.family.scope k) with f | s <;> rfl

/-- There is a scope of number `k`, and the functions are those of the rules. -/
structure Fits (M : Memory) (r : Rules) (k : Nat) : Prop where
  functions : M.family.functions = r.functions
  lt : k < M.family.scopes.length

theorem Fits.of_keeps {M M' : Memory} {r : Rules} {k : Nat} {own : Nat → Prop} (h : M.Fits r k)
    (hkeeps : M.family.Keeps own M'.family) : M'.Fits r k where
  functions := hkeeps.functions.trans h.functions
  lt := Nat.lt_of_lt_of_le h.lt hkeeps.length_le

theorem Fits.scope_eq {M M' : Memory} {r : Rules} {k : Nat} (h : M.Fits r k)
    (hkeeps : M.family.Keeps (fun _ => False) M'.family) :
    M'.family.scope k = M.family.scope k :=
  hkeeps.scope_eq k h.lt not_false

/-! ## What is seen of a computation -/

section

variable {σ τ α β γ δ : Type}

/-- A computation in the memory `M` has an outcome that is seen as `o`: with the value that `value`
makes of its value and with the same error, in the state that is in `view`. Besides, the scopes that
do not meet `own` are kept, also if there is an error. -/
def Shows (M : Memory) (own : Nat → Prop) (value : β → Memory → α) (view : Memory → σ)
    (o : Outcome σ α) : Outcome Memory β → Prop
  | .done b M' => o = .done (value b M') (view M') ∧ M.family.Keeps own M'.family
  | .failed e M' => o = .failed e (view M') ∧ M.family.Keeps own M'.family
  | .unfinished => o = .unfinished

namespace Shows

variable {M M' : Memory} {own own' : Nat → Prop} {value : β → Memory → α} {view : Memory → σ}
  {o : Outcome σ α} {o' : Outcome Memory β}

theorem done (b : β) (h : M.family.Keeps own M'.family) :
    M.Shows own value view (.done (value b M') (view M')) (.done b M') :=
  ⟨rfl, h⟩

theorem failed (e : RuntimeError) (h : M.family.Keeps own M'.family) :
    M.Shows own value view (.failed e (view M')) (.failed e M') :=
  ⟨rfl, h⟩

theorem unfinished : M.Shows own value view .unfinished .unfinished :=
  rfl

theorem ofExcept (x : Except Fault α) :
    M.Shows own (fun a _ => a) view (.ofExcept (view M) x) (Account.ofExcept M x) := by
  cases x with
  | ok a => exact ⟨rfl, .refl own _⟩
  | error f => exact ⟨rfl, .refl own _⟩

/-- What was done before counts as well. -/
theorem after (hM : M.family.Keeps own M'.family) (h : M'.Shows own value view o o') :
    M.Shows own value view o o' := by
  cases o' with
  | done b M'' => exact ⟨h.1, hM.trans h.2⟩
  | failed e M'' => exact ⟨h.1, hM.trans h.2⟩
  | unfinished => exact h

theorem mono (h : M.Shows own value view o o')
    (hown : ∀ k < M.family.scopes.length, own k → own' k) : M.Shows own' value view o o' := by
  cases o' with
  | done b M' => exact ⟨h.1, h.2.mono hown⟩
  | failed e M' => exact ⟨h.1, h.2.mono hown⟩
  | unfinished => exact h

/-- Changes in a scope that is new keep all that were there. -/
theorem of_new (h : M.Shows (· = M.family.scopes.length) value view o o') :
    M.Shows (fun _ => False) value view o o' :=
  h.mono fun _ hk hlast => absurd hlast (Nat.ne_of_lt hk)

/-- What goes on is seen if what it goes on with is. -/
theorem bind {value' : δ → Memory → γ} {f : α → σ → Outcome σ γ}
    {f' : β → Memory → Outcome Memory δ} (h : M.Shows own value view o o')
    (hf : ∀ (b : β) (M' : Memory), M.family.Keeps own M'.family →
      M'.Shows own value' view (f (value b M') (view M')) (f' b M')) :
    M.Shows own value' view (o.bind f) (o'.bind f') := by
  cases o' with
  | done b M' =>
    obtain ⟨rfl, hM⟩ := h
    exact (hf b M' hM).after hM
  | failed e M' =>
    obtain ⟨rfl, hM⟩ := h
    exact .failed e hM
  | unfinished =>
    obtain rfl : o = .unfinished := h
    exact .unfinished

/-- Another view, which may rely on the scopes that are kept. -/
theorem mapState {view' : Memory → τ} {g : σ → τ} (h : M.Shows own value view o o')
    (hg : ∀ M' : Memory, M.family.Keeps own M'.family → g (view M') = view' M') :
    M.Shows own value view' (o.mapState g) o' := by
  cases o' with
  | done b M' =>
    obtain ⟨rfl, hM⟩ := h
    exact ⟨congrArg (Outcome.done _) (hg M' hM), hM⟩
  | failed e M' =>
    obtain ⟨rfl, hM⟩ := h
    exact ⟨congrArg (Outcome.failed e) (hg M' hM), hM⟩
  | unfinished =>
    obtain rfl : o = .unfinished := h
    exact .unfinished

/-- A change of the state on both sides that leaves the scopes as they are. -/
theorem mapStates {o : Outcome σ α} {o' : Outcome Memory α} {view' : Memory → τ} {g : σ → τ}
    {g' : Memory → Memory} (h : M.Shows own (fun a _ => a) view o o')
    (hfamily : ∀ M', (g' M').family = M'.family) (hg : ∀ M', g (view M') = view' (g' M')) :
    M.Shows own (fun a _ => a) view' (o.mapState g) (o'.mapState g') := by
  cases o' with
  | done a M' =>
    obtain ⟨rfl, hM⟩ := h
    exact ⟨congrArg (Outcome.done a) (hg M'), hfamily M' ▸ hM⟩
  | failed e M' =>
    obtain ⟨rfl, hM⟩ := h
    exact ⟨congrArg (Outcome.failed e) (hg M'), hfamily M' ▸ hM⟩
  | unfinished =>
    obtain rfl : o = .unfinished := h
    exact .unfinished

theorem mapError (h : M.Shows own value view o o') (g : RuntimeError → RuntimeError) :
    M.Shows own value view (o.mapError g) (o'.mapError g) := by
  cases o' with
  | done b M' =>
    obtain ⟨rfl, hM⟩ := h
    exact .done b hM
  | failed e M' =>
    obtain ⟨rfl, hM⟩ := h
    exact .failed (g e) hM
  | unfinished =>
    obtain rfl : o = .unfinished := h
    exact .unfinished

/-- The outcome that is seen. -/
theorem eq_mapState {o : Outcome σ α} {o' : Outcome Memory α}
    (h : M.Shows own (fun a _ => a) view o o') : o = o'.mapState view := by
  cases o' with
  | done a M' => exact h.1
  | failed e M' => exact h.1
  | unfinished => exact h

theorem keeps (h : M.Shows own value view o o') (hend : o'.state? = some M') :
    M.family.Keeps own M'.family := by
  cases o' with
  | done b M'' =>
    obtain rfl : M'' = M' := Option.some.inj hend
    exact h.2
  | failed e M'' =>
    obtain rfl : M'' = M' := Option.some.inj hend
    exact h.2
  | unfinished => cases hend

end Shows

/-- What is seen of the value of an expression. All scopes are kept. -/
def Evaluates (M : Memory) (o : Outcome World α) (o' : Outcome Memory α) : Prop :=
  M.Shows (fun _ => False) (fun a _ => a) Memory.world o o'

/-- What is seen of parameters that are bound in the scope of number `c`. All other scopes are
kept. -/
def Binds (M : Memory) (c : Nat) (o : Outcome World Scope) (o' : Outcome Memory Nat) : Prop :=
  ∃ bound : Outcome Memory Unit, o' = bound.bind (fun _ M' => .done c M') ∧
    M.Shows (· = c) (fun _ M' => M'.family.scope c) Memory.world o bound

/-- What is seen from the scope of number `k` of statements that are carried out there. All other
scopes are kept. -/
def Executes (M : Memory) (k : Nat) (o : Outcome Store α) (o' : Outcome (Nat × Memory) α) : Prop :=
  ∃ executed : Outcome Memory α, o' = executed.mapState (Prod.mk k) ∧
    M.Shows (· = k) (fun a _ => a) (store k) o executed

namespace Binds

variable {M M' : Memory} {c : Nat} {o : Outcome World Scope} {o' : Outcome Memory Nat}

theorem done (M : Memory) (c : Nat) : M.Binds c (.done (M.family.scope c) M.world) (.done c M) :=
  ⟨.done () M, rfl, rfl, .refl _ _⟩

theorem failed (e : RuntimeError) (h : M.family.Keeps (· = c) M'.family) :
    M.Binds c (.failed e M'.world) (.failed e M') :=
  ⟨.failed e M', rfl, .failed e h⟩

theorem unfinished : M.Binds c .unfinished .unfinished :=
  ⟨.unfinished, rfl, .unfinished⟩

/-- What was done before counts as well. -/
theorem after (hM : M.family.Keeps (· = c) M'.family) (h : M'.Binds c o o') : M.Binds c o o' := by
  obtain ⟨bound, rfl, hshows⟩ := h
  exact ⟨bound, rfl, hshows.after hM⟩

/-- What goes on with the scope in which the parameters are bound. -/
theorem bind {f : Scope → World → Outcome World α} {f' : Nat → Memory → Outcome Memory α}
    (h : M.Binds c o o')
    (hf : ∀ M' : Memory, M.family.Keeps (· = c) M'.family →
      M'.Shows (· = c) (fun a _ => a) Memory.world (f (M'.family.scope c) M'.world) (f' c M')) :
    M.Shows (· = c) (fun a _ => a) Memory.world (o.bind f) (o'.bind f') := by
  obtain ⟨bound, rfl, hshows⟩ := h
  have hbind : (bound.bind fun _ M' => .done c M').bind f' = bound.bind fun _ M' => f' c M' := by
    cases bound <;> rfl
  rw [hbind]
  exact hshows.bind fun _ M' hkeeps => hf M' hkeeps

end Binds

namespace Executes

variable {M M' : Memory} {k : Nat} {o : Outcome Store α} {o' : Outcome (Nat × Memory) α}

theorem done (a : α) (h : M.family.Keeps (· = k) M'.family) :
    M.Executes k (.done a (M'.store k)) (.done a (k, M')) :=
  ⟨.done a M', rfl, .done a h⟩

theorem failed (e : RuntimeError) (h : M.family.Keeps (· = k) M'.family) :
    M.Executes k (.failed e (M'.store k) : Outcome Store α) (.failed e (k, M')) :=
  ⟨.failed e M', rfl, .failed e h⟩

theorem unfinished : M.Executes k (.unfinished : Outcome Store α) .unfinished :=
  ⟨.unfinished, rfl, .unfinished⟩

/-- What was done before counts as well. -/
theorem after (hM : M.family.Keeps (· = k) M'.family) (h : M'.Executes k o o') :
    M.Executes k o o' := by
  obtain ⟨executed, rfl, hshows⟩ := h
  exact ⟨executed, rfl, hshows.after hM⟩

theorem bind {f : α → Store → Outcome Store β}
    {f' : α → Nat × Memory → Outcome (Nat × Memory) β} (h : M.Executes k o o')
    (hf : ∀ (a : α) (M' : Memory), M.family.Keeps (· = k) M'.family →
      M'.Executes k (f a (M'.store k)) (f' a (k, M'))) :
    M.Executes k (o.bind f) (o'.bind f') := by
  obtain ⟨executed, rfl, hshows⟩ := h
  cases executed with
  | done a M' =>
    obtain ⟨rfl, hM⟩ := hshows
    exact (hf a M' hM).after hM
  | failed e M' =>
    obtain ⟨rfl, hM⟩ := hshows
    exact .failed e hM
  | unfinished =>
    obtain rfl : o = .unfinished := hshows
    exact .unfinished

theorem mapError (h : M.Executes k o o') (g : RuntimeError → RuntimeError) :
    M.Executes k (o.mapError g) (o'.mapError g) := by
  obtain ⟨executed, rfl, hshows⟩ := h
  refine ⟨executed.mapError g, ?_, hshows.mapError g⟩
  cases executed <;> rfl

/-- What is seen if only the memory is kept of what the statements work on. -/
theorem shows (h : M.Executes k o o') :
    M.Shows (· = k) (fun a _ => a) (store k) o (o'.mapState Prod.snd) := by
  obtain ⟨executed, rfl, hshows⟩ := h
  cases executed <;> exact hshows

end Executes

namespace Evaluates

variable {M : Memory} {k c : Nat} {o : Outcome World α} {o' : Outcome Memory α}

/-- Parameters are bound to the value of an argument. -/
theorem binds {f : α → World → Outcome World Scope} {f' : α → Memory → Outcome Memory Nat}
    (h : M.Evaluates o o')
    (hf : ∀ (a : α) (M' : Memory), M.family.Keeps (fun _ => False) M'.family →
      M'.Binds c (f a M'.world) (f' a M')) : M.Binds c (o.bind f) (o'.bind f') := by
  cases o' with
  | done a M' =>
    obtain ⟨rfl, hM⟩ := h
    exact (hf a M' hM).after (hM.mono fun _ _ hno => hno.elim)
  | failed e M' =>
    obtain ⟨rfl, hM⟩ := h
    exact .failed e (hM.mono fun _ _ hno => hno.elim)
  | unfinished =>
    obtain rfl : o = .unfinished := h
    exact .unfinished

/-- Statements look at expressions from their scope. -/
theorem executes {r : Rules} (h : M.Evaluates o o') (hM : M.Fits r k) :
    M.Executes k (o.mapState (⟨M.family.scope k, ·⟩)) (o'.mapState (Prod.mk k)) := by
  have hstore : M.Shows (fun _ => False) (fun a _ => a) (store k)
      (o.mapState (⟨M.family.scope k, ·⟩)) o' :=
    h.mapState fun M' hkeeps => by rw [store, hM.scope_eq hkeeps]
  exact ⟨o', rfl, hstore.mono fun _ _ hno => hno.elim⟩

end Evaluates

end

end Memory

/-! ## The two interpreters agree -/

namespace Rules

/-- What is seen of every computation with `n` steps is the outcome of the interpreter that knows a
single scope. -/
structure ShowsAt (r : Rules) (n : Nat) : Prop where
  eval : ∀ (M : Memory) (k : Nat) (e : Expr), M.Fits r k →
    M.Evaluates (r.eval n (M.family.scope k) e M.world) (rememberer.eval r n k e M)
  chain : ∀ (M : Memory) (k : Nat) (acc : Value) (rest : List Expr) (ops : List ArithOp),
    M.Fits r k → M.Evaluates (r.chain n (M.family.scope k) acc rest ops M.world)
      (rememberer.chain r n k acc rest ops M)
  call : ∀ (M : Memory) (k : Nat) (name : String) (args : List Expr), M.Fits r k →
    M.Evaluates (r.call n (M.family.scope k) name args M.world) (rememberer.call r n k name args M)
  bindArguments : ∀ (M : Memory) (k c : Nat) (ps : List String) (args : List Expr), M.Fits r k →
    M.Fits r c → k ≠ c →
    M.Binds c (r.bindArguments n (M.family.scope k) ps args (M.family.scope c) M.world)
      (rememberer.bindArguments r n k ps args c M)
  test : ∀ (M : Memory) (k : Nat) (c : Condition), M.Fits r k →
    M.Evaluates (r.test n (M.family.scope k) c M.world) (rememberer.test r n k c M)
  block : ∀ (M : Memory) (k : Nat) (b : Block), M.Fits r k →
    M.Executes k (r.block n b (M.store k)) (rememberer.block r n b (k, M))
  sequence : ∀ (M : Memory) (k : Nat) (statements : List Statement), M.Fits r k →
    M.Executes k (r.sequence n statements (M.store k)) (rememberer.sequence r n statements (k, M))
  statement : ∀ (M : Memory) (k : Nat) (st : Statement), M.Fits r k →
    M.Executes k (r.statement n st (M.store k)) (rememberer.statement r n st (k, M))
  action : ∀ (M : Memory) (k : Nat) (st : Statement), M.Fits r k →
    M.Executes k (r.action n st (M.store k)) (rememberer.action r n st (k, M))
  loop : ∀ (M : Memory) (k : Nat) (c : Condition) (body : Block), M.Fits r k →
    M.Executes k (r.loop n c body (M.store k)) (rememberer.loop r n c body (k, M))

section Step

variable {r : Rules} {n : Nat} {M : Memory} {k : Nat}

theorem showsAt_zero (r : Rules) : r.ShowsAt 0 := by
  constructor
  all_goals
    intros
    first | exact Memory.Shows.unfinished | exact .unfinished

theorem shows_roll (attempts : Nat) (v : Value) (M : Memory) :
    M.Evaluates (M.world.roll attempts v) (Account.roll attempts v M) := by
  unfold Account.roll World.roll
  rcases v.dice? with - | d
  · exact ⟨rfl, .refl _ _⟩
  simp only [Realm.world]
  rcases M.world.generator.roll attempts d with f | - | ⟨total, g⟩
  · exact ⟨rfl, .refl _ _⟩
  · rfl
  · exact ⟨rfl, .refl _ _⟩

theorem shows_eval (ih : r.ShowsAt n) (e : Expr) (hM : M.Fits r k) :
    M.Evaluates (r.eval (n + 1) (M.family.scope k) e M.world)
      (rememberer.eval r (n + 1) k e M) := by
  cases e with
  | number v =>
    simp only [eval, Evaluator.eval]
    exact .done _ (.refl _ _)
  | text s =>
    simp only [eval, Evaluator.eval]
    exact .done _ (.refl _ _)
  | dice d =>
    simp only [eval, Evaluator.eval]
    exact .done _ (.refl _ _)
  | var x =>
    simp only [eval, Evaluator.eval]
    exact .ofExcept _
  | call f args =>
    simp only [eval, Evaluator.eval]
    exact ih.call M k f args hM
  | roll operand =>
    simp only [eval, Evaluator.eval]
    exact (ih.eval M k operand hM).bind fun v M' _ => shows_roll n v M'
  | chain operands operators =>
    rcases operands with - | ⟨first, rest⟩
    · simp only [eval, Evaluator.eval]
      exact .done _ (.refl _ _)
    · simp only [eval, Evaluator.eval]
      refine (ih.eval M k first hM).bind fun acc M' hkeeps => ?_
      rcases operators with - | ⟨op, ops⟩
      · exact .done _ (.refl _ _)
      · by_cases hacc : acc.isNumeric = true
        -- the operand may have called functions, but the scope it stands in is as it was
        · simp only [if_pos hacc, ← hM.scope_eq hkeeps]
          exact ih.chain M' k acc rest (op :: ops) (hM.of_keeps hkeeps)
        · simp only [if_neg hacc]
          exact .failed _ (.refl _ _)
  | hole =>
    simp only [eval, Evaluator.eval]
    exact .failed _ (.refl _ _)
  | «foreign» label =>
    simp only [eval, Evaluator.eval]
    exact .failed _ (.refl _ _)

theorem shows_chain (ih : r.ShowsAt n) (acc : Value) (operands : List Expr)
    (operators : List ArithOp) (hM : M.Fits r k) :
    M.Evaluates (r.chain (n + 1) (M.family.scope k) acc operands operators M.world)
      (rememberer.chain r (n + 1) k acc operands operators M) := by
  rcases operators with - | ⟨op, ops⟩
  · cases operands <;> exact .done _ (.refl _ _)
  rcases operands with - | ⟨operand, rest⟩
  · exact .done _ (.refl _ _)
  · simp only [chain, Evaluator.chain]
    refine (ih.eval M k operand hM).bind fun v M' hkeeps => ?_
    rcases op.apply acc v with f | acc
    · exact .failed _ (.refl _ _)
    · simp only [← hM.scope_eq hkeeps]
      exact ih.chain M' k acc rest ops (hM.of_keeps hkeeps)

/-- The arguments are evaluated in the scope of the caller, which is not the one that they are bound
in. -/
theorem shows_bindArguments (ih : r.ShowsAt n) {c : Nat} (parameters : List String)
    (args : List Expr) (hM : M.Fits r k) (hc : M.Fits r c) (hne : k ≠ c) :
    M.Binds c
      (r.bindArguments (n + 1) (M.family.scope k) parameters args (M.family.scope c) M.world)
      (rememberer.bindArguments r (n + 1) k parameters args c M) := by
  rcases parameters with - | ⟨p, ps⟩
  · simp only [bindArguments, Evaluator.bindArguments]
    exact .done M c
  rcases args with - | ⟨arg, args⟩
  · simp only [bindArguments, Evaluator.bindArguments]
    exact .done M c
  simp only [bindArguments, Evaluator.bindArguments, Realm.introduce]
  refine (ih.eval M k arg hM).binds fun v M' hkeeps => ?_
  rw [← hM.scope_eq hkeeps, ← hc.scope_eq hkeeps]
  have hM' := hM.of_keeps hkeeps
  have hc' := hc.of_keeps hkeeps
  rw [Family.introduce_eq_change hc'.lt, Memory.update_change]
  rcases (M'.family.scope c).introduce p v with f | callee
  · exact .failed _ (.refl _ _)
  · -- the scope of the caller is not the one that has changed
    have hset := M'.keeps_setScope c callee
    have hcallee : (M'.setScope c callee).family.scope c = callee := Family.scope_set hc'.lt callee
    have hmore := ih.bindArguments (M'.setScope c callee) k c ps args (hM'.of_keeps hset)
      (hc'.of_keeps hset) hne
    rw [hset.scope_eq k hM'.lt hne, hcallee] at hmore
    exact hmore.after hset

theorem shows_enter (ih : r.ShowsAt n) (f : Function) (hM : M.Fits r k) :
    M.Shows (· = k) (fun a _ => a) Memory.world (r.enter n f (M.family.scope k) M.world)
      (rememberer.enter r n f k M) := by
  have hdeeper : (Realm.deeper M).Fits r k := ⟨hM.functions, hM.lt⟩
  obtain ⟨executed, hexecuted, hblock⟩ := ih.block (Realm.deeper M) k f.body hdeeper
  have hleft : M.Shows (· = k) (fun a _ => a) Memory.world
      ((r.block n f.body
        ⟨M.family.scope k, { M.world with depth := M.world.depth + 1 }⟩).mapState leave)
      ((executed.mapState (Prod.mk k)).mapState (Realm.shallower ∘ Site.state)) := by
    rw [Outcome.mapState_mapState]
    exact hblock.mapStates (fun _ => rfl) fun _ => rfl
  rw [← hexecuted] at hleft
  exact (hleft.mapError (·.leaving f.name)).bind fun signal M' _ => .done _ (.refl _ _)

theorem shows_call (ih : r.ShowsAt n) (name : String) (args : List Expr) (hM : M.Fits r k) :
    M.Evaluates (r.call (n + 1) (M.family.scope k) name args M.world)
      (rememberer.call r (n + 1) k name args M) := by
  simp only [call_succ, Evaluator.call, Realm.function, Family.function, hM.functions]
  rcases lookupFunction r.functions name with - | f
  · exact .failed _ (.refl _ _)
  by_cases hcount : args.length ≠ f.parameters.length
  · simp only [if_pos hcount]
    exact .failed _ (.refl _ _)
  simp only [if_neg hcount]
  -- the scope of the call is a new one, so that it may be changed
  have hchild : M.family.Keeps (· = M.family.scopes.length) M.family.child := M.family.keeps_child _
  have hnew : M.family.child.scope M.family.scopes.length = .empty := by
    simp [Family.child, Family.scope]
  have hlt : M.family.scopes.length < M.family.child.scopes.length := by simp [Family.child]
  have hargs := ih.bindArguments { M with family := M.family.child } k M.family.scopes.length
    f.parameters args (hM.of_keeps hchild) ⟨hM.functions, hlt⟩ (Nat.ne_of_lt hM.lt)
  rw [hchild.scope_eq k hM.lt (Nat.ne_of_lt hM.lt), hnew] at hargs
  refine ((hargs.bind fun M' hkeeps => ?_).after hchild).of_new
  simp only [Realm.world]
  by_cases hdepth : r.maxDepth ≤ M'.world.depth
  · simp only [if_pos hdepth]
    exact .failed _ (.refl _ _)
  · simp only [if_neg hdepth]
    exact shows_enter ih f ⟨hkeeps.functions.trans hM.functions,
      Nat.lt_of_lt_of_le hlt hkeeps.length_le⟩

theorem shows_test (ih : r.ShowsAt n) (c : Condition) (hM : M.Fits r k) :
    M.Evaluates (r.test (n + 1) (M.family.scope k) c M.world)
      (rememberer.test r (n + 1) k c M) := by
  simp only [test, Evaluator.test]
  refine (ih.eval M k c.left hM).bind fun a M' hkeeps => ?_
  simp only [← hM.scope_eq hkeeps]
  exact (ih.eval M' k c.right (hM.of_keeps hkeeps)).bind fun b M'' _ => .ofExcept _

theorem shows_block (ih : r.ShowsAt n) (b : Block) (hM : M.Fits r k) :
    M.Executes k (r.block (n + 1) b (M.store k)) (rememberer.block r (n + 1) b (k, M)) := by
  rcases b with - | statements
  · simp only [block, Evaluator.block]
    exact .done _ (.refl _ _)
  · simp only [block, Evaluator.block]
    exact ih.sequence M k statements hM

theorem shows_sequence (ih : r.ShowsAt n) (statements : List Statement) (hM : M.Fits r k) :
    M.Executes k (r.sequence (n + 1) statements (M.store k))
      (rememberer.sequence r (n + 1) statements (k, M)) := by
  rcases statements with - | ⟨first, rest⟩
  · simp only [sequence, Evaluator.sequence]
    exact .done _ (.refl _ _)
  · simp only [sequence_cons, Evaluator.sequence]
    refine (ih.statement M k first hM).bind fun signal M' hkeeps => ?_
    cases signal with
    | next => exact ih.sequence M' k rest (hM.of_keeps hkeeps)
    | returned v => exact .done _ (.refl _ _)

theorem shows_statement (ih : r.ShowsAt n) (st : Statement) (hM : M.Fits r k) :
    M.Executes k (r.statement (n + 1) st (M.store k))
      (rememberer.statement r (n + 1) st (k, M)) := by
  simp only [statement, Evaluator.statement, Site.world, Site.state, Realm.world]
  by_cases hstop : M.world.interrupted = true
  · have hstop' : (M.store k).world.interrupted = true := hstop
    rw [if_pos hstop, if_pos hstop']
    exact .failed _ (.refl _ _)
  · have hstop' : ¬(M.store k).world.interrupted = true := hstop
    rw [if_neg hstop, if_neg hstop']
    exact (ih.action M k st hM).mapError _

/-- A change in the current scope. -/
theorem shows_change (op : Scope → Except Fault Scope) (hM : M.Fits r k) :
    M.Executes k
      (match op (M.family.scope k) with
        | .ok scope => .done Signal.next ⟨scope, M.world⟩
        | .error f => .failed (.ofFault f) (M.store k))
      (Account.update (k, M) (M.update k (M.family.change k op))) := by
  rw [Memory.update_change]
  rcases op (M.family.scope k) with f | scope
  · exact .failed _ (.refl _ _)
  · have hscope : (M.setScope k scope).family.scope k = scope := Family.scope_set hM.lt scope
    have hdone := Memory.Executes.done Signal.next (M.keeps_setScope k scope)
    rw [Memory.store, hscope] at hdone
    exact hdone

theorem shows_action (ih : r.ShowsAt n) (st : Statement) (hM : M.Fits r k) :
    M.Executes k (r.action (n + 1) st (M.store k)) (rememberer.action r (n + 1) st (k, M)) := by
  cases st with
  | declare line type x =>
    simp only [action, Evaluator.action]
    exact shows_change (·.declare x) hM
  | assign line x e =>
    simp only [action, Evaluator.action]
    exact ((ih.eval M k e hM).executes hM).bind fun v M' hkeeps =>
      shows_change (·.assign x v) (hM.of_keeps hkeeps)
  | attack line attacker defender =>
    simp only [action, Evaluator.action]
    exact .done _ (.refl _ _)
  | loop line c body =>
    simp only [action, Evaluator.action]
    exact ih.loop M k c body hM
  | branch line c body alternative =>
    simp only [action, Evaluator.action]
    refine ((ih.test M k c hM).executes hM).bind fun holds M' hkeeps => ?_
    cases holds with
    | true => exact ih.block M' k body (hM.of_keeps hkeeps)
    | false => exact ih.block M' k alternative (hM.of_keeps hkeeps)
  | log line e =>
    simp only [action, Evaluator.action]
    exact ((ih.eval M k e hM).executes hM).bind fun v M' _ => .done _ (.refl _ _)
  | give line e =>
    simp only [action, Evaluator.action]
    exact ((ih.eval M k e hM).executes hM).bind fun v M' _ => .done _ (.refl _ _)
  | call line f args =>
    simp only [action, Evaluator.action]
    exact ((ih.call M k f args hM).executes hM).bind fun _ M' _ => .done _ (.refl _ _)
  | «foreign» line label =>
    simp only [action, Evaluator.action]
    exact .failed _ (.refl _ _)

theorem shows_loop (ih : r.ShowsAt n) (c : Condition) (body : Block) (hM : M.Fits r k) :
    M.Executes k (r.loop (n + 1) c body (M.store k)) (rememberer.loop r (n + 1) c body (k, M)) := by
  simp only [loop_succ, Evaluator.loop]
  refine ((ih.test M k c hM).executes hM).bind fun holds M' hkeeps => ?_
  have hM' := hM.of_keeps hkeeps
  cases holds with
  | false => exact .done _ (.refl _ _)
  | true =>
    refine (ih.block M' k body hM').bind fun signal M'' hkeeps' => ?_
    cases signal with
    | returned v => exact .done _ (.refl _ _)
    | next =>
      simp only [Site.world, Site.state, Realm.world]
      by_cases hstop : M''.world.interrupted = true
      · have hstop' : (M''.store k).world.interrupted = true := hstop
        simp only [if_pos hstop, if_pos hstop']
        exact .failed _ (.refl _ _)
      · have hstop' : ¬(M''.store k).world.interrupted = true := hstop
        simp only [if_neg hstop, if_neg hstop']
        exact ih.loop M'' k c body (hM'.of_keeps hkeeps')

/-- **The two interpreters agree**, and no scope is changed but the one of the statements that are
carried out. -/
theorem showsAt (r : Rules) (n : Nat) : r.ShowsAt n := by
  induction n with
  | zero => exact showsAt_zero r
  | succ n ih =>
    exact
      { eval := fun _ _ e => shows_eval ih e
        chain := fun _ _ acc rest ops => shows_chain ih acc rest ops
        call := fun _ _ name args => shows_call ih name args
        bindArguments := fun _ _ _ ps args => shows_bindArguments ih ps args
        test := fun _ _ c => shows_test ih c
        block := fun _ _ b => shows_block ih b
        sequence := fun _ _ statements => shows_sequence ih statements
        statement := fun _ _ st => shows_statement ih st
        action := fun _ _ st => shows_action ih st
        loop := fun _ _ c body => shows_loop ih c body }

theorem shows_instructions (steps : Nat) (statements : List Statement) (hM : M.Fits r 0) :
    M.Executes 0 (r.instructions steps statements (M.store 0))
      (rememberer.instructions r steps statements (0, M)) := by
  induction statements generalizing M with
  | nil => exact .done _ (.refl _ _)
  | cons first rest ih =>
    rw [instructions_cons]
    exact ((showsAt r steps).statement M 0 first hM).bind fun _ M' hkeeps =>
      ih (hM.of_keeps hkeeps)

end Step

/-! ## Isolation -/

variable {r : Rules} {steps : Nat} {f : Function}

/-- What was shown before a call has no influence on it. -/
theorem enter_following (r : Rules) (steps : Nat) (f : Function) (callee : Scope)
    (pre : Array Output) (w : World) :
    r.enter steps f callee (w.following pre) =
      (r.enter steps f callee w).mapState (World.following pre) :=
  kept_enter (keptAt (.refl (fun _ => True) r) (Nat.le_refl steps) fun _ => rfl) f callee w
    (Outcome.settled_of_all _)

/-- What is seen of a body depends on the scope of its call and on the world alone. -/
theorem mapState_world_enter {M : Memory} {c : Nat} (hM : M.Fits r c) {w : World}
    (hw : M.world = w.following M.world.outputs) :
    (rememberer.enter r steps f c M).mapState Memory.world =
      (r.enter steps f (M.family.scope c) w).mapState (World.following M.world.outputs) := by
  rw [← (shows_enter (showsAt r steps) f hM).eq_mapState, ← enter_following, ← hw]

/-- **The body of a function is isolated from its callers.** Take two memories in which the scope of
the call has the same variables with the same values, while all other scopes may differ, and even
their number. If dice are rolled from the same generator, as many calls are in progress, there is or
is not a request to stop in both and the same listener is told of what is shown, then the body ends
in the same way: with the same value or the same error, the generator and the request being in the
same state again and the same texts having been shown in the same order. And it leaves every other
scope as it was, whether it fails or not. So do calls as a whole, with their arguments. What is seen
of bodies and calls is what the interpreter does that knows a single scope. -/
theorem body_isolated_from_callers (r : Rules) (steps : Nat) (f : Function) :
    (∀ (M₁ M₂ : Memory) (c₁ c₂ : Nat), M₁.Fits r c₁ → M₂.Fits r c₂ →
      M₁.family.scope c₁ = M₂.family.scope c₂ →
      M₁.world.generator = M₂.world.generator → M₁.world.depth = M₂.world.depth →
      M₁.world.interrupted = M₂.world.interrupted → M₁.world.listener = M₂.world.listener →
      ∃ o : Outcome World Value,
        (rememberer.enter r steps f c₁ M₁).mapState Memory.world =
          o.mapState (World.following M₁.world.outputs) ∧
        (rememberer.enter r steps f c₂ M₂).mapState Memory.world =
          o.mapState (World.following M₂.world.outputs)) ∧
    (∀ (M : Memory) (c : Nat), M.Fits r c →
      (rememberer.enter r steps f c M).mapState Memory.world =
        r.enter steps f (M.family.scope c) M.world ∧
      ∀ M', (rememberer.enter r steps f c M).state? = some M' →
        ∀ k < M.family.scopes.length, k ≠ c → M'.family.scope k = M.family.scope k) ∧
    ∀ (M : Memory) (k : Nat) (name : String) (args : List Expr), M.Fits r k →
      (rememberer.call r steps k name args M).mapState Memory.world =
        r.call steps (M.family.scope k) name args M.world ∧
      ∀ M', (rememberer.call r steps k name args M).state? = some M' →
        ∀ j < M.family.scopes.length, M'.family.scope j = M.family.scope j := by
  refine ⟨?_, fun M c hM => ?_, fun M k name args hM => ?_⟩
  · intro M₁ M₂ c₁ c₂ h₁ h₂ hscope hgenerator hdepth hinterrupted hlistener
    -- both bodies do what is done in a world that has shown nothing yet
    refine ⟨r.enter steps f (M₁.family.scope c₁) { M₁.world with outputs := #[] }, ?_, ?_⟩
    · exact mapState_world_enter h₁ (by simp [World.following])
    · rw [hscope]
      refine mapState_world_enter h₂ ?_
      simp [World.following, hgenerator, hdepth, hinterrupted, hlistener]
  · have hshows := shows_enter (showsAt r steps) f hM
    exact ⟨hshows.eq_mapState.symm, fun M' hend => (hshows.keeps hend).scope_eq⟩
  · have hshows := (showsAt r steps).call M k name args hM
    exact ⟨hshows.eq_mapState.symm, fun M' hend j hj => (hshows.keeps hend).scope_eq j hj not_false⟩

/-- A function that has its parameter changed by another one under the same name, and that then
assigns to a variable which it has not declared. -/
def meddle : Function :=
  ⟨1, "meddle", ["x"], some [.log 2 (.var "x"), .assign 3 "x" (.call "echo" [.var "x"]),
    .assign 4 "y" (.var "x")]⟩

def meddleRules : Rules :=
  ⟨[meddle, ⟨6, "echo", ["x"], some [.log 7 (.var "x"), .assign 8 "x" (.text "two"),
    .give 9 (.var "x")]⟩], 5⟩

/-- A call of the function from a top level with the given variables, where something was shown. -/
def meddleMemory (top : List (String × Value)) (shown : Array Output) : Memory :=
  ⟨⟨meddleRules.functions, [⟨top⟩, ⟨[("x", .text "one")]⟩]⟩, ⟨⟨#[], 0, 0⟩, 1, false, shown, none⟩⟩

/-- The variable that the function is after is one of its caller. This does not help, and it keeps
its value; the same happens if the caller has no such variable. -/
theorem meddle_isolated_from_callers :
    (∃ e M, rememberer.enter meddleRules 20 meddle 1
        (meddleMemory [("x", .text "mine"), ("y", .text "mine too")] #[]) = .failed e M ∧
      e.fault = .undeclared "y" ∧ M.world.outputs = #[⟨"one", true⟩, ⟨"one", true⟩] ∧
      M.family.get 0 "x" = .ok (.text "mine") ∧ M.family.get 0 "y" = .ok (.text "mine too")) ∧
    ∃ o : Outcome World Value,
      (rememberer.enter meddleRules 20 meddle 1
        (meddleMemory [("x", .text "mine"), ("y", .text "mine too")] #[])).mapState Memory.world =
        o.mapState (World.following #[]) ∧
      (rememberer.enter meddleRules 20 meddle 1 (meddleMemory [] #[⟨"before", true⟩])).mapState
        Memory.world = o.mapState (World.following #[⟨"before", true⟩]) := by
  obtain ⟨htwo, hframe, -⟩ := body_isolated_from_callers meddleRules 20 meddle
  have hfits : ∀ top shown, (meddleMemory top shown).Fits meddleRules 1 := fun _ _ =>
    ⟨rfl, Nat.lt_succ_self 1⟩
  refine ⟨?_, htwo _ _ 1 1 (hfits _ _) (hfits _ _) rfl rfl rfl rfl rfl⟩
  obtain ⟨e, M, hfailed, hfault, hshown⟩ : ∃ e M, rememberer.enter meddleRules 20 meddle 1
      (meddleMemory [("x", .text "mine"), ("y", .text "mine too")] #[]) = .failed e M ∧
      e.fault = .undeclared "y" ∧ M.world.outputs = #[⟨"one", true⟩, ⟨"one", true⟩] :=
    ⟨_, _, rfl, rfl, rfl⟩
  have htop := (hframe _ 1 (hfits _ _)).2 M (congrArg Outcome.state? hfailed) 0
    (Nat.lt_succ_of_lt Nat.zero_lt_one) Nat.zero_ne_one
  refine ⟨e, M, hfailed, hfault, hshown, ?_, ?_⟩
  · rw [Family.get, htop]
    rfl
  · rw [Family.get, htop]
    rfl

end Rules

/-! ## Machines -/

namespace Machine

/-- The memory of a machine, where no calls have been made. -/
def memory (m : Machine) : Memory :=
  ⟨⟨m.functions, [m.scope]⟩, m.world⟩

theorem shows_instructionsIn (m : Machine) (steps : Nat) (statements : List Statement) :
    m.memory.Shows (· = 0) (fun a _ => a) (Memory.store 0)
      (m.rules.instructions steps statements ⟨m.scope, m.world⟩)
      (m.rules.instructionsIn steps statements m.memory) := by
  have hfits : m.memory.Fits m.rules 0 := ⟨rfl, Nat.zero_lt_one⟩
  exact (Rules.shows_instructions steps statements hfits).shows

/-- **A program is run as if there were a memory**: instructions that reach every scope do to the
top level and to the world what the machine does. -/
theorem perform_eq_memory (m : Machine) (steps : Nat) (statements : List Statement) :
    m.perform steps statements =
      (m.rules.instructionsIn steps statements m.memory).mapState fun M =>
        { m with scope := M.family.scope 0, world := M.world } := by
  rw [perform, (m.shows_instructionsIn steps statements).eq_mapState, Outcome.mapState_mapState]
  rfl

end Machine

end Adventure
