import Adventure.Proofs.Alike

/-!
# Chains and how they may be grouped

A chain of operands is computed from left to right, so that it is worth what a chain is worth whose
first operands are put together in a chain of their own. This is not only so for values: operands
can call functions, which show something, roll dice or fail, and none of that is done at another
time or twice (`Rules.chain_alike_regrouped`).

The interpreter looks whether the first operand is a number before it looks at the second one, and
leaves the later ones to the operators. A chain that is grouped has its first operands looked at
once more, as one value. That this finds nothing new is because operators give nothing but numbers
(`ArithOp.isNumeric_of_apply`).
-/

namespace Adventure

open Outcome (Alike)

/-- The chain of a first operand and of those that follow it, each with its operator. -/
def Expr.chained (first : Expr) (terms : List (ArithOp × Expr)) : Expr :=
  .chain (first :: terms.map (·.2)) (terms.map (·.1))

/-- The chain as a tree, each of whose nodes has two operands, and whose left one is the chain
before the last operand. -/
def Expr.leftNested (first : Expr) (terms : List (ArithOp × Expr)) : Expr :=
  terms.foldl (fun e term => e.chained [term]) first

theorem Outcome.bind_done_right {σ α : Type} (o : Outcome σ α) :
    (o.bind fun a s => .done a s) = o := by
  cases o <;> rfl

/-- What an operator gives is a number. -/
theorem ArithOp.isNumeric_of_apply {op : ArithOp} {a b v : Value} (h : op.apply a b = .ok v) :
    v.isNumeric = true := by
  unfold ArithOp.apply at h
  split at h
  · cases h
  · split at h
    · split at h
      · cases h
      · cases h
        rfl
    · split at h
      · split at h <;> cases h <;> rfl
      · cases h
        rfl

namespace Rules

variable (r : Rules) (scope : Scope)

theorem alike_eval (e : Expr) (w : World) :
    Alike (fun n => r.eval n scope e w) fun n => r.eval n scope e w :=
  .refl_of_kept fun n k hle => by
    simpa only [World.following_empty, id] using (r.keptAt_self hle).eval scope e w

/-! ## The operands behind the first one -/

/-- Goes on with terms behind operands that are worth `acc`. -/
def along (n : Nat) (acc : Value) (terms : List (ArithOp × Expr)) (w : World) :
    Outcome World Value :=
  r.chain n scope acc (terms.map (·.2)) (terms.map (·.1)) w

/-- Goes on with terms behind a first operand that is worth `acc`. If there are any, then it has to
be a number. -/
def behind (n : Nat) (terms : List (ArithOp × Expr)) (acc : Value) (w : World) :
    Outcome World Value :=
  match terms with
  | [] => .done acc w
  | _ :: _ =>
    if acc.isNumeric then r.along scope n acc terms w
    else .failed (.ofFault .arithmeticOnOther) w

/-- Evaluates an operand and applies the operator before it. -/
def operate (n : Nat) (op : ArithOp) (operand : Expr) (acc : Value) (w : World) :
    Outcome World Value :=
  (r.eval n scope operand w).bind fun v w => .ofExcept w (op.apply acc v)

theorem alike_along (acc : Value) (terms : List (ArithOp × Expr)) (w : World) :
    Alike (fun n => r.along scope n acc terms w) fun n => r.along scope n acc terms w :=
  .refl_of_kept fun n k hle => by
    simpa only [World.following_empty, id, along] using (r.keptAt_self hle).chain scope acc _ _ w

theorem alike_along_nil (acc : Value) (w : World) :
    Alike (fun n => r.along scope n acc [] w) fun _ => .done acc w := by
  refine .of_succ (by rw [along, chain]) ?_
  simpa only [along, List.map_nil, chain] using .const _

/-- One operand after the other. -/
theorem alike_along_cons (acc : Value) (op : ArithOp) (operand : Expr)
    (terms : List (ArithOp × Expr)) (w : World) :
    Alike (fun n => r.along scope n acc ((op, operand) :: terms) w)
      fun n => (r.operate scope n op operand acc w).bind fun acc w =>
        r.along scope n acc terms w := by
  refine .of_succ (by rw [along, chain]) ?_
  simp only [along, List.map_cons, chain, operate, Outcome.bind_assoc]
  refine .bind (r.alike_eval scope operand w) fun v w => ?_
  cases op.apply acc v with
  | ok acc => exact r.alike_along scope acc terms w
  | error f => exact .const _

theorem alike_behind (terms : List (ArithOp × Expr)) (acc : Value) (w : World) :
    Alike (fun n => r.behind scope n terms acc w) fun n => r.behind scope n terms acc w := by
  cases terms with
  | nil => exact .const _
  | cons term terms =>
    by_cases hacc : acc.isNumeric = true
    · simpa only [behind, if_pos hacc] using r.alike_along scope acc (term :: terms) w
    · simpa only [behind, if_neg hacc] using .const _

/-- What is known to be a number needs no look. -/
theorem alike_behind_of_isNumeric {acc : Value} (hacc : acc.isNumeric = true)
    (terms : List (ArithOp × Expr)) (w : World) :
    Alike (fun n => r.behind scope n terms acc w) fun n => r.along scope n acc terms w := by
  cases terms with
  | nil => exact (r.alike_along_nil scope acc w).symm
  | cons term terms =>
    simpa only [behind, if_pos hacc] using r.alike_along scope acc (term :: terms) w

/-- The later terms go on with what the earlier ones come to. The look at it in between finds a
number: the first operand was one, or an operator has given it. -/
theorem alike_along_append {acc : Value} (hacc : acc.isNumeric = true)
    (front back : List (ArithOp × Expr)) (w : World) :
    Alike (fun n => r.along scope n acc (front ++ back) w)
      fun n => (r.along scope n acc front w).bind (r.behind scope n back) := by
  induction front generalizing acc w with
  | nil =>
    have hnil := (r.alike_along_nil scope acc w).bind (r.alike_behind scope back)
    exact (r.alike_behind_of_isNumeric scope hacc back w).symm.trans hnil.symm
  | cons term front ih =>
    have hfront := (r.alike_along_cons scope acc term.1 term.2 front w).bind
      (r.alike_behind scope back)
    have hall := r.alike_along_cons scope acc term.1 term.2 (front ++ back) w
    refine hall.trans (.trans ?_ hfront.symm)
    simp only [operate, Outcome.bind_assoc]
    refine .bind (r.alike_eval scope term.2 w) fun v w => ?_
    rcases happly : term.1.apply acc v with f | acc'
    · exact .const _
    · exact ih (ArithOp.isNumeric_of_apply happly) w

theorem alike_behind_append (front back : List (ArithOp × Expr)) (acc : Value) (w : World) :
    Alike (fun n => r.behind scope n (front ++ back) acc w)
      fun n => (r.behind scope n front acc w).bind (r.behind scope n back) := by
  cases front with
  | nil => exact r.alike_behind scope back acc w
  | cons term front =>
    by_cases hacc : acc.isNumeric = true
    · simpa only [List.cons_append, behind, if_pos hacc] using
        r.alike_along_append scope hacc (term :: front) back w
    · simpa only [List.cons_append, behind, if_neg hacc] using .const _

/-! ## Chains -/

/-- The first operand, and then the terms behind it. -/
theorem alike_eval_chained (first : Expr) (terms : List (ArithOp × Expr)) (w : World) :
    Alike (fun n => r.eval n scope (first.chained terms) w)
      fun n => (r.eval n scope first w).bind (r.behind scope n terms) := by
  refine .of_succ (by rw [eval]) ?_
  simp only [Expr.chained, eval]
  refine .bind (r.alike_eval scope first w) fun acc w => ?_
  cases terms with
  | nil => exact .const _
  | cons term terms => exact r.alike_behind scope (term :: terms) acc w

theorem alike_eval_chained_append (first : Expr) (front back : List (ArithOp × Expr)) (w : World) :
    Alike (fun n => r.eval n scope (first.chained (front ++ back)) w)
      fun n => r.eval n scope ((first.chained front).chained back) w := by
  have hwhole := (r.alike_eval_chained scope first (front ++ back) w).trans
    (.bind (r.alike_eval scope first w) (r.alike_behind_append scope front back))
  have hfront := (r.alike_eval_chained scope first front w).bind (r.alike_behind scope back)
  have hgrouped := (r.alike_eval_chained scope (first.chained front) back w).trans hfront
  simp only [Outcome.bind_assoc] at hgrouped
  exact hwhole.trans hgrouped.symm

/-- A single operand passes through, of whatever kind it is. -/
theorem alike_eval_chained_nil (first : Expr) (w : World) :
    Alike (fun n => r.eval n scope (first.chained []) w) fun n => r.eval n scope first w := by
  have hnone : ∀ n, (r.eval n scope first w).bind (r.behind scope n []) = r.eval n scope first w :=
    fun n => (r.eval n scope first w).bind_done_right
  simpa only [hnone] using r.alike_eval_chained scope first [] w

theorem alike_eval_leftNested (first : Expr) (terms : List (ArithOp × Expr)) (w : World) :
    Alike (fun n => r.eval n scope (first.chained terms) w)
      fun n => r.eval n scope (first.leftNested terms) w := by
  induction terms generalizing first with
  | nil => exact r.alike_eval_chained_nil scope first w
  | cons term terms ih =>
    exact (r.alike_eval_chained_append scope first [term] terms w).trans (ih (first.chained [term]))

/-- A chain of two: the left operand, which has to be a number, then the right one, and then the
operator. -/
theorem alike_eval_chained_pair (left : Expr) (op : ArithOp) (right : Expr) (w : World) :
    Alike (fun n => r.eval n scope (left.chained [(op, right)]) w)
      fun n => (r.eval n scope left w).bind fun acc w =>
        if acc.isNumeric then r.operate scope n op right acc w
        else .failed (.ofFault .arithmeticOnOther) w := by
  refine (r.alike_eval_chained scope left [(op, right)] w).trans
    (.bind (r.alike_eval scope left w) fun acc w => ?_)
  by_cases hacc : acc.isNumeric = true
  · have hright : Alike (fun n => r.operate scope n op right acc w)
        fun n => r.operate scope n op right acc w :=
      .bind (r.alike_eval scope right w) fun v w => .const _
    have hlast := hright.bind (r.alike_along_nil scope)
    simp only [Outcome.bind_done_right] at hlast
    simpa only [behind, if_pos hacc] using
      (r.alike_along_cons scope acc op right [] w).trans hlast
  · simpa only [behind, if_neg hacc] using .const _

/-- **A chain means its tree.** Under any rules, in any scope and in any world, a chain and the
chain whose first operands are put together in a chain of their own come to the same: the one ends
if the other does, and then both give the same value, or fail with the same error on the same line
and with the same trace, and they leave the same outputs, generator, request to stop and depth. So
does the tree with two operands at each node. There the left operand is evaluated first and has to
be a number, then the right one is evaluated and the operator applied, and what fails on the way
ends it all. -/
theorem chain_alike_regrouped (first : Expr) (terms : List (ArithOp × Expr)) (w : World) :
    (∀ k, Alike (fun n => r.eval n scope (first.chained terms) w)
        fun n => r.eval n scope ((first.chained (terms.take k)).chained (terms.drop k)) w) ∧
      Alike (fun n => r.eval n scope (first.chained terms) w)
        (fun n => r.eval n scope (first.leftNested terms) w) ∧
      ∀ left op right, Alike (fun n => r.eval n scope (left.chained [(op, right)]) w)
        fun n => (r.eval n scope left w).bind fun acc w =>
          if acc.isNumeric then
            (r.eval n scope right w).bind fun v w => .ofExcept w (op.apply acc v)
          else .failed (.ofFault .arithmeticOnOther) w := by
  refine ⟨fun k => ?_, r.alike_eval_leftNested scope first terms w,
    fun left op right => r.alike_eval_chained_pair scope left op right w⟩
  have happend := r.alike_eval_chained_append scope first (terms.take k) (terms.drop k) w
  rwa [List.take_append_drop] at happend

end Rules

end Adventure
