import Mathlib.Logic.Relation
import Adventure.Proofs.Isolation
import Adventure.Proofs.Registering

/-!
# What is registered stays registered

Whatever is done with a machine, its functions and templates stay what they are and keep their
places, others can only come behind them under names that are not taken, and the variables of the
top level stay declared. `Machine.Grows` says this of two machines. It is kept by each operation
(`Machine.Leads.grows`), and thereby by every sequence of operations, also by one in which programs
are refused or fail.

A registry that is handed the programs a machine is handed keeps up with it (`Machine.Tracks`): it
has what the machine has, whatever else is done with the machine in between.

That instructions only declare variables and never take one back is one induction
(`Rules.widensAt`).
-/

namespace Adventure

/-! ## Lists that get longer -/

section Extends

variable {α : Type} {name : α → String} {kind : α → Prop} {xs ys zs : List α}

/-- `ys` is `xs` with things of a kind behind it, whose names are fresh. -/
def Extends (name : α → String) (kind : α → Prop) (xs ys : List α) : Prop :=
  ∃ more, ys = xs ++ more ∧ Fresh (xs.map name) (more.map name) ∧ ∀ x ∈ more, kind x

theorem Extends.refl (name : α → String) (kind : α → Prop) (xs : List α) :
    Extends name kind xs xs :=
  ⟨[], (List.append_nil xs).symm, .nil _, by simp⟩

theorem Extends.trans (h : Extends name kind xs ys) (h' : Extends name kind ys zs) :
    Extends name kind xs zs := by
  obtain ⟨more, rfl, hfresh, hkind⟩ := h
  obtain ⟨others, rfl, hfresh', hkind'⟩ := h'
  refine ⟨more ++ others, List.append_assoc _ _ _, ?_, List.forall_mem_append.mpr ⟨hkind, hkind'⟩⟩
  rw [List.map_append] at hfresh' ⊢
  exact fresh_append.mpr ⟨hfresh, hfresh'⟩

/-- What is found under a name stays so. -/
theorem Extends.find? (h : Extends name kind xs ys) {n : String} {x : α}
    (hx : xs.find? (name · == n) = some x) : ys.find? (name · == n) = some x := by
  obtain ⟨more, rfl, -⟩ := h
  rw [List.find?_append, hx]
  rfl

theorem Extends.prefix_map (h : Extends name kind xs ys) : xs.map name <+: ys.map name := by
  obtain ⟨more, rfl, -⟩ := h
  rw [List.map_append]
  exact List.prefix_append _ _

/-- In a list that started empty no name comes twice. -/
theorem Extends.nodup (h : Extends name kind [] xs) : (xs.map name).Nodup := by
  obtain ⟨more, rfl, hfresh, -⟩ := h
  exact hfresh.1

theorem Extends.kind_of_mem (h : Extends name kind [] xs) : ∀ x ∈ xs, kind x := by
  obtain ⟨more, rfl, -, hkind⟩ := h
  exact hkind

/-- If no name comes twice, everything in a list is found under its name. -/
theorem find?_eq_some_of_nodup (h : (xs.map name).Nodup) {x : α} (hx : x ∈ xs) :
    xs.find? (name · == name x) = some x := by
  obtain ⟨before, after, rfl⟩ := List.append_of_mem hx
  rw [List.map_append, List.map_cons] at h
  have hbefore : ∀ y ∈ before, name y ≠ name x := fun y hy heq =>
    (List.nodup_append.mp h).2.2 _ (List.mem_map_of_mem hy) _ List.mem_cons_self heq
  have hnone : before.find? (name · == name x) = none := by
    rw [List.find?_eq_none]
    exact fun y hy heq => hbefore y hy (eq_of_beq heq)
  rw [List.find?_append, hnone]
  simp

end Extends

/-! ## Variables -/

namespace Scope

variable {s s' s'' : Scope}

/-- Every variable of the first scope is declared in the second. -/
def Within (s s' : Scope) : Prop :=
  ∀ x, (s.get? x).isSome = true → (s'.get? x).isSome = true

theorem Within.refl (s : Scope) : s.Within s :=
  fun _ h => h

theorem Within.trans (h : s.Within s') (h' : s'.Within s'') : s.Within s'' :=
  fun x hx => h' x (h x hx)

theorem get?_isSome_iff (s : Scope) (x : String) :
    (s.get? x).isSome = true ↔ x ∈ s.vars.map (·.1) := by
  rw [get?, ← not_iff_not, Option.not_isSome_iff_eq_none, List.lookup_eq_none_iff, List.mem_map]
  simp only [bne_iff_ne, not_exists, not_and]
  exact forall₂_congr fun p _ => ne_comm

theorem within_of_introduce {x : String} {v : Value} (h : s.introduce x v = .ok s') :
    s.Within s' := by
  unfold introduce at h
  split at h <;> cases h
  intro y hy
  rw [get?_isSome_iff] at hy ⊢
  exact List.mem_cons_of_mem _ hy

/-- Giving a variable a value leaves the names as they are. -/
theorem map_fst_of_assign {x : String} {v : Value} (h : s.assign x v = .ok s') :
    s'.vars.map (·.1) = s.vars.map (·.1) := by
  unfold assign at h
  split at h <;> cases h
  rw [List.map_map]
  refine List.map_congr_left fun entry _ => ?_
  dsimp only [Function.comp]
  split <;> rfl

theorem within_of_assign {x : String} {v : Value} (h : s.assign x v = .ok s') : s.Within s' := by
  intro y hy
  rw [get?_isSome_iff] at hy ⊢
  rwa [map_fst_of_assign h]

end Scope

/-- The computation ends with all variables of the scope still declared, if it ends. -/
def Outcome.Widens {α : Type} (scope : Scope) (o : Outcome Store α) : Prop :=
  ∀ s, o.state? = some s → scope.Within s.scope

namespace Outcome.Widens

variable {α β : Type} {scope : Scope} {o : Outcome Store α}

theorem done (a : α) {s : Store} (h : scope.Within s.scope) : Widens scope (.done a s) := by
  rintro _ ⟨⟩
  exact h

theorem failed (e : RuntimeError) {s : Store} (h : scope.Within s.scope) :
    Widens scope (.failed e s : Outcome Store α) := by
  rintro _ ⟨⟩
  exact h

theorem unfinished : Widens scope (.unfinished : Outcome Store α) :=
  fun _ h => nomatch h

theorem bind {f : α → Store → Outcome Store β} (h : Widens scope o)
    (hf : ∀ a s, Widens s.scope (f a s)) : Widens scope (o.bind f) := by
  cases o with
  | done a s => exact fun s' hs' => (h s rfl).trans (hf a s s' hs')
  | failed e s => exact failed e (h s rfl)
  | unfinished => exact unfinished

theorem mapError (h : Widens scope o) (f : RuntimeError → RuntimeError) :
    Widens scope (o.mapError f) := by
  cases o with
  | done a s => exact h
  | failed e s => exact failed (f e) (h s rfl)
  | unfinished => exact unfinished

/-- Expressions, conditions and calls do nothing to the variables. -/
theorem ofWorld (o : Outcome World α) (scope : Scope) : Widens scope (o.mapState (⟨scope, ·⟩)) := by
  cases o with
  | done a w => exact done a (.refl scope)
  | failed e w => exact failed e (.refl scope)
  | unfinished => exact unfinished

end Outcome.Widens

namespace Rules

open Outcome

/-- All statements that are carried out with `n` steps leave the variables declared. -/
structure WidensAt (r : Rules) (n : Nat) : Prop where
  block : ∀ b s, Widens s.scope (r.block n b s)
  sequence : ∀ statements s, Widens s.scope (r.sequence n statements s)
  statement : ∀ st s, Widens s.scope (r.statement n st s)
  action : ∀ st s, Widens s.scope (r.action n st s)
  loop : ∀ c body s, Widens s.scope (r.loop n c body s)

variable {r : Rules} {n : Nat}

theorem widens_block (ih : WidensAt r n) (b : Block) (s : Store) :
    Widens s.scope (r.block (n + 1) b s) := by
  rcases b with - | statements
  · exact .done _ (.refl _)
  · exact ih.sequence statements s

theorem widens_sequence (ih : WidensAt r n) (statements : List Statement) (s : Store) :
    Widens s.scope (r.sequence (n + 1) statements s) := by
  rcases statements with - | ⟨first, rest⟩
  · exact .done _ (.refl _)
  · rw [sequence_cons]
    refine (ih.statement first s).bind fun signal s => ?_
    cases signal with
    | next => exact ih.sequence rest s
    | returned v => exact .done _ (.refl _)

theorem widens_statement (ih : WidensAt r n) (st : Statement) (s : Store) :
    Widens s.scope (r.statement (n + 1) st s) := by
  rw [statement]
  split
  · exact .failed _ (.refl _)
  · exact (ih.action st s).mapError _

theorem widens_action (ih : WidensAt r n) (st : Statement) (s : Store) :
    Widens s.scope (r.action (n + 1) st s) := by
  cases st with
  | declare line type x =>
    simp only [action]
    rcases hscope : s.scope.declare x with f | scope
    · exact .failed _ (.refl _)
    · exact .done _ (Scope.within_of_introduce hscope)
  | assign line x e =>
    simp only [action]
    refine (Widens.ofWorld _ s.scope).bind fun v s => ?_
    rcases hscope : s.scope.assign x v with f | scope
    · exact .failed _ (.refl _)
    · exact .done _ (Scope.within_of_assign hscope)
  | attack line attacker defender => exact .done _ (.refl _)
  | loop line c body => exact ih.loop c body s
  | branch line c body alternative =>
    simp only [action]
    refine (Widens.ofWorld _ s.scope).bind fun holds s => ?_
    cases holds with
    | true => exact ih.block body s
    | false => exact ih.block alternative s
  | log line e =>
    simp only [action]
    exact (Widens.ofWorld _ s.scope).bind fun v s => .done _ (.refl _)
  | give line e =>
    simp only [action]
    exact (Widens.ofWorld _ s.scope).bind fun v s => .done _ (.refl _)
  | call line f args =>
    simp only [action]
    exact (Widens.ofWorld _ s.scope).bind fun v s => .done _ (.refl _)
  | «foreign» line label => exact .failed _ (.refl _)

theorem widens_loop (ih : WidensAt r n) (c : Condition) (body : Block) (s : Store) :
    Widens s.scope (r.loop (n + 1) c body s) := by
  rw [loop_succ]
  refine (Widens.ofWorld _ s.scope).bind fun holds s => ?_
  cases holds with
  | false => exact .done _ (.refl _)
  | true =>
    refine (ih.block body s).bind fun signal s => ?_
    cases signal with
    | returned v => exact .done _ (.refl _)
    | next =>
      dsimp only
      split
      · exact .failed _ (.refl _)
      · exact ih.loop c body s

/-- **Statements leave the variables declared.** -/
theorem widensAt (r : Rules) (n : Nat) : WidensAt r n := by
  induction n with
  | zero =>
    constructor
    all_goals
      intros
      exact .unfinished
  | succ n ih =>
    exact ⟨widens_block ih, widens_sequence ih, widens_statement ih, widens_action ih,
      widens_loop ih⟩

theorem widens_instructions (steps : Nat) (statements : List Statement) (s : Store) :
    Widens s.scope (r.instructions steps statements s) := by
  induction statements generalizing s with
  | nil => exact .done _ (.refl _)
  | cons first rest ih =>
    rw [instructions_cons]
    exact ((widensAt r steps).statement first s).bind fun _ s => ih s

end Rules

/-! ## Machines -/

namespace Machine

variable {ok : Program → Prop} {m m' m'' : Machine} {p : Program}

/-- What is done with a machine, and with a registry beside it: `m'` is what is left of `m`, however
it went. The programs that the machine is handed are `ok`, and the registry is handed them too,
which it registers entry by entry (`Registry.load`). -/
inductive Leads (ok : Program → Prop) : Machine × Registry → Machine × Registry → Prop where
  | run {m m' : Machine} {R : Registry} (steps : Nat) (hend : (m.run steps).state? = some m') :
      Leads ok (m, R) (m', R)
  | evaluate {m m' : Machine} {R : Registry} {p : Program} (steps : Nat) (hp : ok p)
      (hend : (m.evaluate steps p).state? = some m') : Leads ok (m, R) (m', (R.load p).1)
  | reseed (m : Machine) (R : Registry) (seed : Int64) : Leads ok (m, R) (m.reseed seed, R)
  | limitDepth (m : Machine) (R : Registry) (depth : Int) :
      Leads ok (m, R) (m.limitDepth depth, R)
  | setListener (m : Machine) (R : Registry) (listener : Option Listener) :
      Leads ok (m, R) (m.setListener listener, R)
  | interrupt (m : Machine) (R : Registry) : Leads ok (m, R) (m.interrupt, R)

/-- The registry has been handed the programs of the machine, from the first one on. -/
def Tracks (ok : Program → Prop) (m : Machine) (R : Registry) : Prop :=
  ∃ p g m₀, ok p ∧ ofProgram p g = .ok m₀ ∧
    Relation.ReflTransGen (Leads ok) (m₀, (Registry.blank.load p).1) (m, R)

/-- The second machine has what the first one has, and maybe more. -/
structure Grows (ok : Program → Prop) (m m' : Machine) : Prop where
  instructions : m'.instructions = m.instructions
  functions : Extends (·.name) (fun f => ∃ p, ok p ∧ f ∈ p.functions) m.functions m'.functions
  templates : Extends (·.name) (fun t => ∃ p, ok p ∧ t ∈ p.templates) m.templates m'.templates
  scope : m.scope.Within m'.scope

theorem Grows.trans (h : m.Grows ok m') (h' : m'.Grows ok m'') : m.Grows ok m'' where
  instructions := h'.instructions.trans h.instructions
  functions := h.functions.trans h'.functions
  templates := h.templates.trans h'.templates
  scope := h.scope.trans h'.scope

/-- Something else than the registries and the variables has changed. -/
theorem Grows.of_eq (ok : Program → Prop) (hinstructions : m'.instructions = m.instructions)
    (hfunctions : m'.functions = m.functions) (htemplates : m'.templates = m.templates)
    (hscope : m.scope.Within m'.scope) : m.Grows ok m' where
  instructions := hinstructions
  functions := hfunctions ▸ .refl _ _ _
  templates := htemplates ▸ .refl _ _ _
  scope := hscope

theorem Grows.refl (ok : Program → Prop) (m : Machine) : m.Grows ok m :=
  .of_eq ok rfl rfl rfl (.refl _)

theorem grows_quiet (ok : Program → Prop) (m : Machine) : m.Grows ok m.quiet :=
  .of_eq ok rfl rfl rfl (.refl _)

theorem grows_load (hp : ok p) (h : m.load p = .ok m') : m.Grows ok m' := by
  obtain ⟨⟨hfunctions, htemplates⟩, rfl⟩ := (load_eq_ok_iff m p m').mp h
  exact ⟨rfl, ⟨_, rfl, hfunctions, fun f hf => ⟨p, hp, hf⟩⟩,
    ⟨_, rfl, htemplates, fun t ht => ⟨p, hp, ht⟩⟩, .refl _⟩

/-- Instructions leave everything that is registered as it is. -/
theorem perform_keeps {steps : Nat} {statements : List Statement}
    (hend : (m.perform steps statements).state? = some m') :
    m'.instructions = m.instructions ∧ m'.functions = m.functions ∧
      m'.templates = m.templates ∧ m.scope.Within m'.scope := by
  rw [perform, Outcome.state?_mapState] at hend
  obtain ⟨s, hs, rfl⟩ := Option.map_eq_some_iff.mp hend
  exact ⟨rfl, rfl, rfl, Rules.widens_instructions steps statements _ s hs⟩

theorem grows_perform (ok : Program → Prop) {steps : Nat} {statements : List Statement}
    (hend : (m.perform steps statements).state? = some m') : m.Grows ok m' := by
  obtain ⟨hinstructions, hfunctions, htemplates, hscope⟩ := perform_keeps hend
  exact .of_eq ok hinstructions hfunctions htemplates hscope

theorem grows_evaluate {steps : Nat} (hp : ok p)
    (hend : (m.evaluate steps p).state? = some m') : m.Grows ok m' := by
  refine (grows_quiet ok m).trans ?_
  rw [evaluate] at hend
  rcases hload : m.quiet.load p with e | m₁
  · rw [hload] at hend
    obtain rfl : m.quiet = m' := Option.some.inj hend
    exact .refl ok _
  · rw [hload] at hend
    exact (grows_load hp hload).trans (grows_perform ok hend)

/-- **Every operation lets the machine grow.** -/
theorem Leads.grows {x y : Machine × Registry} (h : Leads ok x y) : x.1.Grows ok y.1 := by
  cases h with
  | run steps hend => exact (grows_quiet ok _).trans (grows_perform ok hend)
  | evaluate steps hp hend => exact grows_evaluate hp hend
  | reseed m R seed =>
    refine .of_eq ok ?_ ?_ ?_ ?_ <;> dsimp only [Machine.reseed]
    exact .refl _
  | limitDepth m R depth => exact .of_eq ok rfl rfl rfl (.refl _)
  | setListener m R listener => exact .of_eq ok rfl rfl rfl (.refl _)
  | interrupt m R => exact .of_eq ok rfl rfl rfl (.refl _)

/-- So does every sequence of operations. -/
theorem grows_of_leads {x y : Machine × Registry} (h : Relation.ReflTransGen (Leads ok) x y) :
    x.1.Grows ok y.1 := by
  induction h with
  | refl => exact .refl ok _
  | tail _ hstep ih => exact ih.trans hstep.grows

theorem registry_of_perform {steps : Nat} {statements : List Statement}
    (hend : (m.perform steps statements).state? = some m') : m'.registry = m.registry := by
  obtain ⟨-, hfunctions, htemplates, -⟩ := perform_keeps hend
  rw [registry, registry, hfunctions, htemplates]

theorem registry_of_evaluate {steps : Nat} (hend : (m.evaluate steps p).state? = some m') :
    m'.registry = (m.registry.load p).1 := by
  have hquiet : m.quiet.registry = m.registry := rfl
  have hregistry := registry_load m.quiet p
  rw [hquiet] at hregistry
  rw [hregistry]
  rw [evaluate] at hend
  rcases hload : m.quiet.load p with e | m₁
  · rw [hload] at hend
    obtain rfl : m.quiet = m' := Option.some.inj hend
    exact hquiet
  · rw [hload] at hend
    exact registry_of_perform hend

/-- A registry that has what the machine has keeps up with it. -/
theorem Leads.registry_eq {x y : Machine × Registry} (h : Leads ok x y)
    (hx : x.2 = x.1.registry) : y.2 = y.1.registry := by
  cases h with
  | run steps hend => exact hx.trans (registry_of_perform hend).symm
  | evaluate steps hp hend =>
    rw [registry_of_evaluate hend]
    exact congrArg (fun R : Registry => (R.load _).1) hx
  | reseed m R seed =>
    dsimp only [registry, Machine.reseed]
    exact hx
  | limitDepth | setListener | interrupt => exact hx

theorem registry_of_leads {x y : Machine × Registry} (h : Relation.ReflTransGen (Leads ok) x y)
    (hx : x.2 = x.1.registry) : y.2 = y.1.registry := by
  induction h with
  | refl => exact hx
  | tail _ hstep ih => exact hstep.registry_eq ih

/-- **A registry that is handed the same programs has what the machine has.** -/
theorem Tracks.registry_eq {R : Registry} (h : Tracks ok m R) : R = m.registry := by
  obtain ⟨p, g, m₀, -, hstart, hleads⟩ := h
  refine registry_of_leads hleads ?_
  have hregistry := registry_load (blank p.instructions g) p
  have hload : (blank p.instructions g).load p = .ok m₀ := hstart
  rw [hload] at hregistry
  exact congrArg Prod.fst hregistry

theorem Tracks.tail {R : Registry} {y : Machine × Registry} (h : Tracks ok m R)
    (hstep : Leads ok (m, R) y) : Tracks ok y.1 y.2 := by
  obtain ⟨p, g, m₀, hp, hstart, hleads⟩ := h
  exact ⟨p, g, m₀, hp, hstart, hleads.tail hstep⟩

/-- Beside every machine that is reached there is such a registry. -/
theorem Reached.exists_tracks (h : m.Reached ok) : ∃ R, Tracks ok m R := by
  induction h with
  | start hp hstart => exact ⟨_, _, _, _, hp, hstart, .refl⟩
  | run steps _ hend ih =>
    obtain ⟨R, hR⟩ := ih
    exact ⟨R, hR.tail (.run steps hend)⟩
  | evaluate steps _ hp hend ih =>
    obtain ⟨R, hR⟩ := ih
    exact ⟨_, hR.tail (.evaluate steps hp hend)⟩
  | reseed seed _ ih =>
    obtain ⟨R, hR⟩ := ih
    exact ⟨R, hR.tail (.reseed _ R seed)⟩
  | limitDepth depth _ ih =>
    obtain ⟨R, hR⟩ := ih
    exact ⟨R, hR.tail (.limitDepth _ R depth)⟩
  | setListener listener _ ih =>
    obtain ⟨R, hR⟩ := ih
    exact ⟨R, hR.tail (.setListener _ R listener)⟩
  | interrupt _ ih =>
    obtain ⟨R, hR⟩ := ih
    exact ⟨R, hR.tail (.interrupt _ R)⟩

/-- **A machine that is reached** has grown from one that had nothing but instructions. -/
theorem Reached.grows (h : m.Reached ok) :
    ∃ p g, ok p ∧ (blank p.instructions g).Grows ok m := by
  obtain ⟨R, p, g, m₀, hp, hstart, hleads⟩ := h.exists_tracks
  exact ⟨p, g, hp, (grows_load hp hstart).trans (grows_of_leads hleads)⟩

/-- The names of the functions and those of the templates are each different from each other. -/
theorem Reached.nodup (h : m.Reached ok) :
    (m.functions.map (·.name)).Nodup ∧ (m.templates.map (·.name)).Nodup := by
  obtain ⟨p, g, -, hgrows⟩ := h.grows
  exact ⟨hgrows.functions.nodup, hgrows.templates.nodup⟩

/-- The template of a name is the one among the templates that has it. -/
theorem template?_eq_some_iff (h : (m.templates.map (·.name)).Nodup) (name : String)
    (t : Template) : m.template? name = some t ↔ t ∈ m.templates ∧ t.name = name := by
  constructor
  · intro ht
    have hname := List.find?_some (p := fun t : Template => t.name == name) ht
    exact ⟨List.mem_of_find?_eq_some ht, eq_of_beq hname⟩
  · rintro ⟨ht, rfl⟩
    exact find?_eq_some_of_nodup h ht

/-- Instructions that could reach the functions leave them alone. -/
theorem functions_of_instructionsIn {steps : Nat} {statements : List Statement} {M : Memory}
    (hend : (m.rules.instructionsIn steps statements m.memory).state? = some M) :
    M.family.functions = m.functions :=
  ((m.shows_instructionsIn steps statements).keeps hend).functions

/-- **What is registered stays registered.** Beside every machine that is reached there is a
registry that has been handed the same programs and has registered them entry by entry, and it has
what the machine has. The order of its templates has no name twice and has the names that templates
are registered under, so that the templates in this order are all of them and each is found under
its name. What is found under a name, the places in the order and the variables stay in everything
that comes later. Only registering a program adds to this: instructions leave functions and
templates as they are, also if the functions are part of the memory that they act on. -/
theorem registries_only_grow (hm : m.Reached fun _ => True) :
    (∃ R, Tracks (fun _ => True) m R) ∧
    (∀ R, Tracks (fun _ => True) m R →
      (R = m.registry ∧ R.order.Nodup ∧
        (∀ name, name ∈ R.order ↔ (R.templates name).isSome = true) ∧
        R.order.map R.templates = m.templates.map some ∧
        ∀ name t, m.template? name = some t ↔ t ∈ m.templates ∧ t.name = name) ∧
      ∀ m' R', Relation.ReflTransGen (Leads fun _ => True) (m, R) (m', R') →
        (∀ name f, R.functions name = some f → R'.functions name = some f) ∧
        (∀ name t, R.templates name = some t → R'.templates name = some t) ∧
        R.order <+: R'.order ∧
        ∀ x, (m.scope.get? x).isSome = true → (m'.scope.get? x).isSome = true) ∧
    ∀ steps statements,
      (∀ m', (m.perform steps statements).state? = some m' →
        m'.functions = m.functions ∧ m'.templates = m.templates) ∧
      (m.perform steps statements =
        (m.rules.instructionsIn steps statements m.memory).mapState fun M =>
          { m with scope := M.family.scope 0, world := M.world }) ∧
      ∀ M, (m.rules.instructionsIn steps statements m.memory).state? = some M →
        M.family.functions = m.functions := by
  obtain ⟨-, htemplates⟩ := hm.nodup
  refine ⟨hm.exists_tracks, fun R hR => ?_, fun steps statements =>
    ⟨fun m' h => ?_, perform_eq_memory m steps statements, fun M => functions_of_instructionsIn⟩⟩
  -- the registry beside the machine is that of the machine, now and later
  · obtain rfl := hR.registry_eq
    refine ⟨⟨rfl, htemplates, fun name => ?_, ?_, template?_eq_some_iff htemplates⟩,
      fun m' R' h => ?_⟩
    · exact (Registry.templates_ofLists_isSome name).symm
    · refine List.map_map.trans (List.map_congr_left fun t ht => ?_)
      exact find?_eq_some_of_nodup htemplates ht
    · obtain rfl : R' = m'.registry := registry_of_leads h rfl
      have hgrows := grows_of_leads h
      exact ⟨fun name f => hgrows.functions.find?, fun name t => hgrows.templates.find?,
        hgrows.templates.prefix_map, hgrows.scope⟩
  · obtain ⟨-, hfunctions, htemplates', -⟩ := perform_keeps h
    exact ⟨hfunctions, htemplates'⟩

/-- A program with a function, a template and a variable. -/
def campsite : Program :=
  ⟨[.item ⟨1, "Tent", none, some 5, none, none, none⟩], [⟨2, "rest", [], some []⟩],
    [.declare 3 "Number" "nights"]⟩

/-- Another one, which brings a template of its own and then fails. -/
def secondCampsite : Program :=
  ⟨[.item ⟨1, "rest", none, none, none, none, none⟩], [], [.declare 2 "Number" "nights"]⟩

/-- The machine of the first program after its run. -/
def camped : Machine :=
  { (blank campsite.instructions ⟨#[], 0, 0⟩).adding campsite with
    scope := ⟨[("nights", .nothing)]⟩ }

/-- The machine is handed the second program, which fails, and then the first one again, which is
refused. Everything stays in its place, and the template that came with the second program does not
get in the way of the function of the same name. -/
theorem campsites_stay_registered :
    ∃ R R', (camped.Reached fun _ => True) ∧ Tracks (fun _ => True) camped R ∧
      Relation.ReflTransGen (Leads fun _ => True) (camped, R)
        (camped.adding secondCampsite, R') ∧
      R'.order = ["Tent", "rest"] ∧ R'.templates "Tent" = campsite.templates.head? ∧
      R'.functions "rest" = campsite.functions.head? ∧
      ((camped.adding secondCampsite).scope.get? "nights").isSome = true := by
  have hstart : ofProgram campsite ⟨#[], 0, 0⟩ =
      .ok ((blank campsite.instructions ⟨#[], 0, 0⟩).adding campsite) := rfl
  have hreached : camped.Reached fun _ => True := .run 3 (.start trivial hstart) rfl
  let R : Registry := (Registry.blank.load campsite).1
  have htracks : Tracks (fun _ => True) camped R :=
    ⟨campsite, _, _, trivial, hstart, .single (.run 3 rfl)⟩
  have hleads : Relation.ReflTransGen (Leads fun _ => True) (camped, R)
      (camped.adding secondCampsite, ((R.load secondCampsite).1.load campsite).1) :=
    .tail (.single (.evaluate 3 trivial rfl)) (.evaluate 3 trivial rfl)
  obtain ⟨hfunctions, htemplates, -, hscope⟩ :=
    ((registries_only_grow hreached).2.1 R htracks).2 _ _ hleads
  exact ⟨R, _, hreached, htracks, hleads, rfl, htemplates "Tent" _ rfl, hfunctions "rest" _ rfl,
    hscope "nights" rfl⟩

end Machine

end Adventure
