import Adventure.Proofs.Loading
import Adventure.Proofs.Record

/-!
# Registering is all or nothing

A machine keeps its functions and templates in lists and adds to them what a program brings, all at
once. A registry holds the same as maps from names, with the names of the templates in their order,
and is changed by one entry at a time: a function is refused if its name is taken, and a template
takes the place of another one. Nothing in these operations keeps a program from being registered
halfway. A registry therefore looks through all names before it registers anything
(`Registry.load`), and that this suffices is proved here: what it does is what the machine does
(`Machine.registry_load`).

Why a program is not registered is told by the first name that offends (`FirstOffender`).
-/

namespace Adventure

variable {α : Type}

/-! ## Offenders -/

/-- `x` is the first of `xs` whose name is taken or is that of one before it. -/
def FirstOffender (name : α → String) (taken : List String) (xs : List α) (x : α) : Prop :=
  ∃ before after, xs = before ++ x :: after ∧ Fresh taken (before.map name) ∧
    (name x ∈ taken ∨ name x ∈ before.map name)

/-- Names are not fresh if one of them is taken or comes twice. -/
theorem not_fresh_iff {taken names : List String} :
    ¬Fresh taken names ↔ (∃ name ∈ names, name ∈ taken) ∨ ¬names.Nodup := by
  rw [Fresh, Classical.not_and_iff_not_or_not, or_comm]
  simp only [Classical.not_forall, Classical.not_not, exists_prop]

namespace Machine

/-- The first clash is the name and the line of the first offender. -/
theorem exists_firstOffender {name : α → String} {line : α → Int} {taken : List String}
    {xs : List α} {clash : String × Int}
    (h : firstClash taken (xs.map fun x => (name x, line x)) = some clash) :
    ∃ x, FirstOffender name taken xs x ∧ clash = (name x, line x) := by
  induction xs generalizing taken with
  | nil => cases h
  | cons x xs ih =>
    rw [List.map_cons, firstClash] at h
    by_cases hx : name x ∈ taken
    · rw [if_pos hx] at h
      exact ⟨x, ⟨[], xs, rfl, .nil taken, .inl hx⟩, (Option.some.inj h).symm⟩
    · rw [if_neg hx] at h
      obtain ⟨y, ⟨before, after, rfl, hfresh, hy⟩, hclash⟩ := ih h
      refine ⟨y, ⟨x :: before, after, rfl, fresh_cons.mpr ⟨hx, hfresh⟩, ?_⟩, hclash⟩
      rw [List.map_cons, List.mem_cons]
      rw [List.mem_cons, or_assoc] at hy
      exact or_left_comm.mp hy

/-- The error about a template has its name and the line that the item or the character is written
on. Of other templates no line is known. -/
inductive Blames : RuntimeError → Template → Prop where
  | item (i : Item) : Blames ⟨.alreadyDefined i.name, i.line, []⟩ (.item i)
  | character (c : Character) : Blames ⟨.alreadyDefined c.name, c.line, []⟩ (.character c)
  | foreign (name : String) : Blames ⟨.alreadyDefined name, 0, []⟩ (.foreign name)

theorem blames_alreadyDefined (t : Template) : Blames ⟨.alreadyDefined t.name, t.line, []⟩ t := by
  cases t with
  | item i => exact .item i
  | character c => exact .character c
  | «foreign» name => exact .foreign name

/-- The program is not registered because of the error: it tells of the first function that offends
or, if none does, of the first template. -/
def RefusedFor (m : Machine) (p : Program) (e : RuntimeError) : Prop :=
  (∃ f, FirstOffender (·.name) (m.functions.map (·.name)) p.functions f ∧
    e = ⟨.alreadyDefined f.name, f.line, []⟩) ∨
  (Fresh (m.functions.map (·.name)) (p.functions.map (·.name)) ∧
    ∃ t, FirstOffender (·.name) (m.templates.map (·.name)) p.templates t ∧ Blames e t)

theorem refusedFor_of_load {m : Machine} {p : Program} {e : RuntimeError}
    (h : m.load p = .error e) : m.RefusedFor p e := by
  rw [load, clash] at h
  rcases hf : firstClash (m.functions.map (·.name)) (p.functions.map fun f => (f.name, f.line)) with
    - | c
  · rw [hf, Option.none_or] at h
    rcases ht : firstClash (m.templates.map (·.name))
      (p.templates.map fun t => (t.name, t.line)) with - | c
    · rw [ht] at h
      cases h
    · obtain ⟨t, ht', rfl⟩ := exists_firstOffender ht
      rw [ht] at h
      rw [firstClash_eq_none_iff, List.map_map] at hf
      exact .inr ⟨hf, t, ht', Except.error.inj h ▸ blames_alreadyDefined t⟩
  · obtain ⟨f, hf', rfl⟩ := exists_firstOffender hf
    rw [hf] at h
    exact .inl ⟨f, hf', (Except.error.inj h).symm⟩

theorem RefusedFor.kind_eq {m : Machine} {p : Program} {e : RuntimeError}
    (h : m.RefusedFor p e) : e.fault.kind = .multipleName := by
  obtain ⟨f, -, rfl⟩ | ⟨-, t, -, hblames⟩ := h
  · rfl
  · cases hblames <;> rfl

end Machine

/-! ## Registries -/

/-- What is registered, by name. -/
structure Registry where
  functions : String → Option Function
  templates : String → Option Template
  /-- the names of the templates, in the order in which they were registered -/
  order : List String

/-- A map from names with an entry more, or with another one. -/
def withEntry (map : String → Option α) (name : String) (x : α) : String → Option α :=
  fun n => if n = name then some x else map n

/-- An entry of a fresh name behind a list is an entry more. -/
theorem find?_concat {name : α → String} {xs : List α} {x : α} (h : name x ∉ xs.map name) :
    (fun n => (xs ++ [x]).find? (name · == n)) =
      withEntry (fun n => xs.find? (name · == n)) (name x) x := by
  funext n
  rw [withEntry, List.find?_append]
  by_cases hn : n = name x
  · have hnone : xs.find? (name · == n) = none := by
      rw [List.find?_eq_none]
      intro y hy heq
      exact h (List.mem_map.mpr ⟨y, hy, (eq_of_beq heq).trans hn⟩)
    rw [if_pos hn, hnone, hn]
    simp
  · have hne : (name x == n) = false := beq_eq_false_iff_ne.mpr (Ne.symm hn)
    simp [hn, hne]

namespace Registry

/-- The registry in which nothing is registered. -/
def blank : Registry :=
  ⟨fun _ => none, fun _ => none, []⟩

/-- The registry of some functions and templates. -/
def ofLists (functions : List Function) (templates : List Template) : Registry :=
  ⟨lookupFunction functions, fun name => templates.find? (·.name == name), templates.map (·.name)⟩

/-- Registers a function, unless its name is taken. -/
def define (R : Registry) (f : Function) : Except RuntimeError Registry :=
  match R.functions f.name with
  | some _ => .error ⟨.alreadyDefined f.name, f.line, []⟩
  | none => .ok { R with functions := withEntry R.functions f.name f }

/-- Registers functions one after the other until one is refused. -/
def defineAll : List Function → Registry → Registry × Option RuntimeError
  | [], R => (R, none)
  | f :: more, R =>
    match R.define f with
    | .ok R => defineAll more R
    | .error e => (R, some e)

/-- Registers a template, whatever its name. -/
def enroll (R : Registry) (t : Template) : Registry :=
  { R with templates := withEntry R.templates t.name t, order := R.order ++ [t.name] }

/-- The error about the first of some names with lines that is taken, or came before. -/
def firstTaken (taken : String → Bool) : List (String × Int) → Option RuntimeError
  | [] => none
  | (name, line) :: more =>
    if taken name then some ⟨.alreadyDefined name, line, []⟩
    else firstTaken (fun n => n == name || taken n) more

/-- What is found wrong with a program when its names are looked through. -/
def objection (R : Registry) (p : Program) : Option RuntimeError :=
  (firstTaken (fun n => (R.functions n).isSome) (p.functions.map fun f => (f.name, f.line))).or
    (firstTaken (fun n => (R.templates n).isSome) (p.templates.map fun t => (t.name, t.line)))

/-- Registers a program: looks through its names, and then registers one thing after the other. What
has been registered by then stays so, also if something goes wrong. -/
def load (R : Registry) (p : Program) : Registry × Option RuntimeError :=
  match R.objection p with
  | some e => (R, some e)
  | none =>
    match defineAll p.functions R with
    | (R, some e) => (R, some e)
    | (R, none) => (p.templates.foldl enroll R, none)

variable {functions more : List Function} {templates others : List Template}

theorem functions_ofLists_isSome (name : String) :
    ((ofLists functions templates).functions name).isSome = true ↔
      name ∈ functions.map (·.name) := by
  simp [ofLists, lookupFunction, List.find?_isSome]

theorem templates_ofLists_isSome (name : String) :
    ((ofLists functions templates).templates name).isSome = true ↔
      name ∈ templates.map (·.name) := by
  simp [ofLists, List.find?_isSome]

theorem defineAll_ofLists (h : Fresh (functions.map (·.name)) (more.map (·.name))) :
    defineAll more (ofLists functions templates) =
      (ofLists (functions ++ more) templates, none) := by
  induction more generalizing functions with
  | nil => rw [defineAll, List.append_nil]
  | cons f more ih =>
    rw [List.map_cons, ← List.singleton_append, fresh_append, fresh_cons] at h
    obtain ⟨⟨hf, -⟩, hmore⟩ := h
    have hnone : (ofLists functions templates).functions f.name = none := by
      rw [← Option.not_isSome_iff_eq_none, functions_ofLists_isSome]
      exact hf
    have hentry :
        withEntry (lookupFunction functions) f.name f = lookupFunction (functions ++ [f]) :=
      (find?_concat hf).symm
    have hdefine : (ofLists functions templates).define f =
        .ok (ofLists (functions ++ [f]) templates) := by
      rw [define, hnone]
      simp only [ofLists, hentry]
    have hmore' : Fresh ((functions ++ [f]).map (·.name)) (more.map (·.name)) := by
      rw [List.map_append]
      exact hmore
    rw [defineAll, hdefine, List.append_cons functions f more]
    exact ih hmore'

theorem foldl_enroll_ofLists (h : Fresh (templates.map (·.name)) (others.map (·.name))) :
    others.foldl enroll (ofLists functions templates) =
      ofLists functions (templates ++ others) := by
  induction others generalizing templates with
  | nil => rw [List.foldl_nil, List.append_nil]
  | cons t others ih =>
    rw [List.map_cons, ← List.singleton_append, fresh_append, fresh_cons] at h
    obtain ⟨⟨ht, -⟩, hothers⟩ := h
    have henroll :
        (ofLists functions templates).enroll t = ofLists functions (templates ++ [t]) := by
      simp only [enroll, ofLists, find?_concat ht, List.map_append, List.map_cons, List.map_nil]
    have hothers' : Fresh ((templates ++ [t]).map (·.name)) (others.map (·.name)) := by
      rw [List.map_append]
      exact hothers
    rw [List.foldl_cons, henroll, List.append_cons templates t others]
    exact ih hothers'

theorem firstTaken_eq {taken : String → Bool} {names : List String}
    (h : ∀ name, taken name = true ↔ name ∈ names) (entries : List (String × Int)) :
    firstTaken taken entries =
      (Machine.firstClash names entries).map fun c => ⟨.alreadyDefined c.1, c.2, []⟩ := by
  induction entries generalizing taken names with
  | nil => rfl
  | cons entry entries ih =>
    obtain ⟨name, line⟩ := entry
    rw [firstTaken, Machine.firstClash]
    by_cases hname : name ∈ names
    · rw [if_pos hname, if_pos ((h name).mpr hname)]
      rfl
    · rw [if_neg hname, if_neg (mt (h name).mp hname)]
      exact ih fun n => by simp [h n]

end Registry

namespace Machine

/-- What is registered with a machine, by name. -/
def registry (m : Machine) : Registry :=
  .ofLists m.functions m.templates

theorem registry_objection (m : Machine) (p : Program) :
    m.registry.objection p = (m.clash p).map fun c => ⟨.alreadyDefined c.1, c.2, []⟩ := by
  have hfunctions : ∀ name, (m.registry.functions name).isSome = true ↔
      name ∈ m.functions.map (·.name) := Registry.functions_ofLists_isSome
  have htemplates : ∀ name, (m.registry.templates name).isSome = true ↔
      name ∈ m.templates.map (·.name) := Registry.templates_ofLists_isSome
  rw [Registry.objection, clash, Option.map_or, Registry.firstTaken_eq hfunctions,
    Registry.firstTaken_eq htemplates]

/-- **A registry does what the machine does**: it registers all of a program, or nothing. -/
theorem registry_load (m : Machine) (p : Program) :
    m.registry.load p =
      match m.load p with
      | .ok m' => (m'.registry, none)
      | .error e => (m.registry, some e) := by
  rw [Registry.load, registry_objection]
  rcases hclash : m.clash p with - | c
  · obtain ⟨hfunctions, htemplates⟩ := (clash_eq_none_iff m p).mp hclash
    have hload : m.load p = .ok (m.adding p) :=
      (load_eq_ok_iff _ _ _).mpr ⟨⟨hfunctions, htemplates⟩, rfl⟩
    rw [hload, registry, Option.map_none]
    simp only [Registry.defineAll_ofLists hfunctions, Registry.foldl_enroll_ofLists htemplates]
    rfl
  · rw [load, hclash]
    rfl

/-- A program is refused if a name is taken or comes twice. -/
theorem load_eq_error_iff (m : Machine) (p : Program) :
    (∃ e, m.load p = .error e) ↔
      ¬(Fresh (m.functions.map (·.name)) (p.functions.map (·.name)) ∧
        Fresh (m.templates.map (·.name)) (p.templates.map (·.name))) := by
  rcases hload : m.load p with e | m'
  · refine iff_of_true ⟨e, rfl⟩ fun hfresh => ?_
    have hok := (load_eq_ok_iff m p (m.adding p)).mpr ⟨hfresh, rfl⟩
    rw [hload] at hok
    cases hok
  · exact iff_of_false (fun ⟨e, he⟩ => nomatch he)
      (not_not_intro ((load_eq_ok_iff m p m').mp hload).1)

/-- Nothing is carried out of a program that is refused, whatever its instructions are. -/
theorem evaluate_of_refused {m : Machine} {p : Program} {e : RuntimeError}
    (h : m.load p = .error e) (steps : Nat) (instructions : List Statement) :
    m.evaluate steps { p with instructions } = .failed e m.quiet ∧
      (m.recordEvaluate steps { p with instructions }).moments = [] := by
  have hquiet : m.quiet.load { p with instructions } = .error e := by
    rw [load] at h ⊢
    have hclash : m.quiet.clash { p with instructions } = m.clash p := rfl
    rw [hclash]
    split at h
    · exact h
    · cases h
  rw [evaluate, recordEvaluate, hquiet]
  exact ⟨rfl, rfl⟩

/-- What is registered afterwards is what was registered before, and what the program brings. -/
theorem registry_adding (m : Machine) (p : Program) (name : String) :
    (m.adding p).registry.functions name =
        (m.registry.functions name).or (lookupFunction p.functions name) ∧
      (m.adding p).registry.templates name =
        (m.registry.templates name).or (p.templates.find? (·.name == name)) :=
  ⟨List.find?_append, List.find?_append⟩

/-- **Registering is all or nothing.** A program is refused exactly if the name of a function is
taken or comes twice among its functions, or that of a template among the templates. Then the error
names the first offender, the registry stays as it is, and handing the program to the machine does
nothing but forget what was shown. Otherwise everything is registered behind what was there. -/
theorem load_all_or_nothing (m : Machine) (p : Program) :
    ((∃ e, m.load p = .error e) ↔
      ((∃ name ∈ p.functions.map (·.name), (m.registry.functions name).isSome = true) ∨
        ¬(p.functions.map (·.name)).Nodup) ∨
      ((∃ name ∈ p.templates.map (·.name), (m.registry.templates name).isSome = true) ∨
        ¬(p.templates.map (·.name)).Nodup)) ∧
    (∀ e, m.load p = .error e →
      (m.RefusedFor p e ∧ e.fault.kind = .multipleName) ∧
      m.registry.load p = (m.registry, some e) ∧
      ∀ steps instructions,
        m.evaluate steps { p with instructions } = .failed e { m with world.outputs := #[] } ∧
          (m.recordEvaluate steps { p with instructions }).moments = []) ∧
    ∀ m', m.load p = .ok m' →
      m' = { m with
        functions := m.functions ++ p.functions, templates := m.templates ++ p.templates } ∧
      m.registry.load p = (m'.registry, none) ∧
      (∀ name,
        m'.registry.functions name =
            (m.registry.functions name).or (lookupFunction p.functions name) ∧
          m'.registry.templates name =
            (m.registry.templates name).or (p.templates.find? (·.name == name))) ∧
      m'.registry.order = m.registry.order ++ p.templates.map (·.name) := by
  refine ⟨?_, fun e he => ⟨?_, ?_, evaluate_of_refused he⟩, fun m' hm' => ?_⟩
  · rw [load_eq_error_iff, Classical.not_and_iff_not_or_not, not_fresh_iff, not_fresh_iff]
    simp only [registry, Registry.functions_ofLists_isSome, Registry.templates_ofLists_isSome]
  · exact ⟨refusedFor_of_load he, (refusedFor_of_load he).kind_eq⟩
  · rw [registry_load, he]
  -- the tables follow the lists, and what was added stands behind what was there
  · have hregistry := registry_load m p
    rw [hm'] at hregistry
    obtain ⟨-, rfl⟩ := (load_eq_ok_iff m p m').mp hm'
    exact ⟨rfl, hregistry, registry_adding m p, List.map_append⟩

/-- A machine that has a function and a template. -/
def armed : Machine :=
  (blank [] (.ofSeed 1)).adding
    ⟨[.item ⟨2, "Sword", none, some 5, none, none, none⟩], [⟨1, "strike", [], some []⟩], []⟩

/-- A program with a new function, and with three templates. The first has the name of a function of
the machine, and the last that of the one before it. -/
def shields : Program :=
  ⟨[.item ⟨5, "strike", none, none, none, none, none⟩,
    .item ⟨6, "Shield", none, some 3, none, none, none⟩,
    .item ⟨7, "Shield", none, some 4, none, none, none⟩],
    [⟨4, "parry", [], some []⟩], [.log 8 (.text "Ready")]⟩

/-- The second shield keeps the machine from registering anything, and the error has its line. -/
theorem shields_register_nothing :
    armed.load shields = .error ⟨.alreadyDefined "Shield", 7, []⟩ ∧
      armed.RefusedFor shields ⟨.alreadyDefined "Shield", 7, []⟩ ∧
      armed.registry.load shields =
        (armed.registry, some ⟨.alreadyDefined "Shield", 7, []⟩) ∧
      armed.evaluate 9 shields = .failed ⟨.alreadyDefined "Shield", 7, []⟩ armed := by
  have hload : armed.load shields = .error ⟨.alreadyDefined "Shield", 7, []⟩ := rfl
  obtain ⟨⟨hrefused, -⟩, hregistry, hevaluate⟩ := (load_all_or_nothing armed shields).2.1 _ hload
  exact ⟨hload, hrefused, hregistry, (hevaluate 9 shields.instructions).1⟩

end Machine

end Adventure
