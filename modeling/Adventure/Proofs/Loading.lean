import Adventure.Machine

/-!
# Registering programs

A machine registers a program if all names are fresh: none is taken, and none comes twice. Functions
and templates do not get in each other's way. What is registered is added behind what was there, and
nothing else changes (`Machine.load_eq_ok_iff`).
-/

namespace Adventure

/-- The names are fresh where those of `taken` are taken. -/
def Fresh (taken names : List String) : Prop :=
  names.Nodup ∧ ∀ name ∈ names, name ∉ taken

instance (taken names : List String) : Decidable (Fresh taken names) :=
  inferInstanceAs (Decidable (_ ∧ _))

theorem Fresh.nil (taken : List String) : Fresh taken [] :=
  ⟨.nil, by simp⟩

/-- Names are fresh one after the other. -/
theorem fresh_cons {taken names : List String} {name : String} :
    Fresh taken (name :: names) ↔ name ∉ taken ∧ Fresh (name :: taken) names := by
  rw [Fresh, Fresh, List.nodup_cons, List.forall_mem_cons]
  simp only [List.mem_cons, not_or]
  constructor
  · rintro ⟨⟨hname, hnodup⟩, htaken, hnames⟩
    exact ⟨htaken, hnodup, fun x hx => ⟨fun heq => hname (heq ▸ hx), hnames x hx⟩⟩
  · rintro ⟨htaken, hnodup, hnames⟩
    exact ⟨⟨fun hmem => (hnames name hmem).1 rfl, hnodup⟩, htaken, fun x hx => (hnames x hx).2⟩

/-- Names are fresh together if the first ones are, and the others are where those are taken too. -/
theorem fresh_append {taken names names' : List String} :
    Fresh taken (names ++ names') ↔ Fresh taken names ∧ Fresh (taken ++ names) names' := by
  rw [Fresh, Fresh, Fresh, List.nodup_append, List.forall_mem_append]
  simp only [List.mem_append, not_or]
  constructor
  · rintro ⟨⟨hnodup, hnodup', hne⟩, htaken, htaken'⟩
    exact ⟨⟨hnodup, htaken⟩, hnodup', fun x hx => ⟨htaken' x hx, fun hmem => hne x hmem x hx rfl⟩⟩
  · rintro ⟨⟨hnodup, htaken⟩, hnodup', hnames⟩
    refine ⟨⟨hnodup, hnodup', ?_⟩, htaken, fun x hx => (hnames x hx).1⟩
    rintro x hx _ hy rfl
    exact (hnames x hy).2 hx

namespace Machine

/-- There is no clash if all names are fresh. -/
theorem firstClash_eq_none_iff (taken : List String) (entries : List (String × Int)) :
    firstClash taken entries = none ↔ Fresh taken (entries.map (·.1)) := by
  induction entries generalizing taken with
  | nil => simp [firstClash, Fresh.nil]
  | cons entry entries ih =>
    obtain ⟨name, line⟩ := entry
    rw [firstClash, List.map_cons, fresh_cons]
    by_cases hname : name ∈ taken
    · simp [hname]
    · simp [hname, ih]

/-- A program clashes with nothing if its functions and its templates have fresh names. -/
theorem clash_eq_none_iff (m : Machine) (p : Program) :
    m.clash p = none ↔
      Fresh (m.functions.map (·.name)) (p.functions.map (·.name)) ∧
        Fresh (m.templates.map (·.name)) (p.templates.map (·.name)) := by
  rw [clash, Option.or_eq_none_iff, firstClash_eq_none_iff, firstClash_eq_none_iff, List.map_map,
    List.map_map]
  rfl

/-- The machine with the functions and templates of a program behind its own. -/
def adding (m : Machine) (p : Program) : Machine :=
  { m with functions := m.functions ++ p.functions, templates := m.templates ++ p.templates }

/-- **A program is registered if its names are fresh**, and then it is added behind what was
registered before. -/
theorem load_eq_ok_iff (m : Machine) (p : Program) (m' : Machine) :
    m.load p = .ok m' ↔
      (Fresh (m.functions.map (·.name)) (p.functions.map (·.name)) ∧
        Fresh (m.templates.map (·.name)) (p.templates.map (·.name))) ∧
      m' = m.adding p := by
  rw [← clash_eq_none_iff, load, adding]
  rcases m.clash p with - | ⟨name, line⟩
  · simp [eq_comm]
  · simp

end Machine

end Adventure
