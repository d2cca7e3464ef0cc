import Adventure.Proofs.Loading
import Adventure.Proofs.Settled

/-!
# Programs in pieces

A program can be run as a whole, or be handed to a machine in pieces, each of which is registered
and carried out before the next one is known. If all pieces but the last are carried out to their
end, both come to the same (`run_joined_eq_evaluate_last`): the same is shown, the same error is
reported if there is one, and the machines are left in the same state.

The whole program sees all functions from the start, and the pieces see only those that came so far.
But a piece that ends with success has missed none of them, so it is carried out in the same way
where there are more (`Rules.kept_instructions`). What the pieces before have shown is forgotten
when the next one starts, and stands in front for the whole program.
-/

namespace Adventure

/-! ## Instructions in a row -/

theorem Rules.instructions_append (r : Rules) (n : Nat) (first second : List Statement)
    (s : Store) :
    r.instructions n (first ++ second) s =
      (r.instructions n first s).bind fun _ s => r.instructions n second s := by
  induction first generalizing s with
  | nil => rfl
  | cons st first ih =>
    rw [List.cons_append, instructions_cons, instructions_cons, Outcome.bind_assoc]
    congr
    funext _ s
    exact ih s

/-! ## More functions -/

/-- Only values are to be kept. -/
def onlyValues : Option Fault → Prop :=
  fun _ => False

/-- Functions that are defined later do not replace any. -/
theorem lookupFunction_append {functions more : List Function} {name : String} {f : Function}
    (h : lookupFunction functions name = some f) :
    lookupFunction (functions ++ more) name = some f := by
  rw [lookupFunction] at h
  rw [lookupFunction, List.find?_append, h]
  rfl

/-- Rules with more functions go further. -/
theorem Rules.within_append (functions more : List Function) (maxDepth : Nat) :
    Within onlyValues ⟨functions, maxDepth⟩ ⟨functions ++ more, maxDepth⟩ where
  functions := fun _ _ h => lookupFunction_append h
  undefined := fun _ h => h.elim
  maxDepth := Nat.le_refl _
  tooDeep := fun h => h.elim

namespace Machine

/-! ## Pieces -/

/-- `m.Takes pieces shown m'`: the machine `m` is handed the programs one after the other, each is
carried out to its end, and this leaves the machine `m'`. Together they show `shown`. -/
inductive Takes : Machine → List Program → Array Output → Machine → Prop where
  | nil (m : Machine) : Takes m [] #[] m
  | cons {m m₁ m₂ : Machine} {steps : Nat} {p : Program} {pieces : List Program}
      {shown : Array Output} (first : m.evaluate steps p = .done () m₁)
      (rest : Takes m₁ pieces shown m₂) : Takes m (p :: pieces) (m₁.world.outputs ++ shown) m₂

/-- The machine in the state that instructions have left. -/
def resuming (m : Machine) (s : Store) : Machine :=
  { m with scope := s.scope, world := s.world }

/-- The world of the machine, if `shown` is what was shown so far. -/
def store (m : Machine) (shown : Array Output) : Store :=
  ⟨m.scope, { m.world with outputs := shown }⟩

theorem following_store (m : Machine) (pre shown : Array Output) :
    (m.store shown).following pre = m.store (pre ++ shown) := rfl

/-- Evaluating a program that can be registered is carrying out its instructions. -/
theorem evaluate_of_load {m l : Machine} {p : Program} (h : m.quiet.load p = .ok l)
    (steps : Nat) :
    m.evaluate steps p =
      ((m.adding p).rules.instructions steps p.instructions (m.store #[])).mapState
        (m.adding p).resuming := by
  obtain ⟨-, rfl⟩ := (load_eq_ok_iff _ _ _).mp h
  rw [evaluate, h]
  rfl

/-- What it takes for a program to be carried out to its end. -/
theorem evaluate_eq_done {m m₁ : Machine} {steps : Nat} {p : Program}
    (h : m.evaluate steps p = .done () m₁) :
    ∃ s, (m.adding p).rules.instructions steps p.instructions (m.store #[]) = .done () s ∧
      m₁ = (m.adding p).resuming s := by
  rcases hload : m.quiet.load p with e | l
  · rw [evaluate, hload] at h
    cases h
  · rw [evaluate_of_load hload] at h
    rcases hinstructions : (m.adding p).rules.instructions steps p.instructions (m.store #[]) with
      ⟨⟨⟩, s⟩ | ⟨e, s⟩ | -
    · rw [hinstructions] at h
      cases h
      exact ⟨s, rfl, rfl⟩
    · rw [hinstructions] at h
      cases h
    · rw [hinstructions] at h
      cases h

end Machine

namespace Program

/-- The programs as one. -/
def joined (pieces : List Program) : Program :=
  ⟨pieces.flatMap (·.templates), pieces.flatMap (·.functions), pieces.flatMap (·.instructions)⟩

end Program

namespace Machine

section Takes

variable {m m' : Machine} {pieces : List Program} {shown : Array Output}

/-- What pieces leave registered, and what they leave as it was. -/
theorem Takes.adding_joined (h : m.Takes pieces shown m') :
    m' = (m.adding (.joined pieces)).resuming ⟨m'.scope, m'.world⟩ := by
  induction h with
  | nil m => simp [adding, resuming, Program.joined]
  | @cons m m₁ m₂ steps p pieces shown first rest ih =>
    obtain ⟨s, -, rfl⟩ := evaluate_eq_done first
    rw [ih]
    simp [adding, resuming, Program.joined]

/-- Rules that go further than those of the machine that is left go further than those before. -/
theorem Takes.within {r : Rules} (h : m.Takes pieces shown m') (hr : m'.rules.Within onlyValues r) :
    m.rules.Within onlyValues r := by
  rw [h.adding_joined] at hr
  exact (Rules.within_append m.functions _ m.maxDepth).trans hr

/-- Where all functions are known from the start, the instructions of the pieces in a row do what
the pieces did, and everything that was shown stays. -/
theorem Takes.instructions {r : Rules} (h : m.Takes pieces shown m')
    (hr : m'.rules.Within onlyValues r) :
    ∃ least, ∀ steps, least ≤ steps → ∀ pre,
      r.instructions steps (pieces.flatMap (·.instructions)) (m.store pre) =
        .done () (m'.store (pre ++ shown)) := by
  induction h with
  | nil m => exact ⟨0, fun steps _ pre => by simp [Rules.instructions]⟩
  | @cons m m₁ m₂ steps p pieces shown first rest ih =>
    obtain ⟨least, hrest⟩ := ih hr
    have hwithin : m₁.rules.Within onlyValues r := rest.within hr
    obtain ⟨s, hfirst, rfl⟩ := evaluate_eq_done first
    refine ⟨max steps least, fun n hn pre => ?_⟩
    have hle : steps ≤ n := Nat.le_trans (Nat.le_max_left _ _) hn
    -- the first piece was carried out with fewer functions and where nothing had been shown
    have hkept := Rules.kept_instructions hwithin hle (fun hnone => hnone.elim) pre p.instructions
      (m.store #[])
    rw [show ((m.adding p).resuming s).rules = (m.adding p).rules from rfl, hfirst,
      following_store, Array.append_empty] at hkept
    have hmore := hrest n (Nat.le_trans (Nat.le_max_right _ _) hn) (pre ++ s.world.outputs)
    rw [Array.append_assoc] at hmore
    rw [List.flatMap_cons, Rules.instructions_append, hkept trivial]
    exact hmore

end Takes

theorem ofProgram_eq_ok {p : Program} {g : Generator} {m : Machine}
    (h : ofProgram p g = .ok m) :
    (Fresh [] (p.functions.map (·.name)) ∧ Fresh [] (p.templates.map (·.name))) ∧
      m = (blank p.instructions g).adding p :=
  (load_eq_ok_iff _ _ _).mp h

/-- The last piece can be registered if the whole can. -/
theorem Takes.load_last {m m' : Machine} {pieces : List Program} {last : Program}
    {shown : Array Output} (h : m.Takes pieces shown m') (hfunctions : m.functions = [])
    (htemplates : m.templates = [])
    (hfresh : Fresh [] ((Program.joined (pieces ++ [last])).functions.map (·.name)) ∧
      Fresh [] ((Program.joined (pieces ++ [last])).templates.map (·.name))) :
    ∃ loaded, m'.quiet.load last = .ok loaded := by
  obtain ⟨hnames, htemplateNames⟩ := hfresh
  simp only [Program.joined, List.flatMap_append, List.flatMap_singleton, List.map_append,
    fresh_append, List.nil_append] at hnames htemplateNames
  refine ⟨_, (load_eq_ok_iff _ _ _).mpr ⟨?_, rfl⟩⟩
  rw [h.adding_joined]
  simp only [quiet, resuming, adding, hfunctions, htemplates, List.nil_append]
  exact ⟨hnames.2, htemplateNames.2⟩

/-- The machine `start` with the programs registered, to carry out their instructions. -/
def forPieces (start : Machine) (pieces : List Program) : Machine :=
  { start.adding (.joined pieces) with instructions := (Program.joined pieces).instructions }

/-- If the last piece can be registered, then running all pieces together has the outcome of
evaluating it. -/
theorem Takes.run_eq {start m loaded : Machine} {pieces : List Program} {last : Program}
    {shown : Array Output} (h : start.Takes pieces shown m)
    (hload : m.quiet.load last = .ok loaded) :
    ∃ least, ∀ steps, least ≤ steps →
      (start.forPieces (pieces ++ [last])).run steps =
        (m.evaluate steps last).mapState fun m' =>
          { m' with instructions := (Program.joined (pieces ++ [last])).instructions,
                    world.outputs := shown ++ m'.world.outputs } := by
  -- with the last piece registered, the machine is the one for all pieces, further on
  have hsame : start.forPieces (pieces ++ [last]) =
      { (m.adding last).resuming ⟨start.scope, start.world⟩ with
        instructions := (Program.joined (pieces ++ [last])).instructions } := by
    rw [h.adding_joined]
    simp [forPieces, adding, resuming, Program.joined]
  have hwithin : m.rules.Within onlyValues (m.adding last).rules :=
    Rules.within_append m.functions last.functions m.maxDepth
  obtain ⟨least, hbefore⟩ := h.instructions hwithin
  refine ⟨least, fun steps hle => ?_⟩
  have hlast := Rules.kept_instructions (Rules.Within.refl (fun _ => True) (m.adding last).rules)
    (Nat.le_refl steps) (fun _ => rfl) shown last.instructions (m.store #[])
    (Outcome.settled_of_all _)
  have hinstructions : (Program.joined (pieces ++ [last])).instructions =
      pieces.flatMap (·.instructions) ++ last.instructions := by simp [Program.joined]
  have hrun : (m.adding last).rules.instructions steps
      (Program.joined (pieces ++ [last])).instructions (start.store #[]) =
      ((m.adding last).rules.instructions steps last.instructions (m.store #[])).mapState
        (Store.following shown) := by
    rw [hinstructions, Rules.instructions_append, hbefore steps hle #[], Outcome.bind_done, ← hlast,
      following_store, Array.empty_append, Array.append_empty]
  rw [evaluate_of_load hload, Outcome.mapState_mapState, hsame]
  refine (congrArg (Outcome.mapState _) hrun).trans ?_
  rw [Outcome.mapState_mapState]
  rfl

/-- **A program in pieces is the program.** Where the pieces before the last are carried out to
their end, the last one can be registered, and from some number of steps on running the whole
program has the outcome of evaluating the last piece: the same error, if there is one, and a machine
in the same state, up to the instructions that it was made for. What it has shown is what the pieces
have shown one after the other. If the last piece does not end, the whole program does not end
either. -/
theorem run_joined_eq_evaluate_last (pieces : List Program) (last : Program) (g : Generator)
    (depth : Int) (listener : Option Listener) {whole start m : Machine} {shown : Array Output}
    (hwhole : ofProgram (.joined (pieces ++ [last])) g = .ok whole)
    (hstart : ofProgram .empty g = .ok start)
    (hpieces : ((start.limitDepth depth).setListener listener).Takes pieces shown m) :
    (∃ loaded, m.quiet.load last = .ok loaded) ∧
    ∃ least, ∀ steps, least ≤ steps →
      ((whole.limitDepth depth).setListener listener).run steps =
        (m.evaluate steps last).mapState fun m' =>
          { m' with instructions := whole.instructions,
                    world.outputs := shown ++ m'.world.outputs } := by
  obtain ⟨hfresh, rfl⟩ := ofProgram_eq_ok hwhole
  obtain ⟨-, rfl⟩ := ofProgram_eq_ok hstart
  obtain ⟨loaded, hload⟩ := hpieces.load_last rfl rfl hfresh
  exact ⟨⟨loaded, hload⟩, hpieces.run_eq hload⟩

/-- Defines a function that hands its argument back, and shows what it hands back. -/
def greeting : Program :=
  ⟨[], [⟨1, "echo", ["x"], some [.give 1 (.var "x")]⟩],
    [.declare 2 "Text" "a", .assign 3 "a" (.call "echo" [.text "hello"]), .log 4 (.var "a")]⟩

/-- Goes on from `greeting`. -/
def stumbling : Program :=
  ⟨[.foreign "Gold"], [⟨1, "spill", [], some [.log 2 (.var "a")]⟩],
    [.log 3 (.call "echo" [.var "a"]), .call 4 "spill" []]⟩

/-- Somebody who asks the program to stop when it says hello again. -/
def bored : Listener :=
  ⟨fun earlier o => o.text == "hello" && earlier.contains o⟩

/-- A function of the first piece is called before the second one is known, and from there. The
second piece says hello again, and is asked to stop because of what the first one has shown. -/
theorem run_greeting_and_stumbling :
    ∃ whole start m shown,
      ofProgram (.joined ([greeting] ++ [stumbling])) ⟨#[], 0, 0⟩ = .ok whole ∧
      ofProgram .empty ⟨#[], 0, 0⟩ = .ok start ∧
      ((start.limitDepth 7).setListener (some bored)).Takes [greeting] shown m ∧
      shown = #[⟨"hello", true⟩] ∧
      (∃ loaded, m.quiet.load stumbling = .ok loaded) ∧
      ∃ least, ∀ steps, least ≤ steps →
        ((whole.limitDepth 7).setListener (some bored)).run steps =
          (m.evaluate steps stumbling).mapState fun m' =>
            { m' with instructions := whole.instructions,
                      world.outputs := shown ++ m'.world.outputs } := by
  have hwhole : ofProgram (.joined ([greeting] ++ [stumbling])) ⟨#[], 0, 0⟩ =
      .ok ((blank _ ⟨#[], 0, 0⟩).adding _) := (load_eq_ok_iff _ _ _).mpr ⟨by decide, rfl⟩
  have hstart : ofProgram .empty ⟨#[], 0, 0⟩ = .ok ((blank [] ⟨#[], 0, 0⟩).adding .empty) := rfl
  obtain ⟨m, hfirst, hshown⟩ : ∃ m,
      ((((blank [] ⟨#[], 0, 0⟩).adding .empty).limitDepth 7).setListener (some bored)).evaluate 9
        greeting = .done () m ∧ m.world.outputs = #[⟨"hello", true⟩] := ⟨_, rfl, rfl⟩
  have hpieces := Takes.cons hfirst (.nil m)
  exact ⟨_, _, m, _, hwhole, hstart, hpieces, by rw [hshown]; rfl,
    run_joined_eq_evaluate_last [greeting] stumbling ⟨#[], 0, 0⟩ 7 (some bored) hwhole hstart
      hpieces⟩

end Machine

end Adventure
