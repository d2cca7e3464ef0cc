import Adventure.Batch
import Adventure.Report
import Adventure.Session
import Adventure.Proofs.Streaming

/-!
# Front ends that agree

A text can be run by an interpreter, for a report, in a batch, or to open a session. Each of these
reads, loads, seeds and runs the program in its own way, and each has its own moment for complaints:
an interpreter complains about a text when it is made and about all else when it is asked to run, a
batch goes by the interpreter, a report says in which stage something went wrong, and a session does
not open unless the program loads.

What they have in common is a trial of the text (`Trial`): the program is read and loaded, its dice
are seeded, and it is run. Everything that a front end has to say is told by the trial
(`Trial.front_ends_agree`).
-/

namespace Adventure

open Text

/-! ## Blanks -/

namespace Text

/-- A character that is no blank is not trimmed away with the blanks at the front. -/
theorem mem_dropWhile_isBlank {c : Char} {cs : List Char} (hc : c ∈ cs)
    (hblank : isBlank c = false) : c ∈ cs.dropWhile isBlank := by
  rw [← List.takeWhile_append_dropWhile (p := isBlank) (l := cs)] at hc
  rcases List.mem_append.mp hc with hc | hc
  · rw [List.mem_takeWhile_imp hc] at hblank
    cases hblank
  · exact hc

theorem trimmed_ne_nil {cs : List Char} (h : ∃ c ∈ cs, isBlank c = false) : trimmed cs ≠ [] := by
  obtain ⟨c, hc, hblank⟩ := h
  have hfront := List.mem_reverse.mpr (mem_dropWhile_isBlank hc hblank)
  have hback := List.mem_reverse.mpr (mem_dropWhile_isBlank hfront hblank)
  exact List.ne_nil_of_mem hback

end Text

/-! ## Machines of a text -/

namespace Machine

/-- The limit is the default one, or stands for it. -/
def IsDefaultDepth (depth : Int) : Prop :=
  depth ≤ 0 ∨ depth = defaultMaxDepth

theorem limitDepth_of_isDefaultDepth {m : Machine} (hm : m.maxDepth = defaultMaxDepth) {depth : Int}
    (h : IsDefaultDepth depth) : m.limitDepth depth = m := by
  have hlimit : (if depth ≤ 0 then defaultMaxDepth else depth.toNat) = defaultMaxDepth := by
    rcases h with h | rfl
    · exact if_pos h
    · rfl
  rw [limitDepth, hlimit, ← hm]

theorem maxDepth_of_ofProgram {p : Program} {g : Generator} {m : Machine}
    (h : ofProgram p g = .ok m) : m.maxDepth = defaultMaxDepth := by
  rw [ofProgram, load] at h
  split at h <;> cases h
  rfl

theorem maxDepth_reseed (m : Machine) (seed : Int64) : (m.reseed seed).maxDepth = m.maxDepth := by
  rw [reseed]

/-- A machine that was just made is only seeded, if the seed is one and the limit is the default. -/
theorem setUp_of_ofProgram {p : Program} {g : Generator} {m : Machine}
    (h : ofProgram p g = .ok m) {seed : Int64} (hseed : seed ≠ 0) {depth : Int}
    (hdepth : IsDefaultDepth depth) : m.setUp ⟨seed, depth⟩ = m.reseed seed := by
  have hdefault := maxDepth_of_ofProgram h
  rw [← maxDepth_reseed m seed] at hdefault
  rw [setUp, if_neg hseed, limitDepth_of_isDefaultDepth hdefault hdepth]

/-- Where a machine's dice came from before it was seeded does not matter. -/
theorem ofProgram_reseed (p : Program) (g g' : Generator) (seed : Int64) :
    (ofProgram p g').map (·.reseed seed) = (ofProgram p g).map (·.reseed seed) := by
  have hclash : (blank p.instructions g').clash p = (blank p.instructions g).clash p := rfl
  rw [ofProgram, ofProgram, load, load, hclash]
  rcases (blank p.instructions g).clash p with - | ⟨name, line⟩ <;> rfl

/-- A run shows its texts each on a line. -/
theorem newline_of_mem_outputs {m m' : Machine} {steps : Nat} (h : (m.run steps).state? = some m') :
    ∀ o ∈ m'.outputs, o.newline = true := by
  intro o ho
  rw [outputs_eq_of_run h] at ho
  obtain ⟨moment, -, hshown⟩ := List.mem_filterMap.mp ho
  unfold Moment.shown? at hshown
  split at hshown
  · cases hshown
    rfl
  · cases hshown

end Machine

/-! ## Trials -/

/-- What becomes of the program of a text. -/
inductive Trial where
  /-- the text is no program, or the program does not load -/
  | refused (e : ProgramError)
  /-- the program has run, with this error if there was one, and left this machine -/
  | ran (e : Option RuntimeError) (m : Machine)

namespace Trial

/-- Reads the program of a text, seeds its dice and runs it. There is no trial if the run does not
end within `steps`. -/
def ofText (steps : Nat) (fresh : Generator) (seed : Int64) (text : List Char) : Option Trial :=
  match Machine.ofSource (.ofChars text none) fresh with
  | .error e => some (.refused e)
  | .ok m =>
    match (m.reseed seed).run steps with
    | .done _ m => some (.ran none m)
    | .failed e m => some (.ran (some e) m)
    | .unfinished => none

/-- What the program has shown. -/
def outputs : Trial → List Output
  | refused _ => []
  | ran _ m => m.outputs

/-- What went wrong. -/
def error? : Trial → Option ProgramError
  | refused e => some e
  | ran e _ => e.map .runtime

/-- What went wrong, with the stage in which it did. -/
def stagedError? : Trial → Option String
  | refused e => some ("compile: " ++ e.message)
  | ran e _ => e.map fun e => "runtime: " ++ e.message

/-- Everything that was shown, each text on a line. -/
def shown (t : Trial) : String :=
  String.join (t.outputs.map fun o => o.text ++ "\n")

/-- The message of what went wrong, on a line, or nothing. -/
def complaint (t : Trial) (painted : String → String) : String :=
  complaintLine (t.error?.map fun e => painted e.message)

/-- A session that is opened on the text: the program has run first. -/
def session (t : Trial) (painted : String → String) : Except ProgramError (Session × Reply) :=
  match t with
  | refused e => .error e
  | ran _ m => .ok (⟨m, painted⟩, ⟨t.shown, t.complaint painted⟩)

/-! ## What a trial tells -/

/-- The outcome of a run that has left the machine, with the error if there was one. -/
def outcome : Option RuntimeError → Machine → Outcome Machine Unit
  | none, m => .done () m
  | some e, m => .failed e m

theorem state?_outcome (e : Option RuntimeError) (m : Machine) :
    (outcome e m).state? = some m := by
  cases e <;> rfl

/-- How far the text of a trial came. Nothing of this depends on dice that are not seeded. -/
inductive Stages (steps : Nat) (seed : Int64) (text : List Char) : Trial → Prop where
  /-- the text is no program -/
  | unparsed {e : ParseError} (hparse : (Source.ofChars text none).parse = .error e) :
      Stages steps seed text (.refused (.unparsed e))
  /-- the program does not load -/
  | unloaded {p : Program} {e : RuntimeError} (hparse : (Source.ofChars text none).parse = .ok p)
      (hload : ∀ g, Machine.ofProgram p g = .error e) :
      Stages steps seed text (.refused (.runtime e))
  /-- the program was run -/
  | ran {p : Program} {e : Option RuntimeError} {m : Machine}
      (hparse : (Source.ofChars text none).parse = .ok p)
      (hload : ∀ g, ∃ m₀, Machine.ofProgram p g = .ok m₀ ∧
        (m₀.reseed seed).run steps = outcome e m) :
      Stages steps seed text (.ran e m)

theorem exists_ofProgram {p : Program} {g : Generator} {m : Machine}
    (h : Machine.ofProgram p g = .ok m) (seed : Int64) (g' : Generator) :
    ∃ m', Machine.ofProgram p g' = .ok m' ∧ m'.reseed seed = m.reseed seed := by
  have hmap := Machine.ofProgram_reseed p g g' seed
  rw [h] at hmap
  rcases hm' : Machine.ofProgram p g' with e | m'
  · rw [hm'] at hmap
    cases hmap
  · rw [hm'] at hmap
    exact ⟨m', rfl, Except.ok.inj hmap⟩

theorem ofProgram_of_error {p : Program} {g : Generator} {e : RuntimeError}
    (h : Machine.ofProgram p g = .error e) (g' : Generator) :
    Machine.ofProgram p g' = .error e := by
  have hmap := Machine.ofProgram_reseed p g g' 0
  rw [h] at hmap
  rcases hm' : Machine.ofProgram p g' with e' | m'
  · rw [hm'] at hmap
    exact congrArg Except.error (Except.error.inj hmap)
  · rw [hm'] at hmap
    cases hmap

/-- **Every trial came to one of the stages.** -/
theorem stages {steps : Nat} {fresh : Generator} {seed : Int64} {text : List Char} {t : Trial}
    (h : ofText steps fresh seed text = some t) : Stages steps seed text t := by
  unfold ofText Machine.ofSource at h
  rcases hparse : (Source.ofChars text none).parse with e | p
  · simp only [hparse, Option.some.injEq] at h
    subst h
    exact .unparsed hparse
  rcases hload : Machine.ofProgram p fresh with e | m
  · simp only [hparse, hload, Option.some.injEq] at h
    subst h
    exact .unloaded hparse (ofProgram_of_error hload)
  simp only [hparse, hload] at h
  -- seeded, the program is the same machine wherever its dice came from
  have hran : ∀ {e : Option RuntimeError} {m' : Machine},
      (m.reseed seed).run steps = outcome e m' → Stages steps seed text (.ran e m') := by
    intro e m' hrun
    refine .ran hparse fun g => ?_
    obtain ⟨m₀, hm₀, hseeded⟩ := exists_ofProgram hload seed g
    exact ⟨m₀, hm₀, by rw [hseeded, hrun]⟩
  cases hrun : (m.reseed seed).run steps with
  | done u m' =>
    simp only [hrun, Option.some.injEq] at h
    subst h
    exact hran hrun
  | failed e m' =>
    simp only [hrun, Option.some.injEq] at h
    subst h
    exact hran hrun
  | unfinished =>
    simp only [hrun] at h
    cases h

namespace Stages

variable {steps : Nat} {seed : Int64} {text : List Char} {t : Trial}

/-- What is written of the outputs is each of their texts on a line. -/
theorem written_outputs (h : Stages steps seed text t) :
    String.join (t.outputs.map Output.written) = t.shown := by
  rw [shown]
  congr 1
  refine List.map_congr_left fun o ho => ?_
  cases h with
  | unparsed | unloaded => cases ho
  | @ran p e m hparse hload =>
    obtain ⟨m₀, -, hrun⟩ := hload (Generator.ofSeed seed)
    have hstate := state?_outcome e m
    rw [← hrun] at hstate
    rw [Output.written, if_pos (Machine.newline_of_mem_outputs hstate o ho)]

/-- An interpreter complains about a text when it is made, and about all else when it is asked to
run. -/
theorem interpreter (h : Stages steps seed text t) (hseed : seed ≠ 0) {depth : Int}
    (hdepth : Machine.IsDefaultDepth depth) (fresh : Generator) :
    ∃ x i, (Interpreter.ofSource fresh ⟨seed, depth⟩ (.ofChars text none)).execute steps =
        some (x, i) ∧
      x.ok = t.error?.isNone ∧
      x.shown = t.shown ∧
      complaintLine (Interpreter.ofSource fresh ⟨seed, depth⟩ (.ofChars text none)).greeting ++
        complaintLine x.complaint = t.complaint id := by
  have hwritten := h.written_outputs
  cases h with
  | unparsed hparse =>
    simp only [Interpreter.ofSource, hparse]
    exact ⟨_, _, rfl, rfl, rfl, String.append_empty⟩
  | unloaded hparse hload =>
    simp only [Interpreter.ofSource, hparse, hload]
    exact ⟨_, _, rfl, rfl, rfl, String.empty_append⟩
  | @ran p e m hparse hload =>
    obtain ⟨m₀, hm₀, hrun⟩ := hload fresh
    simp only [Interpreter.ofSource, hparse, hm₀, Machine.setUp_of_ofProgram hm₀ hseed hdepth,
      Interpreter.execute, hrun]
    cases e with
    | none => exact ⟨_, _, rfl, rfl, hwritten, rfl⟩
    | some e => exact ⟨_, _, rfl, rfl, hwritten, String.empty_append⟩

/-- A report says in which stage something went wrong, and of what kind a fault is. -/
theorem report (h : Stages steps seed text t) (hseed : seed ≠ 0)
    (htext : ∃ c ∈ text, isBlank c = false) (fresh : Generator) :
    Report.ofText steps fresh seed text =
      some ⟨t.outputs, t.stagedError?, t.error?.bind (·.faultKind?)⟩ := by
  have hblank : ¬(trimmed text).isEmpty :=
    fun hempty => trimmed_ne_nil htext (List.isEmpty_iff.mp hempty)
  simp only [Report.ofText, if_neg hblank, Machine.ofSource, if_neg hseed]
  cases h with
  | unparsed hparse =>
    simp only [hparse]
    rfl
  | unloaded hparse hload =>
    simp only [hparse, hload]
    rfl
  | @ran p e m hparse hload =>
    obtain ⟨m₀, hm₀, hrun⟩ := hload fresh
    simp only [hparse, hm₀, hrun]
    cases e <;> rfl

/-- A batch that is not logged is what its interpreter has to say. -/
theorem batch (h : Stages steps seed text t) (hseed : seed ≠ 0) {s : Settings}
    (hs : s.seed = seed) (hdepth : Machine.IsDefaultDepth s.maxDepth.toInt)
    (hcolor : s.color = false) (hverbose : s.verbose = false) (paint : String → String)
    (fresh : Generator) :
    Batch.run paint steps fresh s false (.ok (.ofChars text none)) =
      some (.ok ⟨t.error?.isNone, t.shown, t.complaint id⟩) := by
  subst hs
  have hwritten := h.written_outputs
  -- without colours and without log lines, only outputs and complaints are written
  have hlogged : ∀ line, Batch.logged s line = "" := fun line => if_neg (by simp [hverbose])
  have hpainted : s.painted paint = id := if_neg (by simp [hcolor])
  have hcomplained : ∀ c, Batch.complained paint s c = complaintLine c := by
    intro c
    cases c with
    | none => rfl
    | some message => rw [Batch.complained, hpainted, id]
  cases h with
  | unparsed hparse =>
    simp only [Batch.run, Interpreter.ofSource, hparse, Batch.ofInterpreter, hlogged, hcomplained]
    rfl
  | unloaded hparse hload =>
    simp only [Batch.run, Interpreter.ofSource, hparse, hload, Batch.ofInterpreter, hlogged,
      hcomplained]
    rfl
  | @ran p e m hparse hload =>
    obtain ⟨m₀, hm₀, hrun⟩ := hload fresh
    have htraced : ∀ e, Batch.tracedCalls s e = "" := by
      intro e
      cases e with
      | none => rfl
      | some e => simp only [Batch.tracedCalls, hlogged, ite_self]
    simp only [Batch.run, Interpreter.ofSource, hparse, hm₀, Settings.setup,
      Machine.setUp_of_ofProgram hm₀ hseed hdepth, Batch.ofInterpreter, Interpreter.execute,
      Bool.false_eq_true, if_false, hrun, Batch.loaded, hlogged]
    rw [← hwritten]
    cases e <;> simp only [outcome, Option.map_some, htraced, hcomplained, String.empty_append,
      String.append_empty] <;> rfl

/-- A session on the program goes on with the machine that the run has left. -/
theorem session (h : Stages steps seed text t) (hseed : seed ≠ 0) {s : Settings}
    (hs : s.seed = seed) (hdepth : Machine.IsDefaultDepth s.maxDepth.toInt)
    (paint : String → String) (fresh : Generator) :
    Session.start paint steps fresh s (some (.ok (.ofChars text none))) =
      some (t.session (s.painted paint)) := by
  subst hs
  have hwritten := h.written_outputs
  cases h with
  | unparsed hparse =>
    simp only [Session.start, Machine.ofFile, Machine.ofSource, hparse]
    rfl
  | unloaded hparse hload =>
    simp only [Session.start, Machine.ofFile, Machine.ofSource, hparse, hload]
    rfl
  | @ran p e m hparse hload =>
    obtain ⟨m₀, hm₀, hrun⟩ := hload fresh
    simp only [Session.start, Machine.ofFile, Machine.ofSource, hparse, hm₀, Settings.setup,
      Machine.setUp_of_ofProgram hm₀ hseed hdepth, hrun, Trial.session, ← hwritten]
    cases e with
    | none => rfl
    | some e => rfl

end Stages

/-- **The front ends agree.** Let the program of a text that is not blank come to its end within the
given number of steps, seeded with a seed that is one and with the default limit on calls. Then what
an interpreter shows and complains about, whether it says that all went well, what a report holds,
what a batch without colours and log writes, and the session that opens on the text, however
complaints are painted in it, are all told by the trial of the text, wherever the dice came from
before they were seeded. -/
theorem front_ends_agree {steps : Nat} {fresh : Generator} {seed : Int64} {text : List Char}
    {t : Trial} (h : ofText steps fresh seed text = some t) (hseed : seed ≠ 0)
    (htext : ∃ c ∈ text, isBlank c = false) (fresh' : Generator) :
    (∀ depth, Machine.IsDefaultDepth depth →
      ∃ x i, (Interpreter.ofSource fresh' ⟨seed, depth⟩ (.ofChars text none)).execute steps =
          some (x, i) ∧
        x.ok = t.error?.isNone ∧
        x.shown = t.shown ∧
        complaintLine (Interpreter.ofSource fresh' ⟨seed, depth⟩ (.ofChars text none)).greeting ++
          complaintLine x.complaint = t.complaint id) ∧
    Report.ofText steps fresh' seed text =
      some ⟨t.outputs, t.stagedError?, t.error?.bind (·.faultKind?)⟩ ∧
    ∀ (s : Settings) (paint : String → String),
      s.seed = seed → Machine.IsDefaultDepth s.maxDepth.toInt →
      (s.color = false → s.verbose = false →
        Batch.run paint steps fresh' s false (.ok (.ofChars text none)) =
          some (.ok ⟨t.error?.isNone, t.shown, t.complaint id⟩)) ∧
      Session.start paint steps fresh' s (some (.ok (.ofChars text none))) =
        some (t.session (s.painted paint)) := by
  have hstages := stages h
  refine ⟨fun depth hdepth => hstages.interpreter hseed hdepth fresh',
    hstages.report hseed htext fresh', fun s paint hs hdepth => ⟨fun hcolor hverbose => ?_, ?_⟩⟩
  · exact hstages.batch hseed hs hdepth hcolor hverbose paint fresh'
  · exact hstages.session hseed hs hdepth paint fresh'

/-- A run without colours and log, with the default limit on calls. -/
def plainly : Settings :=
  ⟨.plain, 7, 0, false, false, false, "gold"⟩

/-- A program that shows one thing and fails, as it is reported on and run in a batch. -/
theorem gold_then_fault_agreed :
    Report.ofText 9 ⟨#[], 0, 0⟩ 7 "?\"gold\";?x;".toList =
      some ⟨[⟨"gold", true⟩], some ("runtime: " ++ Traffic.noVariable.message),
        some Traffic.noVariable.fault.kind⟩ ∧
    Batch.run id 9 ⟨#[], 0, 0⟩ plainly false (.ok (.ofString "?\"gold\";?x;")) =
      some (.ok ⟨false, "gold\n", Traffic.noVariable.message ++ "\n"⟩) := by
  obtain ⟨m, hrun, houtputs⟩ : ∃ m, ((Machine.blank Traffic.goldThenFault.instructions
      ⟨#[], 0, 0⟩).reseed 7).run 9 = .failed Traffic.noVariable m ∧ m.outputs = [⟨"gold", true⟩] :=
    ⟨_, rfl, rfl⟩
  have hparse : (Source.ofChars "?\"gold\";?x;".toList none).parse = .ok Traffic.goldThenFault :=
    Traffic.parse_goldThenFault
  have hload : Machine.ofProgram Traffic.goldThenFault ⟨#[], 0, 0⟩ =
      .ok (Machine.blank Traffic.goldThenFault.instructions ⟨#[], 0, 0⟩) := rfl
  have htrial : ofText 9 ⟨#[], 0, 0⟩ 7 "?\"gold\";?x;".toList =
      some (.ran (some Traffic.noVariable) m) := by
    simp only [ofText, Machine.ofSource, hparse, hload, hrun]
  obtain ⟨-, hreport, hsettings⟩ := front_ends_agree htrial (by decide)
    ⟨'x', by decide, by decide⟩ ⟨#[], 0, 0⟩
  obtain ⟨hbatch, -⟩ := hsettings plainly id rfl (.inl (by decide))
  have hshown : shown (.ran (some Traffic.noVariable) m) = "gold\n" := by
    simp only [shown, outputs, houtputs]
    rfl
  refine ⟨?_, ?_⟩
  · rw [hreport, outputs, houtputs]
    rfl
  · rw [Source.ofString, hbatch rfl rfl, hshown]
    rfl

end Trial

end Adventure
