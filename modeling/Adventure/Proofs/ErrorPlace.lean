import Mathlib.Data.Set.Defs
import Adventure.Proofs.Reached

/-!
# Where errors point

An error has a line and a trace, which are put together while the error makes its way out: the first
statement that it leaves gives it a line, and each call that it leaves adds a name. The result is as
if both had been read off where the error was raised (`Course.exists_raise`): the line is that of
the innermost statement that was being carried out, and the trace is the calls in progress.

A line of zero stands for none, so a statement on line zero would not be noticed. The statements of
a program that was read from a text are on the line of their first token, and lines count from one
(`Program.writtenIn_of_parse`). With this, `Machine.error_points_at_innermost_statement` holds of
every machine that was given such programs alone.
-/

namespace Adventure

/-- The frames after some moments are those that the others start from. -/
theorem framesAfter_append (K : List Frame) (moments moments' : List Moment) :
    framesAfter K (moments ++ moments') = framesAfter (framesAfter K moments) moments' :=
  List.foldl_append

/-- Nothing changes the depth when a run fails. -/
theorem Stop.depth_eq {r : Rules} {known : Statement → Prop} {s s₁ : Spot} {moments : List Moment}
    {f : Fault} (h : Stop r known s moments f s₁) : s₁.world.depth = s.world.depth := by
  cases h <;> rfl

/-- **The error of a computation that fails** has the line and the calls of the frames in which it
was raised, which is the last thing that happens. -/
theorem Course.exists_raise {σ α : Type} {r : Rules} {known : Statement → Prop} {world : σ → World}
    {w : World} {moments : List Moment} {e : RuntimeError} {s : σ}
    (h : Course r known world w moments (.failed e s : Outcome σ α)) (hw : w.depth = 0) :
    ∃ before w₁, moments = before ++ [⟨.raise e.fault, w₁⟩] ∧
      e.line = Frame.line (framesAfter [] before) ∧
      e.trace = Frame.calls (framesAfter [] before) ∧ e.trace.length = w₁.depth ∧
      ∀ st, .statement st ∈ framesAfter [] before → known st := by
  obtain ⟨frames, w', hfails, hline, htrace, -⟩ := h
  have hfails := hfails []
  rw [List.append_nil] at hfails
  obtain ⟨steps, s₁, last, rfl, hpath, hstop⟩ := hfails.exists_stop
  have hframes : frames = framesAfter [] (steps ++ last) := by
    rw [framesAfter_append, ← hpath.frames_eq]
    exact hstop.frames_eq
  have hdepth : w'.depth = 0 + (Frame.calls frames).length :=
    hstop.balanced (hpath.balanced hw)
  have hstart : Spot.Known known ⟨[], w⟩ := by simp [Spot.Known]
  have hknown : Spot.Known known ⟨frames, w'⟩ :=
    hstop.keepsKnown (hpath.invariant (fun _ _ _ hstep => hstep.keepsKnown) hstart).1
  have hsame : w'.depth = s₁.world.depth := hstop.depth_eq
  obtain ⟨before, rfl⟩ := hstop.exists_raise.1
  -- raising the fault leaves the frames as they are
  rw [← List.append_assoc, framesAfter_append] at hframes
  refine ⟨steps ++ before, s₁.world, (List.append_assoc _ _ _).symm, ?_, ?_, ?_, ?_⟩
  · rw [hline, hframes]
    rfl
  · rw [htrace, hframes]
    rfl
  · rw [htrace, ← hsame, hdepth, Nat.zero_add]
  · intro st hst
    refine hknown st ?_
    rw [hframes]
    exact hst

/-! ## Errors have a line -/

namespace Rules

variable {r : Rules} {n : Nat} {e : RuntimeError} {s s' : Store}

/-- An error that comes out of a statement has a line if the statement has. -/
theorem line_ne_zero_of_statement {st : Statement} (h : r.statement n st s = .failed e s')
    (hst : st.line ≠ 0) : e.line ≠ 0 := by
  have honLine : ∀ e : RuntimeError, (e.onLine st.line).line ≠ 0 := by
    intro e
    rw [RuntimeError.line_onLine]
    split <;> assumption
  cases n with
  | zero => cases h
  | succ n =>
    rw [statement] at h
    split at h
    · cases h
      exact honLine _
    · rcases haction : r.action n st s with ⟨signal, s₁⟩ | ⟨e₁, s₁⟩ | -
      all_goals
        rw [haction] at h
        cases h
      exact honLine e₁

/-- An error that comes out of instructions has a line if they all have. -/
theorem line_ne_zero_of_instructions {statements : List Statement}
    (h : r.instructions n statements s = .failed e s')
    (hstatements : ∀ st ∈ statements, st.line ≠ 0) : e.line ≠ 0 := by
  induction statements generalizing s with
  | nil => cases h
  | cons first rest ih =>
    obtain ⟨hfirst, hrest⟩ := List.forall_mem_cons.mp hstatements
    rw [instructions_cons] at h
    rcases hstatement : r.statement n first s with ⟨signal, s₁⟩ | ⟨e₁, s₁⟩ | -
    all_goals rw [hstatement] at h
    · exact ih h hrest
    · cases h
      exact line_ne_zero_of_statement hstatement hfirst
    · cases h

end Rules

/-- Statements are among all statements of their list. -/
theorem Statement.mem_allStatements {statements : List Statement} {st : Statement}
    (h : st ∈ statements) : st ∈ allStatements statements := by
  induction statements with
  | nil => cases h
  | cons first rest ih =>
    rw [allStatements]
    rcases List.mem_cons.mp h with rfl | h
    · exact List.mem_cons_self
    · exact List.mem_cons_of_mem _ (List.mem_append_right _ (ih h))

/-! ## Machines -/

/-- The program was read from one of the texts. -/
def Program.ReadFrom (texts : Set String) (p : Program) : Prop :=
  ∃ text ∈ texts, (Source.ofString text).parse = .ok p

/-- The statement is written in one of the texts. -/
def Statement.WrittenInSome (texts : Set String) (st : Statement) : Prop :=
  ∃ text ∈ texts, st.WrittenIn text

/-- A program that was read from texts is written there. -/
theorem Program.ReadFrom.writtenInSome {texts : Set String} {p : Program} (h : p.ReadFrom texts) :
    ∀ st ∈ p.statements, st.WrittenInSome texts := by
  obtain ⟨text, htext, hparse⟩ := h
  exact fun st hst => ⟨text, htext, writtenIn_of_parse hparse st hst⟩

/-- The error `e` points at what was going on at the last of the given moments, when it was raised:
its line is that of the innermost statement then, which is written there in one of the texts, and
its trace is the functions that were being carried out, the innermost first. -/
def RuntimeError.PointsInto (texts : Set String) (moments : List Moment) (e : RuntimeError) :
    Prop :=
  ∃ before w st, moments = before ++ [⟨.raise e.fault, w⟩] ∧
    Frame.innermost (framesAfter [] before) = some st ∧ st.WrittenInSome texts ∧
    e.line = st.line ∧ 1 ≤ e.line ∧
    e.trace = Frame.calls (framesAfter [] before) ∧ e.trace.length = w.depth

namespace Machine

variable {texts : Set String} {m m' : Machine} {steps : Nat} {e : RuntimeError}

/-- An error points to where the program is written that was running. -/
theorem AtRest.pointsInto_of_perform (h : m.AtRest (Statement.WrittenInSome texts))
    {statements : List Statement}
    (hknown : ∀ st ∈ Statement.allStatements statements, st.WrittenInSome texts)
    (hfailed : m.perform steps statements = .failed e m') :
    e.PointsInto texts (m.recordPerform steps statements).moments := by
  have hcourse := (h.tells_perform steps hknown).course
  rw [hfailed] at hcourse
  obtain ⟨before, w, hmoments, hline, htrace, hdepth, hframes⟩ := hcourse.exists_raise h.depth
  have hpos : ∀ st : Statement, st.WrittenInSome texts → 1 ≤ st.line := by
    rintro st ⟨text, -, hst⟩
    exact hst.one_le_line
  have hzero : e.line ≠ 0 := by
    rw [Machine.perform] at hfailed
    rcases hrun : m.rules.instructions steps statements ⟨m.scope, m.world⟩ with
      ⟨v, s⟩ | ⟨e₁, s⟩ | -
    all_goals
      rw [hrun] at hfailed
      cases hfailed
    refine Rules.line_ne_zero_of_instructions hrun fun st hst => ?_
    have := hpos st (hknown st (Statement.mem_allStatements hst))
    omega
  obtain ⟨st, hst⟩ := Frame.exists_innermost (hline ▸ hzero)
  have hwritten := hframes st (Frame.mem_of_innermost hst)
  have hst_pos := hpos st hwritten
  have hst_line : e.line = st.line := hline.trans (Frame.line_of_innermost hst (by omega))
  exact ⟨before, w, st, hmoments, hst, hwritten, hst_line, hst_line ▸ hst_pos, htrace, hdepth⟩

/-- **Errors point at the right place.** If a machine was given programs that were read from texts,
and a run of it or another such program that it is handed fails while instructions are carried out,
then the line of the error is that of the innermost statement at the moment when the error was
raised, and its trace is the calls in progress at that moment. -/
theorem error_points_at_innermost_statement (h : m.Reached (Program.ReadFrom texts)) (steps : Nat) :
    ((m.recordRun steps).outcome = m.run steps ∧
      ∀ e m', m.run steps = .failed e m' → e.PointsInto texts (m.recordRun steps).moments) ∧
    ∀ p, p.ReadFrom texts → m.clash p = none →
      (m.recordEvaluate steps p).outcome = m.evaluate steps p ∧
      ∀ e m', m.evaluate steps p = .failed e m' →
        e.PointsInto texts (m.recordEvaluate steps p).moments := by
  have hrest : m.AtRest (Statement.WrittenInSome texts) := h.atRest fun p hp => hp.writtenInSome
  refine ⟨⟨(hrest.tells_run steps).outcome, fun e m' hfailed => ?_⟩, fun p hp hclash => ?_⟩
  · exact hrest.quiet.pointsInto_of_perform hrest.instructions hfailed
  · have hload : m.quiet.load p = .ok (m.quiet.adding p) :=
      (load_eq_ok_iff _ _ _).mpr ⟨(clash_eq_none_iff _ _).mp hclash, rfl⟩
    refine ⟨(hrest.tells_evaluate hp.writtenInSome hload steps).outcome, fun e m' hfailed => ?_⟩
    rw [evaluate, hload] at hfailed
    rw [recordEvaluate, hload]
    exact (hrest.quiet.load hp.writtenInSome hload).pointsInto_of_perform
      (known_of_program hp.writtenInSome).2 hfailed

/-- A function that shows a variable which it does not have, and a call of it. -/
def missingVariable : String :=
  "function f() \x7b\n?x;\n\x7d\nf();"

/-- What the text is read as. -/
def missingVariableProgram : Program :=
  ⟨[], [⟨1, "f", [], some [.log 2 (.var "x")]⟩], [.call 4 "f" []]⟩

theorem parse_missingVariable :
    (Source.ofString missingVariable).parse = .ok missingVariableProgram := by
  have hitems : (Source.ofString missingVariable).tokens.items =
      [⟨.function, "", ⟨1, 1⟩⟩, ⟨.identifier, "f", ⟨1, 10⟩⟩, ⟨.roundOpen, "", ⟨1, 11⟩⟩,
        ⟨.roundClose, "", ⟨1, 12⟩⟩, ⟨.curlyOpen, "", ⟨1, 14⟩⟩, ⟨.questionMark, "", ⟨2, 1⟩⟩,
        ⟨.identifier, "x", ⟨2, 2⟩⟩, ⟨.semicolon, "", ⟨2, 3⟩⟩, ⟨.curlyClose, "", ⟨3, 1⟩⟩,
        ⟨.identifier, "f", ⟨4, 1⟩⟩, ⟨.roundOpen, "", ⟨4, 2⟩⟩, ⟨.roundClose, "", ⟨4, 3⟩⟩,
        ⟨.semicolon, "", ⟨4, 4⟩⟩] := by decide +kernel
  have hfailure : (Source.ofString missingVariable).tokens.failure = none := by decide +kernel
  refine (Source.parse_eq_ok_iff _ _).mpr ⟨hfailure, (Parsing.program_eq_ok_iff _ _).mpr ?_⟩
  rw [hitems]
  exact ⟨[.function ⟨⟨⟨.function, "", ⟨1, 1⟩⟩, by decide⟩, ⟨⟨.identifier, "f", ⟨1, 10⟩⟩, by decide⟩,
      ⟨⟨.roundOpen, "", ⟨1, 11⟩⟩, by decide⟩, .none ⟨⟨.roundClose, "", ⟨1, 12⟩⟩, by decide⟩,
      .mk ⟨⟨.curlyOpen, "", ⟨1, 14⟩⟩, by decide⟩
        (.cons (.log ⟨⟨.questionMark, "", ⟨2, 1⟩⟩, by decide⟩
          (.expression (.mk (.mk (.var ⟨⟨.identifier, "x", ⟨2, 2⟩⟩, by decide⟩) .nil) .nil))
          ⟨⟨.semicolon, "", ⟨2, 3⟩⟩, by decide⟩)
        (.nil ⟨⟨.curlyClose, "", ⟨3, 1⟩⟩, by decide⟩))⟩,
    .instruction (.call ⟨⟨.identifier, "f", ⟨4, 1⟩⟩, by decide⟩
      ⟨⟨.roundOpen, "", ⟨4, 2⟩⟩, by decide⟩ (.none ⟨⟨.roundClose, "", ⟨4, 3⟩⟩, by decide⟩)
      ⟨⟨.semicolon, "", ⟨4, 4⟩⟩, by decide⟩)],
    rfl, rfl⟩

theorem parse_nothing : (Source.ofString "").parse = .ok .empty := by
  have hitems : (Source.ofString "").tokens.items = [] := by decide +kernel
  have hfailure : (Source.ofString "").tokens.failure = none := by decide +kernel
  refine (Source.parse_eq_ok_iff _ _).mpr ⟨hfailure, (Parsing.program_eq_ok_iff _ _).mpr ?_⟩
  exact ⟨[], hitems.symm, rfl⟩

/-- A run of it fails on the second line, inside of the function, and so does handing it to the
machine of the empty text. -/
theorem missingVariable_fails_in_function :
    ∃ m m₁ m₂, ofProgram missingVariableProgram ⟨#[], 0, 0⟩ = .ok m ∧
      m.run 20 = .failed ⟨.undeclared "x", 2, ["f"]⟩ m₁ ∧
      RuntimeError.PointsInto {"", missingVariable} (m.recordRun 20).moments
        ⟨.undeclared "x", 2, ["f"]⟩ ∧
      (blank [] ⟨#[], 0, 0⟩).evaluate 20 missingVariableProgram =
        .failed ⟨.undeclared "x", 2, ["f"]⟩ m₂ ∧
      RuntimeError.PointsInto {"", missingVariable}
        ((blank [] ⟨#[], 0, 0⟩).recordEvaluate 20 missingVariableProgram).moments
        ⟨.undeclared "x", 2, ["f"]⟩ := by
  have hread : missingVariableProgram.ReadFrom {"", missingVariable} :=
    ⟨missingVariable, .inr rfl, parse_missingVariable⟩
  have hnothing : Program.empty.ReadFrom {"", missingVariable} := ⟨"", .inl rfl, parse_nothing⟩
  obtain ⟨m, m₁, hstart, hrun⟩ : ∃ m m₁, ofProgram missingVariableProgram ⟨#[], 0, 0⟩ = .ok m ∧
      m.run 20 = .failed ⟨.undeclared "x", 2, ["f"]⟩ m₁ := ⟨_, _, rfl, rfl⟩
  obtain ⟨m₂, hevaluate⟩ : ∃ m₂, (blank [] ⟨#[], 0, 0⟩).evaluate 20 missingVariableProgram =
      .failed ⟨.undeclared "x", 2, ["f"]⟩ m₂ := ⟨_, rfl⟩
  have hblank : ofProgram .empty ⟨#[], 0, 0⟩ = .ok (blank [] ⟨#[], 0, 0⟩) := rfl
  obtain ⟨⟨-, hruns⟩, -⟩ := error_points_at_innermost_statement (.start hread hstart) 20
  obtain ⟨-, hprograms⟩ := error_points_at_innermost_statement (.start hnothing hblank) 20
  exact ⟨m, m₁, m₂, hstart, hrun, hruns _ m₁ hrun, hevaluate,
    (hprograms _ hread rfl).2 _ m₂ hevaluate⟩

end Machine

end Adventure
