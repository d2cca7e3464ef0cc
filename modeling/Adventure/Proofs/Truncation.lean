import Adventure.Syntax.Printer

/-!
# What a failing outlet gets of a program

A printer walks through the whole program, and its walk does not depend on what the outlet answers.
So it comes to the same as writing `Program.lines` one after the other (`Printer.program_eq`),
whatever the outlet is. Once a write has failed, nothing is written (`Printer.writeAll_of_error`).

What is written is seen by an outlet with a record of its writes (`Recorded`), which changes nothing
else (`Program.print_recorded`). An outlet that takes some writes and then fails gets as many lines
of the program, and at most one more write is tried (`Program.print_truncated`).
-/

namespace Adventure

/-! ## A program, line by line -/

namespace Printer

variable {σ ε : Type} [Outlet σ ε]

/-- Writes lines one after the other. -/
def writeAll (p : Printer σ ε) (lines : List String) : Printer σ ε :=
  lines.foldl write p

@[simp] theorem writeAll_nil (p : Printer σ ε) : p.writeAll [] = p := rfl

@[simp] theorem writeAll_cons (p : Printer σ ε) (line : String) (more : List String) :
    p.writeAll (line :: more) = (p.write line).writeAll more := rfl

/-- Lines are written one after the other. -/
theorem writeAll_append (p : Printer σ ε) (lines more : List String) :
    p.writeAll (lines ++ more) = (p.writeAll lines).writeAll more :=
  List.foldl_append

theorem numbered_eq (p : Printer σ ε) (depth : Nat) (line : Int) (text : String) :
    p.numbered depth line text = p.write (Adventure.numbered depth line text) := rfl

mutual

/-- A statement is written line by line. -/
theorem statement_eq (p : Printer σ ε) (depth : Nat) :
    ∀ s : Statement, p.statement depth s = p.writeAll (s.lines depth)
  | .loop line condition body => by
    rw [statement, block_eq, Statement.lines, writeAll_cons, numbered_eq]
  | .branch line condition body alternative => by
    rw [statement, alternative_eq, block_eq, Statement.lines, writeAll_cons, writeAll_append,
      numbered_eq]
  | .declare .. | .assign .. | .attack .. | .log .. | .give .. | .call .. | .foreign .. => rfl

/-- A block is written as its lines. -/
theorem block_eq (p : Printer σ ε) (depth : Nat) :
    ∀ b : Option (List Statement), p.block depth b = p.writeAll (Statement.blockLines depth b)
  | none => rfl
  | some statements => by rw [block, statements_eq, Statement.blockLines]

theorem alternative_eq (p : Printer σ ε) (depth : Nat) :
    ∀ b : Option (List Statement),
      p.alternative depth b = p.writeAll (Statement.alternativeLines depth b)
  | none => rfl
  | some statements => by
    rw [alternative, statements_eq, Statement.alternativeLines, writeAll_cons, line]

theorem statements_eq (p : Printer σ ε) (depth : Nat) :
    ∀ statements : List Statement,
      p.statements depth statements = p.writeAll (Statement.allLines depth statements)
  | [] => rfl
  | s :: more => by
    rw [statements, statements_eq, statement_eq, Statement.allLines, writeAll_append]

end

/-- A function is written as its lines. -/
theorem function_eq (p : Printer σ ε) (f : Function) : p.function f = p.writeAll f.lines := by
  rw [function, block_eq, Function.lines, writeAll_cons, numbered_eq]

/-- Fields are written as their lines. -/
theorem fields_eq (p : Printer σ ε) (fields : List (String × Option String)) :
    p.fields fields = p.writeAll (fieldLines fields) := by
  induction fields generalizing p with
  | nil => rfl
  | cons field more ih =>
    obtain ⟨name, value⟩ := field
    cases value with
    | none => exact ih p
    | some text => exact ih (p.line 2 (name ++ ": " ++ text))

/-- A template is written as its lines. -/
theorem template_eq (p : Printer σ ε) (t : Template) : p.template t = p.writeAll t.lines := by
  cases t with
  | item i => exact fields_eq _ i.fields
  | character c => exact fields_eq _ c.fields
  | foreign name => rfl

/-- What is written of each part line by line, is written of all parts line by line. -/
theorem foldl_eq {α : Type} {f : Printer σ ε → α → Printer σ ε} {lines : α → List String}
    (hf : ∀ p a, f p a = p.writeAll (lines a)) (p : Printer σ ε) (parts : List α) :
    parts.foldl f p = p.writeAll (parts.flatMap lines) := by
  induction parts generalizing p with
  | nil => rfl
  | cons a parts ih => rw [List.foldl_cons, hf, ih, List.flatMap_cons, writeAll_append]

/-- **A program is written line by line**, whatever the outlet answers. -/
theorem program_eq (p : Printer σ ε) (q : Program) : p.program q = p.writeAll q.lines := by
  have hheading : ∀ (p : Printer σ ε) (text : String), p.line 0 text = p.write text := by
    intro p text
    rw [line, indented, Nat.mul_zero, List.replicate_zero, String.ofList_nil, String.empty_append]
  -- both sides become one chain of writes
  rw [program, Program.lines]
  simp only [foldl_eq function_eq, foldl_eq template_eq, statements_eq, hheading, writeAll_append,
    writeAll_cons, List.cons_append]

/-- Once a write has failed, nothing more is written. -/
theorem writeAll_of_error {p : Printer σ ε} {e : ε} (h : p.error = some e) (lines : List String) :
    p.writeAll lines = p := by
  have hwrite : ∀ line, p.write line = p := by
    intro line
    rw [write, h]
  induction lines with
  | nil => rfl
  | cons line more ih => rw [writeAll_cons, hwrite, ih]

end Printer

/-- Printing a program is writing its lines. -/
theorem Program.print_eq {σ ε : Type} [Outlet σ ε] (p : Program) (out : σ) :
    p.print out = (((Printer.ofOutlet out).writeAll p.lines).error,
      ((Printer.ofOutlet out).writeAll p.lines).outlet) := by
  rw [print, Printer.program_eq]

/-! ## Records -/

/-- A write that was made. -/
structure Write (ε : Type) where
  line : String
  /-- what it has failed with -/
  error : Option ε
  deriving DecidableEq, Repr

namespace Write

variable {ε : Type}

/-- A write that succeeds. -/
def success (line : String) : Write ε :=
  ⟨line, none⟩

/-- The lines that were taken. -/
def taken (writes : List (Write ε)) : List String :=
  (writes.filter (·.error.isNone)).map line

/-- The errors of the writes that failed. -/
def errors (writes : List (Write ε)) : List ε :=
  writes.filterMap error

/-- Lines are taken one after the other. -/
theorem taken_append (writes more : List (Write ε)) :
    taken (writes ++ more) = taken writes ++ taken more := by
  rw [taken, List.filter_append, List.map_append, taken, taken]

/-- Errors come one after the other. -/
theorem errors_append (writes more : List (Write ε)) :
    errors (writes ++ more) = errors writes ++ errors more :=
  List.filterMap_append

theorem taken_success (lines : List String) :
    taken (lines.map success : List (Write ε)) = lines := by
  induction lines with
  | nil => rfl
  | cons line more ih => exact congrArg (line :: ·) ih

theorem errors_success (lines : List String) :
    errors (lines.map success : List (Write ε)) = [] := by
  induction lines with
  | nil => rfl
  | cons line more ih => exact ih

theorem map_line_success (lines : List String) :
    (lines.map success : List (Write ε)).map line = lines := by
  rw [List.map_map]
  exact List.map_id lines

end Write

/-- An outlet with a record of what is written to it. -/
structure Recorded (σ ε : Type) where
  outlet : σ
  /-- the writes that were made, in their order -/
  writes : List (Write ε)

instance {σ ε : Type} [Outlet σ ε] : Outlet (Recorded σ ε) ε where
  write out line :=
    ((Outlet.write out.outlet line).1,
      ⟨(Outlet.write out.outlet line).2, out.writes ++ [⟨line, (Outlet.write out.outlet line).1⟩]⟩)

/-- The writes that are made to print a program. -/
def Program.writes {σ ε : Type} [Outlet σ ε] (p : Program) (out : σ) : List (Write ε) :=
  (p.print (⟨out, []⟩ : Recorded σ ε)).2.writes

namespace Printer

variable {σ ε : Type} [Outlet σ ε]

/-- The printer without the record. -/
def unrecorded (p : Printer (Recorded σ ε) ε) : Printer σ ε :=
  ⟨p.outlet.outlet, p.error⟩

/-- Keeping a record does not change what is written. -/
theorem unrecorded_write (p : Printer (Recorded σ ε) ε) (line : String) :
    (p.write line).unrecorded = p.unrecorded.write line := by
  obtain ⟨out, error⟩ := p
  cases error <;> rfl

/-- Keeping a record does not change what is written line after line. -/
theorem unrecorded_writeAll (p : Printer (Recorded σ ε) ε) (lines : List String) :
    (p.writeAll lines).unrecorded = p.unrecorded.writeAll lines := by
  induction lines generalizing p with
  | nil => rfl
  | cons line more ih => rw [writeAll_cons, writeAll_cons, ih, unrecorded_write]

/-- A printer with a record, of which no write has failed. -/
def recording (out : σ) (writes : List (Write ε)) : Printer (Recorded σ ε) ε :=
  ⟨⟨out, writes⟩, none⟩

/-- One more line is on record. -/
theorem recording_write (out : σ) (writes : List (Write ε)) (line : String) :
    (recording out writes).write line =
      ⟨⟨(Outlet.write out line).2, writes ++ [⟨line, (Outlet.write out line).1⟩]⟩,
        (Outlet.write out line).1⟩ := rfl

/-- `p.Honest`: the error of the printer is the only one on record. -/
def Honest (p : Printer (Recorded σ ε) ε) : Prop :=
  Write.errors p.outlet.writes = p.error.toList

/-- Writing a line keeps a record honest. -/
theorem Honest.write {p : Printer (Recorded σ ε) ε} (h : p.Honest) (line : String) :
    (p.write line).Honest := by
  obtain ⟨⟨out, writes⟩, error⟩ := p
  cases error with
  | some e => exact h
  | none =>
    -- nothing has failed before, so this write alone decides
    have hnone : Write.errors writes = [] := h
    rw [← recording, recording_write, Honest, Write.errors_append, hnone]
    cases (Outlet.write out line).1 <;> rfl

/-- Writing lines keeps a record honest. -/
theorem Honest.writeAll {p : Printer (Recorded σ ε) ε} (h : p.Honest) (lines : List String) :
    (p.writeAll lines).Honest := by
  induction lines generalizing p with
  | nil => exact h
  | cons line more ih => exact ih (h.write line)

end Printer

namespace Program

variable {σ ε : Type} [Outlet σ ε]

/-- What is on record of printing a program is its lines. -/
theorem writes_eq (p : Program) (out : σ) :
    p.writes out = ((Printer.recording out []).writeAll p.lines).outlet.writes := by
  rw [writes, print_eq, Printer.ofOutlet, ← Printer.recording]

/-- **A record changes nothing** about the answer and what is left of the outlet. -/
theorem print_recorded (p : Program) (out : σ) :
    (p.print (⟨out, []⟩ : Recorded σ ε)).1 = (p.print out).1 ∧
      (p.print (⟨out, []⟩ : Recorded σ ε)).2.outlet = (p.print out).2 := by
  have hsame := Printer.unrecorded_writeAll (.ofOutlet (⟨out, []⟩ : Recorded σ ε)) p.lines
  rw [print_eq, print_eq]
  exact ⟨congrArg Printer.error hsame, congrArg Printer.outlet hsame⟩

/-- **The answer is the error of the only write that fails**, or there is no such write. -/
theorem errors_writes (p : Program) (out : σ) :
    Write.errors (p.writes out) = (p.print out).1.toList := by
  have hstart : (Printer.recording out ([] : List (Write ε))).Honest := rfl
  rw [writes_eq, hstart.writeAll p.lines, ← (print_recorded p out).1, print_eq]
  rfl

end Program

/-! ## Outlets that fail -/

namespace Outlet

variable {σ ε : Type} [Outlet σ ε]

/-- `TakesThen P n out`: whatever is written, the next `n` writes succeed, and they leave an outlet
of which `P` holds. -/
def TakesThen (P : σ → Prop) : Nat → σ → Prop
  | 0, out => P out
  | n + 1, out => ∀ line, (write out line).1 = none ∧ TakesThen P n (write out line).2

/-- The next write fails. -/
def Refuses (out : σ) : Prop :=
  ∀ line, (write out line).1 ≠ none

/-- The next `n` writes succeed, and the one behind them fails. Nothing is said about later ones. -/
def FailsAfter (n : Nat) (out : σ) : Prop :=
  TakesThen Refuses n out

/-- Every write succeeds. -/
def NeverFails (out : σ) : Prop :=
  ∀ n, TakesThen (fun _ => True) n out

/-- An outlet that takes some lines takes the first of them, and then the others. -/
theorem TakesThen.split {P : σ → Prop} {m n : Nat} {out : σ} (h : TakesThen P (m + n) out) :
    TakesThen (TakesThen P n) m out := by
  induction m generalizing out with
  | zero => rwa [Nat.zero_add] at h
  | succ m ih =>
    rw [Nat.succ_add] at h
    intro line
    exact ⟨(h line).1, ih (h line).2⟩

/-- As many lines as an outlet takes are taken. -/
theorem TakesThen.writeAll {P : σ → Prop} {lines : List String} {out : σ}
    (h : TakesThen P lines.length out) (writes : List (Write ε)) :
    ∃ left, P left ∧ (Printer.recording out writes).writeAll lines =
      .recording left (writes ++ lines.map Write.success) := by
  induction lines generalizing out writes with
  | nil => exact ⟨out, h, by rw [List.map_nil, List.append_nil, Printer.writeAll_nil]⟩
  | cons line more ih =>
    obtain ⟨hnone, hmore⟩ := h line
    obtain ⟨left, hleft, hrun⟩ := ih hmore (writes ++ [Write.success line])
    refine ⟨left, hleft, ?_⟩
    have hwrite : (Printer.recording out writes).write line =
        .recording (write out line).2 (writes ++ [Write.success line]) := by
      rw [Printer.recording_write, hnone, Write.success, Printer.recording]
    rw [Printer.writeAll_cons, hwrite, hrun, List.append_assoc, List.map_cons,
      List.singleton_append]

/-- The line behind those that an outlet takes is written in vain, and no other is. -/
theorem FailsAfter.writeAll {lines : List String} {out : σ} (h : FailsAfter lines.length out)
    (line : String) (more : List String) :
    ∃ (e : ε) (left : σ), (Printer.recording out []).writeAll (lines ++ line :: more) =
      ⟨⟨left, lines.map Write.success ++ [⟨line, some e⟩]⟩, some e⟩ := by
  obtain ⟨left, hrefuses, hrun⟩ := TakesThen.writeAll h []
  obtain ⟨e, he⟩ := Option.ne_none_iff_exists'.mp (hrefuses line)
  refine ⟨e, (write left line).2, ?_⟩
  rw [Printer.writeAll_append, hrun, Printer.writeAll_cons, Printer.recording_write, he,
    List.nil_append]
  exact Printer.writeAll_of_error rfl more

end Outlet

/-! ## Writers -/

namespace Writer

/-- A writer fails when it has no room. -/
theorem failsAfter_of_room {w : Writer} {n : Nat} (h : w.room = some n) :
    Outlet.FailsAfter n w := by
  obtain ⟨room, taken, refused⟩ := w
  induction n generalizing room taken with
  | zero =>
    obtain rfl : room = some 0 := h
    intro line hnone
    cases hnone
  | succ n ih =>
    obtain rfl : room = some (n + 1) := h
    intro line
    exact ⟨rfl, ih (some n) (line :: taken) rfl⟩

/-- A writer without a limit never fails. -/
theorem neverFails_of_room {w : Writer} (h : w.room = none) : Outlet.NeverFails w := by
  intro n
  obtain ⟨room, taken, refused⟩ := w
  obtain rfl : room = none := h
  induction n generalizing taken with
  | zero => trivial
  | succ n ih => exact fun line => ⟨rfl, ih (line :: taken)⟩

/-- A writer that has room for some lines takes them all. -/
theorem writeAll_of_room {lines : List String} {w : Writer}
    (hroom : ∀ n ∈ w.room, lines.length ≤ n) :
    ∃ v, (Printer.ofOutlet w).writeAll lines = .ofOutlet v ∧
      v.taken = lines.reverse ++ w.taken := by
  induction lines generalizing w with
  | nil => exact ⟨w, rfl, rfl⟩
  | cons line more ih =>
    obtain ⟨room, taken, refused⟩ := w
    rcases room with - | - | n
    · obtain ⟨v, hv, htaken⟩ := @ih ⟨none, line :: taken, refused⟩ (by simp)
      exact ⟨v, hv, by simp [htaken]⟩
    · exact absurd (hroom 0 rfl) (by simp)
    · have hmore : more.length ≤ n := Nat.le_of_succ_le_succ (hroom (n + 1) rfl)
      obtain ⟨v, hv, htaken⟩ := @ih ⟨some n, line :: taken, refused⟩ (by simpa using hmore)
      exact ⟨v, hv, by simp [htaken]⟩

end Writer

/-- A writer that has room for a program is handed all of it. -/
theorem Program.exists_print {p : Program} {room : Option Nat}
    (hroom : ∀ n ∈ room, p.lines.length ≤ n) :
    ∃ v, p.print (Writer.ofRoom room) = (none, v) ∧ v.text = p.dump := by
  obtain ⟨v, hv, htaken⟩ := Writer.writeAll_of_room (w := .ofRoom room) hroom
  refine ⟨v, ?_, ?_⟩
  · rw [print_eq, hv]
    rfl
  · rw [Writer.text, htaken, dump, Writer.ofRoom, List.append_nil, List.reverse_reverse]

/-! ## Programs that are cut off -/

namespace Program

variable {σ ε : Type} [Outlet σ ε]

/-- All lines of a program are written, if the outlet takes so many. -/
theorem writes_of_takes {p : Program} {out : σ} {P : σ → Prop}
    (h : Outlet.TakesThen P p.lines.length out) : p.writes out = p.lines.map Write.success := by
  obtain ⟨left, -, hrun⟩ := h.writeAll []
  rw [writes_eq, hrun]
  rfl

/-- A program that is too long is written up to the line that fails. -/
theorem writes_of_failsAfter {p : Program} {out : σ} {n : Nat} (h : Outlet.FailsAfter n out)
    (hn : n < p.lines.length) :
    ∃ e, p.writes out = (p.lines.take n).map Write.success ++ [⟨p.lines[n], some e⟩] := by
  have hlines : p.lines = p.lines.take n ++ p.lines[n] :: p.lines.drop (n + 1) := by
    rw [← List.drop_eq_getElem_cons hn, List.take_append_drop]
  have hlength : (p.lines.take n).length = n := List.length_take_of_le (Nat.le_of_lt hn)
  rw [← hlength] at h
  obtain ⟨e, left, hrun⟩ := h.writeAll p.lines[n] (p.lines.drop (n + 1))
  rw [← hlines] at hrun
  exact ⟨e, by rw [writes_eq, hrun]⟩

/-- **A failing outlet gets the first lines of a program.** Let one outlet take `n` writes and then
fail, and let another one never fail. What is written to the other one are the lines of the program.
Of these, the first outlet takes the first `n`, or all if there are fewer, in their order. At most
one write to it fails, which is that of the next line. The answer is the error of this write, and
there is one if and only if there are more than `n` lines. -/
theorem print_truncated {τ δ : Type} [Outlet τ δ] (p : Program) {n : Nat} {out : σ} {patient : τ}
    (hout : Outlet.FailsAfter n out) (hpatient : Outlet.NeverFails patient) :
    let all := (p.writes patient).map Write.line
    let made := p.writes out
    all = p.lines ∧
    Write.taken made = all.take (min n all.length) ∧
    made.map Write.line = all.take (n + 1) ∧
    (Write.errors made).length ≤ 1 ∧
    Write.errors made = (p.print out).1.toList ∧
    ((p.print out).1.isSome ↔ n < all.length) := by
  intro all made
  have hall : all = p.lines :=
    (congrArg (List.map Write.line) (writes_of_takes (hpatient _))).trans
      (Write.map_line_success p.lines)
  have herrors : Write.errors made = (p.print out).1.toList := errors_writes p out
  have hone : (Write.errors made).length ≤ 1 := by
    rw [herrors]
    exact Option.length_toList_le
  rw [hall]
  rcases Nat.lt_or_ge n p.lines.length with hn | hn
  · -- the line at place `n` is refused
    obtain ⟨e, hmade : made = _⟩ := writes_of_failsAfter hout hn
    refine ⟨rfl, ?_, ?_, hone, herrors, ?_⟩
    · rw [hmade, Write.taken_append, Write.taken_success, Nat.min_eq_left (Nat.le_of_lt hn)]
      exact List.append_nil _
    · rw [hmade, List.map_append, Write.map_line_success]
      exact List.take_append_getElem hn
    · rw [hmade, Write.errors_append, Write.errors_success] at herrors
      have hprint : (p.print out).1 = some e := Option.toList_eq_singleton_iff.mp herrors.symm
      exact iff_of_true (Option.isSome_of_eq_some hprint) hn
  · -- there are no more lines than are taken
    have htakes : Outlet.TakesThen Outlet.Refuses (p.lines.length + (n - p.lines.length)) out := by
      rwa [Nat.add_sub_cancel' hn]
    have hmade : made = p.lines.map Write.success := writes_of_takes htakes.split
    refine ⟨rfl, ?_, ?_, hone, herrors, ?_⟩
    · rw [hmade, Write.taken_success, Nat.min_eq_right hn, List.take_length]
    · rw [hmade, Write.map_line_success, List.take_of_length_le (Nat.le_succ_of_le hn)]
    · rw [hmade, Write.errors_success] at herrors
      have hprint : (p.print out).1 = none := Option.toList_eq_nil_iff.mp herrors.symm
      rw [hprint]
      exact iff_of_false Bool.false_ne_true (Nat.not_lt.mpr hn)

/-- A loop with a branch in it, and an item. -/
def patrol : Program :=
  ⟨[.item ⟨6, "Torch", none, some 2, none, none, none⟩], [],
    [.loop 1 ⟨.var "Night", .less, .number 5⟩ (some
      [.branch 2 ⟨.var "Noise", .equal, .number 1⟩ (some [.log 3 (.text "Who is there?")])
        (some [.assign 5 "Night" (.var "Night")])])]⟩

/-- A writer with room for four lines refuses the line of the alternative, which stands in a loop.
The five lines behind it are not written. -/
theorem patrol_truncated :
    Outlet.FailsAfter 4 (Writer.ofRoom (some 4)) ∧ Outlet.NeverFails (Writer.ofRoom none) ∧
      Write.taken (patrol.writes (Writer.ofRoom (some 4))) = patrol.lines.take 4 ∧
      (patrol.writes (Writer.ofRoom (some 4))).map Write.line =
        patrol.lines.take 4 ++ [indented 2 "else:"] ∧
      Write.errors (patrol.writes (Writer.ofRoom (some 4))) = [.full] ∧
      (patrol.print (Writer.ofRoom (some 4))).1 = some .full ∧ patrol.lines.length = 10 := by
  have hout : Outlet.FailsAfter 4 (Writer.ofRoom (some 4)) := Writer.failsAfter_of_room rfl
  have hpatient : Outlet.NeverFails (Writer.ofRoom none) := Writer.neverFails_of_room rfl
  obtain ⟨hall, htaken, hmade, -, herrors, hanswer⟩ := print_truncated patrol hout hpatient
  rw [hall] at htaken hmade hanswer
  obtain ⟨e, he⟩ := Option.isSome_iff_exists.mp (hanswer.mpr (by decide))
  cases e
  rw [he] at herrors
  exact ⟨hout, hpatient, htaken, hmade, herrors, he, rfl⟩

end Program

end Adventure
