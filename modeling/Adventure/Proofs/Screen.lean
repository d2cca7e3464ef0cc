import Mathlib.Data.List.DropRight
import Adventure.Proofs.Traffic

/-!
# What is on the screen

A viewer keeps every output since its program was started last, and each time puts them together
anew: the lines that are complete, with newlines between them, and behind them the line that is
still open. Nothing of what was written is lost in this (`Output.split_writes`). But whether there
are lines at all is told from whether there is any text in them, and so is whether a line is open.
An empty line counts as none where it is the only complete one, and an open line counts as none
where nothing stands on it. In these two cases, and in no other, the screen does not show what was
written (`Viewer.content_exact_iff`).
-/

namespace Adventure

open Viewer (Event Message errorLine)

/-! ## What outputs write -/

namespace Output

/-- Everything that outputs write, one after the other. -/
def writing (outs : List Output) : String :=
  String.join (outs.map written)

/-- All texts of outputs, without the ends of lines. -/
def texts (outs : List Output) : String :=
  String.join (outs.map text)

/-- What outputs leave to be seen: everything that they write, without the newline at the very end
if the last one ends its line. -/
def display (outs : List Output) : List Char :=
  if outs.getLast?.any newline then (writing outs).toList.dropLast else (writing outs).toList

/-- The outputs up to the last one that ends a line. -/
def complete (outs : List Output) : List Output :=
  outs.rdropWhile fun o => !o.newline

/-- The outputs behind the last one that ends a line. -/
def unfinished (outs : List Output) : List Output :=
  outs.rtakeWhile fun o => !o.newline

/-- One line is complete, and nothing stands on it. -/
def OneEmptyLine (outs : List Output) : Prop :=
  outs.countP newline = 1 ∧ ∀ o ∈ complete outs, o.text = ""

/-- A line is open, and nothing stands on it. -/
def EmptyOpenLine (outs : List Output) : Prop :=
  unfinished outs ≠ [] ∧ ∀ o ∈ unfinished outs, o.text = ""

theorem join_eq_empty_iff {strings : List String} :
    String.join strings = "" ↔ ∀ s ∈ strings, s = "" := by
  induction strings with
  | nil => simp
  | cons s strings ih => simp [ih]

/-- There is nothing to read if nothing was shown but line ends. -/
theorem texts_eq_empty_iff {outs : List Output} : texts outs = "" ↔ ∀ o ∈ outs, o.text = "" := by
  simp [texts, join_eq_empty_iff]

/-! ## Lines -/

/-- The lines that outputs complete. -/
def completeLines (outs : List Output) : List String :=
  (split "" outs).1

/-- What stands on the line that outputs leave open. -/
def openLine (outs : List Output) : String :=
  (split "" outs).2

/-- The last output completes a line or goes on with it. -/
theorem split_concat (line : String) (outs : List Output) (o : Output) :
    split line (outs ++ [o]) =
      if o.newline then ((split line outs).1 ++ [(split line outs).2 ++ o.text], "")
      else ((split line outs).1, (split line outs).2 ++ o.text) := by
  induction outs generalizing line with
  | nil => simp [split]
  | cons first outs ih =>
    rw [List.cons_append, split, split, ih, ih]
    cases first.newline <;> cases o.newline <;> simp

section Concat

variable {outs : List Output} {o : Output}

theorem completeLines_concat_of_newline (h : o.newline = true) :
    completeLines (outs ++ [o]) = completeLines outs ++ [openLine outs ++ o.text] := by
  simp [completeLines, openLine, split_concat, h]

theorem completeLines_concat_of_open (h : o.newline = false) :
    completeLines (outs ++ [o]) = completeLines outs := by
  simp [completeLines, split_concat, h]

theorem openLine_concat_of_newline (h : o.newline = true) : openLine (outs ++ [o]) = "" := by
  simp [openLine, split_concat, h]

theorem openLine_concat_of_open (h : o.newline = false) :
    openLine (outs ++ [o]) = openLine outs ++ o.text := by
  simp [openLine, split_concat, h]

theorem complete_concat_of_newline (h : o.newline = true) :
    complete (outs ++ [o]) = outs ++ [o] :=
  List.rdropWhile_concat_neg _ _ _ (by simp [h])

theorem complete_concat_of_open (h : o.newline = false) :
    complete (outs ++ [o]) = complete outs :=
  List.rdropWhile_concat_pos _ _ _ (by simp [h])

theorem unfinished_concat_of_newline (h : o.newline = true) : unfinished (outs ++ [o]) = [] :=
  List.rtakeWhile_concat_neg _ _ _ (by simp [h])

theorem unfinished_concat_of_open (h : o.newline = false) :
    unfinished (outs ++ [o]) = unfinished outs ++ [o] :=
  List.rtakeWhile_concat_pos _ _ _ (by simp [h])

end Concat

theorem texts_append (outs outs' : List Output) :
    texts (outs ++ outs') = texts outs ++ texts outs' := by
  simp [texts]

theorem writing_append (outs outs' : List Output) :
    writing (outs ++ outs') = writing outs ++ writing outs' := by
  simp [writing]

theorem texts_complete_append (outs : List Output) :
    texts (complete outs) ++ texts (unfinished outs) = texts outs := by
  rw [← texts_append]
  exact congrArg texts List.rdropWhile_append_rtakeWhile

/-- On the open line stands what was written since the last line was complete. -/
theorem openLine_eq_texts (outs : List Output) : openLine outs = texts (unfinished outs) := by
  induction outs using List.reverseRecOn with
  | nil => rfl
  | append_singleton outs o ih =>
    cases h : o.newline with
    | true => rw [openLine_concat_of_newline h, unfinished_concat_of_newline h]; rfl
    | false =>
      rw [openLine_concat_of_open h, unfinished_concat_of_open h, texts_append, ih]
      simp [texts]

/-- There are as many complete lines as line ends. -/
theorem length_completeLines (outs : List Output) :
    (completeLines outs).length = outs.countP newline := by
  induction outs using List.reverseRecOn with
  | nil => rfl
  | append_singleton outs o ih =>
    cases h : o.newline with
    | true => simp [completeLines_concat_of_newline h, ih, h]
    | false => simp [completeLines_concat_of_open h, ih, h]

/-- The complete lines have all texts of the outputs that make them. -/
theorem join_completeLines (outs : List Output) :
    String.join (completeLines outs) = texts (complete outs) := by
  induction outs using List.reverseRecOn with
  | nil => rfl
  | append_singleton outs o ih =>
    cases h : o.newline with
    | true =>
      rw [completeLines_concat_of_newline h, complete_concat_of_newline h, texts_append,
        ← texts_complete_append outs, ← ih, ← openLine_eq_texts]
      simp [texts, String.append_assoc]
    | false => rw [completeLines_concat_of_open h, complete_concat_of_open h, ih]

/-- **Nothing is lost in lines**: with a newline behind each complete one they are everything that
was written. -/
theorem split_writes (outs : List Output) :
    writing outs = String.join ((completeLines outs).map (· ++ "\n")) ++ openLine outs := by
  induction outs using List.reverseRecOn with
  | nil => rfl
  | append_singleton outs o ih =>
    rw [writing_append, ih]
    cases h : o.newline with
    | true =>
      rw [completeLines_concat_of_newline h, openLine_concat_of_newline h]
      simp [writing, written, h, String.append_assoc]
    | false =>
      rw [completeLines_concat_of_open h, openLine_concat_of_open h]
      simp [writing, written, h, String.append_assoc]

/-- A single complete line is empty if there is one line end and no text before it. -/
theorem completeLines_eq_singleton_iff {outs : List Output} :
    completeLines outs = [""] ↔ OneEmptyLine outs := by
  rw [OneEmptyLine, ← texts_eq_empty_iff, ← join_completeLines, ← length_completeLines]
  constructor
  · intro h
    simp [h]
  · rintro ⟨hlength, hjoin⟩
    obtain ⟨line, hline⟩ := List.length_eq_one_iff.mp hlength
    simpa [hline] using hjoin

/-- A line is open and empty if something was shown after the last line end, but no text. -/
theorem emptyOpenLine_iff {outs : List Output} :
    EmptyOpenLine outs ↔ unfinished outs ≠ [] ∧ openLine outs = "" := by
  rw [EmptyOpenLine, openLine_eq_texts, texts_eq_empty_iff]

/-! ## What is left to be seen -/

/-- Lines with a newline between them. -/
def joined (lines : List String) : String :=
  "\n".intercalate lines

/-- Lines that end are lines with line ends between them, and one more behind. -/
theorem join_lines {lines : List String} (h : lines ≠ []) :
    String.join (lines.map (· ++ "\n")) = joined lines ++ "\n" := by
  induction lines with
  | nil => exact absurd rfl h
  | cons line lines ih =>
    cases lines with
    | nil => simp [joined]
    | cons next lines =>
      have hmore := ih (by simp)
      have hjoined : joined (line :: next :: lines) = line ++ "\n" ++ joined (next :: lines) :=
        String.intercalate_cons_of_ne_nil (by simp)
      rw [List.map_cons, String.join_cons, hmore, hjoined]
      simp only [String.append_assoc]

/-- Nothing but a single empty line is written as nothing. -/
theorem joined_eq_empty_iff {lines : List String} :
    joined lines = "" ↔ lines = [] ∨ lines = [""] := by
  rcases lines with - | ⟨line, - | ⟨next, lines⟩⟩
  · simp [joined]
  · simp [joined]
  · rw [joined, String.intercalate_cons_of_ne_nil (by simp)]
    simp

section Last

variable {outs : List Output}

/-- Where no line is open, the last output ends one. -/
theorem exists_last_of_unfinished (hne : outs ≠ []) (h : unfinished outs = []) :
    ∃ before o, outs = before ++ [o] ∧ o.newline = true := by
  obtain ⟨before, o, rfl⟩ := List.eq_nil_or_concat outs |>.resolve_left hne
  rw [List.concat_eq_append] at h ⊢
  cases ho : o.newline with
  | true => exact ⟨before, o, rfl, ho⟩
  | false =>
    rw [unfinished_concat_of_open ho] at h
    simp at h

/-- Where a line is open, the last output does not end it. -/
theorem getLast?_newline (h : unfinished outs ≠ []) :
    outs.getLast?.any newline = false := by
  rcases List.eq_nil_or_concat outs with rfl | ⟨before, o, rfl⟩
  · rfl
  · rw [List.concat_eq_append] at h ⊢
    cases ho : o.newline with
    | true => exact absurd (unfinished_concat_of_newline ho) h
    | false => simp [ho]

/-- Where the last output ends its line, the complete lines are left. -/
theorem display_of_complete (hne : outs ≠ []) (h : unfinished outs = []) :
    display outs = (joined (completeLines outs)).toList ∧ openLine outs = "" ∧
      completeLines outs ≠ [] := by
  obtain ⟨before, o, rfl, ho⟩ := exists_last_of_unfinished hne h
  have hlines : completeLines (before ++ [o]) ≠ [] := by simp [completeLines_concat_of_newline ho]
  have hopen : openLine (before ++ [o]) = "" := openLine_concat_of_newline ho
  refine ⟨?_, hopen, hlines⟩
  have hlast : (before ++ [o]).getLast?.any newline = true := by simp [ho]
  rw [display, if_pos hlast, split_writes, hopen, join_lines hlines]
  simp

/-- Where a line is open, everything that was written is left. -/
theorem display_of_open (h : unfinished outs ≠ []) :
    display outs =
      (String.join ((completeLines outs).map (· ++ "\n")) ++ openLine outs).toList := by
  rw [display, getLast?_newline h, ← split_writes]
  rfl

end Last

/-! ## What a viewer makes of it -/

/-- The text of complete lines and an open one, as a viewer puts it together. -/
def compose (lines : List String) (last : String) : String :=
  if last.isEmpty then joined lines
  else if (joined lines).isEmpty then last
  else joined lines ++ "\n" ++ last

/-- What is shown in place of an empty text. -/
def placeholder : String := "(no output yet)"

/-- The text, or the placeholder if it is empty. -/
def composed (lines : List String) (last : String) : String :=
  if (compose lines last).isEmpty then placeholder else compose lines last

theorem compose_of_empty (lines : List String) : compose lines "" = joined lines := rfl

section Compose

variable {lines : List String} {last : String}

/-- Without lines, or with a single empty one, what is left is the open line. -/
theorem compose_of_none (h : lines = [] ∨ lines = [""]) : compose lines last = last := by
  by_cases hlast : last = ""
  · rw [hlast, compose_of_empty, joined_eq_empty_iff]
    exact h
  · simp [compose, joined_eq_empty_iff.mpr h, hlast]

/-- Lines stand above the open one. -/
theorem compose_of_some (h : ¬(lines = [] ∨ lines = [""])) (hlast : last ≠ "") :
    compose lines last = joined lines ++ "\n" ++ last := by
  have hjoined : joined lines ≠ "" := fun hempty => h (joined_eq_empty_iff.mp hempty)
  simp [compose, hlast, hjoined]

theorem composed_of_ne (h : compose lines last ≠ "") :
    composed lines last = compose lines last := by
  simp [composed, h]

/-- Nothing is composed if there are no lines but a single empty one, and no open line. -/
theorem compose_eq_empty_iff :
    compose lines last = "" ↔ last = "" ∧ (lines = [] ∨ lines = [""]) := by
  by_cases hlast : last = ""
  · rw [hlast, compose_of_empty, joined_eq_empty_iff]
    simp
  · by_cases h : lines = [] ∨ lines = [""]
    · simp [compose_of_none h, hlast]
    · simp [compose_of_some h hlast, hlast]

/-- In place of nothing there is the placeholder. -/
theorem composed_of_nothing (hlast : last = "") (h : lines = [] ∨ lines = [""]) :
    composed lines last = placeholder := by
  simp [composed, compose_eq_empty_iff.mpr ⟨hlast, h⟩]

/-- Complete lines are shown as they are, unless there is only an empty one. -/
theorem composed_eq_joined_iff (hlines : lines ≠ []) :
    composed lines "" = joined lines ↔ lines ≠ [""] := by
  constructor
  · rintro h rfl
    rw [composed_of_nothing rfl (.inr rfl)] at h
    exact absurd h (by decide)
  · intro hne
    have hsome : compose lines "" ≠ "" := by
      simp [compose_eq_empty_iff, hlines, hne]
    rw [composed_of_ne hsome, compose_of_empty]

/-- A line end makes a difference. -/
theorem ne_append_newline (s : String) : s ≠ s ++ "\n" := by
  intro h
  have hlength := congrArg String.length h
  simp [String.length_append] at hlength

/-- The newline in front of an open line is not shown where nothing stands on the line. -/
theorem composed_ne_of_empty (lines : List String) :
    composed lines "" ≠ String.join (lines.map (· ++ "\n")) := by
  by_cases hnone : lines = [] ∨ lines = [""]
  · rw [composed_of_nothing rfl hnone]
    rcases hnone with rfl | rfl <;> decide
  · obtain ⟨hlines, hne⟩ := not_or.mp hnone
    rw [(composed_eq_joined_iff hlines).mpr hne, join_lines hlines]
    exact ne_append_newline _

/-- An open line is shown behind the complete ones if something stands on it, unless an empty one is
the only complete line. -/
theorem composed_eq_append_iff :
    composed lines last = String.join (lines.map (· ++ "\n")) ++ last ↔
      lines ≠ [""] ∧ last ≠ "" := by
  by_cases hlast : last = ""
  · subst hlast
    simpa using composed_ne_of_empty lines
  have hshown : composed lines last = compose lines last :=
    composed_of_ne fun h => hlast (compose_eq_empty_iff.mp h).1
  rw [hshown]
  by_cases hlines : lines = []
  · rw [compose_of_none (.inl hlines), hlines]
    simp [hlast]
  by_cases hne : lines = [""]
  · rw [compose_of_none (.inr hne), hne]
    simp only [ne_eq, not_true, false_and, iff_false]
    intro h
    have hlength := congrArg String.length h
    simp [String.length_append] at hlength
  · rw [compose_of_some (not_or.mpr ⟨hlines, hne⟩) hlast, join_lines hlines]
    simp [hne, hlast]

/-- A text without newlines has all of what the lines have. -/
theorem compose_of_no_newline (h : '\n' ∉ (compose lines last).toList) :
    compose lines last = String.join lines ++ last := by
  by_cases hnone : lines = [] ∨ lines = [""]
  · rw [compose_of_none hnone]
    rcases hnone with rfl | rfl <;> simp
  have hsingle : '\n' ∉ (joined lines).toList → joined lines = String.join lines := by
    intro hjoined
    rcases lines with - | ⟨line, - | ⟨next, lines⟩⟩
    · rfl
    · simp [joined]
    · rw [joined, String.intercalate_cons_of_ne_nil (by simp)] at hjoined
      simp at hjoined
  by_cases hlast : last = ""
  · rw [hlast, compose_of_empty] at h ⊢
    rw [hsingle h, String.append_empty]
  · rw [compose_of_some hnone hlast] at h
    simp at h

end Compose

/-- **Outputs are shown exactly**, unless an empty line is the only one that is complete, or a line
is open on which nothing stands. -/
theorem composed_eq_display_iff {outs : List Output} (hne : outs ≠ []) :
    (composed (completeLines outs) (openLine outs)).toList = display outs ↔
      ¬OneEmptyLine outs ∧ ¬EmptyOpenLine outs := by
  rw [← completeLines_eq_singleton_iff, emptyOpenLine_iff]
  by_cases hopen : unfinished outs = []
  · obtain ⟨hdisplay, hlast, hlines⟩ := display_of_complete hne hopen
    rw [hdisplay, hlast, String.toList_inj, composed_eq_joined_iff hlines]
    simp [hopen]
  · rw [display_of_open hopen, String.toList_inj, composed_eq_append_iff]
    simp [hopen]

/-- **The placeholder stands for outputs without text**, of which at most one ends a line. -/
theorem composed_eq_placeholder_iff {outs : List Output} (hspelled : texts outs ≠ placeholder) :
    composed (completeLines outs) (openLine outs) = placeholder ↔
      (∀ o ∈ outs, o.text = "") ∧ outs.countP newline ≤ 1 := by
  have htexts : String.join (completeLines outs) ++ openLine outs = texts outs := by
    rw [join_completeLines, openLine_eq_texts, texts_complete_append]
  rw [← texts_eq_empty_iff, ← length_completeLines, ← htexts, String.append_eq_empty_iff]
  constructor
  · intro h
    by_cases hempty : compose (completeLines outs) (openLine outs) = ""
    · obtain ⟨hlast, hlines⟩ := compose_eq_empty_iff.mp hempty
      rcases hlines with hlines | hlines <;> simp [hlines, hlast]
    · -- there is a text, and it is the placeholder: the outputs have spelled it out
      rw [composed_of_ne hempty] at h
      have hspelled' := compose_of_no_newline (h ▸ (by decide : '\n' ∉ placeholder.toList))
      rw [h, htexts] at hspelled'
      exact absurd hspelled'.symm hspelled
  · rintro ⟨⟨hlines, hlast⟩, hlength⟩
    refine composed_of_nothing hlast ?_
    rcases hcomplete : completeLines outs with - | ⟨line, - | ⟨next, lines⟩⟩
    · exact .inl rfl
    · rw [hcomplete] at hlines
      exact .inr (by simpa using hlines)
    · simp [hcomplete] at hlength

end Output

namespace Viewer

open Output

variable {ω : Type} [Window ω]

/-! ## From message to message -/

/-- The outputs since the last start once a message has come, if they were `outs` before. The error
that a run ends with is shown like an output. -/
def received (v : Viewer ω) (outs : List Output) : Message → List Output
  | .event (.output o) => outs ++ [o]
  | .event (.ended (some message)) => outs ++ [errorLine ω message]
  | .key name => if name = "r" ∧ v.running = false then [] else outs
  | _ => outs

/-- `v.Since outs`: since the viewer `v` has started its program last, it has received `outs`. -/
inductive Since : Viewer ω → List Output → Prop where
  | start (path : String) : Since (.start path) []
  | update {v : Viewer ω} {outs : List Output} (h : Since v outs) (m : Message) :
      Since (v.update m).1 (v.received outs m)
  /-- the window is moved in a way that the viewer does not know of -/
  | scroll {v : Viewer ω} {outs : List Output} (h : Since v outs) (window : ω)
      (hlines : Window.lines window = Window.lines v.window) : Since { v with window } outs

/-- The viewer has kept the outputs, and the window has their text; there is nothing to be seen if
there were none. -/
structure Holds (v : Viewer ω) (outs : List Output) : Prop where
  stream : v.stream = outs
  lines : outs ≠ [] → Window.lines v.window = Text.lines v.content.toList
  blank : outs = [] → ∀ line ∈ Window.lines v.window, line = []

variable {v : Viewer ω} {outs : List Output}

omit [Window ω] in
/-- What is in the window depends on the outputs alone. -/
theorem content_eq (v : Viewer ω) :
    v.content = composed (completeLines v.stream) (openLine v.stream) := rfl

/-- Only the outputs and the lines in the window matter. -/
theorem Holds.relook {v' : Viewer ω} (h : v.Holds outs) (hstream : v'.stream = v.stream)
    (hlines : Window.lines v'.window = Window.lines v.window) : v'.Holds outs where
  stream := hstream.trans h.stream
  lines := fun hne => by rw [hlines, content_eq, hstream, ← content_eq, h.lines hne]
  blank := fun hnone => by rw [hlines]; exact h.blank hnone

theorem lines_append (v : Viewer ω) (o : Output) :
    Window.lines (v.append o).window = Text.lines (v.append o).content.toList := by
  rw [content_eq, stream_append, append, Window.lines_toBottom, Window.lines_setContent, content_eq]

/-- An output that comes is held with the others. -/
theorem Holds.append (h : v.Holds outs) (o : Output) : (v.append o).Holds (outs ++ [o]) where
  stream := by rw [stream_append, h.stream]
  lines := fun _ => lines_append v o
  blank := fun hnone => by simp at hnone

/-- The key that starts the program again clears the window, unless the program runs. -/
theorem Holds.press_restart (h : v.Holds outs) :
    (v.press "r").1.Holds (if v.running = false then [] else outs) := by
  cases hrunning : v.running with
  | true =>
    have hsame : (v.press "r").1 = v := by simp [press, hrunning]
    rw [hsame]
    exact h
  | false =>
    have hstream : (v.press "r").1.stream = [] := by simp [press, hrunning]
    have hlines : Window.lines (v.press "r").1.window = [[]] := by
      simp [press, hrunning, Window.lines_setContent, Text.lines, Text.linesFrom]
    exact ⟨hstream, fun hne => absurd rfl hne, by simp [hlines]⟩

/-- Every other key leaves the outputs and the lines as they are. -/
theorem Holds.press_other (h : v.Holds outs) {key : String} (hkey : key ≠ "r") :
    (v.press key).1.Holds outs := by
  unfold Viewer.press
  split
  · split <;> exact h.relook rfl rfl
  · split <;> exact h.relook rfl rfl
  · exact absurd rfl hkey
  · exact h.relook rfl (Window.lines_toTop _)
  · exact h.relook rfl (Window.lines_toTop _)
  · exact h.relook rfl (Window.lines_toBottom _)
  · exact h.relook rfl (Window.lines_toBottom _)
  · exact h

/-- **Every message keeps the outputs and their text together.** -/
theorem Holds.update (h : v.Holds outs) (m : Message) :
    (v.update m).1.Holds (v.received outs m) := by
  cases m with
  | resized width height => exact h.relook rfl (Window.lines_resize ..)
  | started run reports => exact h.relook rfl rfl
  | idle => exact h
  | key name =>
    by_cases hname : name = "r"
    · subst hname
      simpa [Viewer.update, received] using h.press_restart
    · simpa [Viewer.update, received, hname] using h.press_other hname
  | event e =>
    cases e with
    | output o => exact h.append o
    | ended error =>
      cases error with
      | none => exact h.relook rfl rfl
      | some message =>
        have hfailed : { v with
            running := false, run := none, reporter := none, status := .failed }.Holds outs :=
          h.relook rfl rfl
        exact hfailed.append (errorLine ω message)

/-- A viewer holds the outputs since the last time it was emptied. -/
theorem Since.holds (h : v.Since outs) : v.Holds outs := by
  induction h with
  | start path =>
    refine ⟨rfl, fun hne => absurd rfl hne, fun _ => ?_⟩
    simp [Viewer.start, Window.lines_ofSize]
  | update _ m ih => exact ih.update m
  | scroll _ window hlines ih => exact ih.relook rfl hlines

/-- **What the screen shows of the outputs.** Whatever messages have come, a viewer that has
received outputs since it started its program last holds their text in its window. The text is
exactly what they leave to be seen, unless an empty line is the only one that is complete, or a line
is open on which nothing stands. The placeholder is given where the outputs have no text and end at
most one line, and never else, unless they spell it out. Without outputs there is nothing in the
window, not even the placeholder. -/
theorem content_exact_iff (h : v.Since outs) :
    (outs ≠ [] →
      Window.lines v.window = Text.lines v.content.toList ∧
      (v.content.toList = display outs ↔ ¬OneEmptyLine outs ∧ ¬EmptyOpenLine outs) ∧
      (texts outs ≠ placeholder →
        (v.content = placeholder ↔ (∀ o ∈ outs, o.text = "") ∧ outs.countP newline ≤ 1))) ∧
    (outs = [] → ∀ line ∈ Window.lines v.window, line = []) := by
  obtain ⟨rfl, hlines, hblank⟩ := h.holds
  exact ⟨fun hne => ⟨hlines hne, composed_eq_display_iff hne, composed_eq_placeholder_iff⟩, hblank⟩

/-- A viewer that was handed outputs. -/
def handed (outs : List Output) : Viewer Viewport :=
  outs.foldl (fun v o => (v.update (.event (.output o))).1) (.start "program.adv")

/-- A viewer that was handed outputs holds them. -/
theorem since_handed (outs : List Output) : (handed outs).Since outs := by
  induction outs using List.reverseRecOn with
  | nil => exact .start _
  | append_singleton outs o ih =>
    rw [handed, List.foldl_append]
    exact .update ih (.event (.output o))

/-- An empty line between two others is shown. -/
theorem empty_line_between_shown :
    let outs : List Output := [⟨"a", false⟩, ⟨"", true⟩, ⟨"", true⟩, ⟨"b", false⟩]
    (handed outs).Since outs ∧ outs ≠ [] ∧
      (handed outs).content.toList = display outs ∧ display outs = ['a', '\n', '\n', 'b'] := by
  intro outs
  have hne : outs ≠ [] := List.cons_ne_nil _ _
  have hshown := ((content_exact_iff (since_handed outs)).1 hne).2.1
  refine ⟨since_handed outs, hne, hshown.mpr ⟨?_, ?_⟩, ?_⟩
  · simp [outs, OneEmptyLine]
  · simp [outs, EmptyOpenLine, unfinished, List.rtakeWhile]
  · simp [outs, display, writing, written]

/-- An empty line is not shown where there is no other complete one: alone it leaves the
placeholder, and in front of an open line it leaves nothing. A line that is open and empty is not
shown either. -/
theorem empty_lines_not_shown :
    ((handed [⟨"", true⟩]).content = placeholder ∧ display [⟨"", true⟩] = []) ∧
    ((handed [⟨"", true⟩, ⟨"x", false⟩]).content = "x" ∧
      display [⟨"", true⟩, ⟨"x", false⟩] = ['\n', 'x']) ∧
    ((handed [⟨"x", true⟩, ⟨"", false⟩]).content = "x" ∧
      display [⟨"x", true⟩, ⟨"", false⟩] = ['x', '\n']) := by
  simp only [content_eq, (since_handed _).holds.stream]
  refine ⟨⟨?_, ?_⟩, ⟨?_, ?_⟩, ⟨?_, ?_⟩⟩ <;> decide

end Viewer

end Adventure
