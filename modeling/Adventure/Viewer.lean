import Adventure.ProgramFile
import Adventure.Settings
import Adventure.Viewer.Window

/-!
# Viewers

A viewer runs a program and shows what comes of it in a window with a status line below. It is
driven by messages: the program reports its outputs and its end, and the user resizes the screen and
presses keys. A message changes the viewer and may ask for something to be done: to start the
program, to wait for its next report, to ask it to stop, or to leave.

The program itself runs beside the viewer, in a `Desk` that carries out what the viewer asks for.
-/

namespace Adventure

namespace Viewer

/-- What is known about the program. -/
inductive Status where
  | starting | running | interrupting | restarting | done | failed
  deriving DecidableEq, Repr

/-- The status in words. -/
def Status.label : Status → String
  | starting => "starting"
  | running => "running"
  | interrupting => "interrupting"
  | restarting => "restarting"
  | done => "done"
  | failed => "failed"

/-- What a program reports. -/
inductive Event where
  /-- it has shown something -/
  | output (o : Output)
  /-- it has ended, with an error or without one -/
  | ended (error : Option String)
  deriving DecidableEq, Repr

/-- What happens to a viewer. -/
inductive Message where
  /-- the screen has another size -/
  | resized (width height : Int)
  /-- a run has started; it may or may not be going to report -/
  | started (run : Nat) (reports : Bool)
  /-- a run reports -/
  | event (e : Event)
  /-- nothing was reported for a while -/
  | idle
  /-- a key was pressed -/
  | key (name : String)
  deriving DecidableEq, Repr

/-- What a viewer asks for. -/
inductive Request where
  /-- to start the program -/
  | start
  /-- to wait for the next report of a run -/
  | await (run : Nat)
  /-- to ask a run to stop -/
  | interrupt (run : Nat)
  /-- to leave -/
  | quit
  deriving DecidableEq, Repr

end Viewer

open Viewer

/-- A viewer with a window of the kind `ω`. -/
structure Viewer (ω : Type) where
  /-- the path of the program file -/
  path : String
  window : ω
  /-- whether the size of the screen is known -/
  ready : Bool
  /-- the width of the screen -/
  width : Int
  /-- the height of the screen -/
  height : Int
  status : Status
  running : Bool
  /-- the run that can be asked to stop -/
  run : Option Nat
  /-- the run whose reports are waited for -/
  reporter : Option Nat
  /-- everything that was shown -/
  stream : List Output
  deriving DecidableEq, Repr

/-- The lines that outputs make after the beginning of a line, and the line that is left open. -/
def Output.split (line : String) : List Output → List String × String
  | [] => ([], line)
  | o :: more =>
    if o.newline then
      let (lines, last) := Output.split "" more
      ((line ++ o.text) :: lines, last)
    else Output.split (line ++ o.text) more

namespace Viewer

variable {ω : Type}

/-- The complete lines that were shown. -/
def history (v : Viewer ω) : List String :=
  (Output.split "" v.stream).1

/-- The line that was shown last if it is not complete. -/
def tail (v : Viewer ω) : String :=
  (Output.split "" v.stream).2

/-- What the window shows: the complete lines, then the incomplete one. -/
def content (v : Viewer ω) : String :=
  let whole := "\n".intercalate v.history
  let text :=
    if v.tail.isEmpty then whole
    else if whole.isEmpty then v.tail
    else whole ++ "\n" ++ v.tail
  if text.isEmpty then "(no output yet)" else text

/-- What there is to ask for while reports are waited for. -/
def awaiting (v : Viewer ω) : Option Request :=
  v.reporter.map .await

/-- The status line. -/
def statusLine (v : Viewer ω) : String :=
  " " ++ v.path ++ ": " ++ v.status.label ++ "  [q] quit  [r] rerun  [g/G] scroll "

variable [Window ω]

/-- The viewer of a program that has not been started. -/
def start (path : String) : Viewer ω :=
  ⟨path, Window.ofSize 80 20, false, 0, 0, .starting, false, none, none, []⟩

/-- The viewer after something was shown, at the end of the content. -/
def append (v : Viewer ω) (o : Output) : Viewer ω :=
  let v := { v with stream := v.stream ++ [o] }
  { v with window := Window.toBottom (Window.setContent v.window v.content) }

/-- What a key does. -/
def press (v : Viewer ω) (key : String) : Viewer ω × Option Request :=
  match key with
  | "ctrl+c" | "q" =>
    match v.running, v.run with
    | true, some run => ({ v with status := .interrupting }, some (.interrupt run))
    | _, _ => (v, some .quit)
  | "r" =>
    if v.running then (v, none)
    else
      ({ v with stream := [], window := Window.setContent v.window "", status := .restarting },
        some .start)
  | "g" | "home" => ({ v with window := Window.toTop v.window }, none)
  | "G" | "end" => ({ v with window := Window.toBottom v.window }, none)
  | _ => (v, none)

/-- What a message does. -/
def update (v : Viewer ω) : Message → Viewer ω × Option Request
  | .resized width height =>
    ({ v with
      width, height, ready := true,
      window := Window.resize v.window width (max 1 (height - 1)).toNat },
      none)
  | .started run reports =>
    let v := { v with
      run := some run, reporter := if reports then some run else none, running := true,
      status := .running }
    (v, v.awaiting)
  | .event (.output o) =>
    let v := v.append o
    (v, v.awaiting)
  | .idle => (v, if v.running then v.awaiting else none)
  | .event (.ended error) =>
    let v := { v with running := false, run := none, reporter := none }
    match error with
    | none => ({ v with status := .done }, none)
    | some message =>
      ({ v with status := .failed }.append ⟨Window.styled ω message, true⟩, none)
  | .key name => v.press name

/-- What is on the screen. -/
def view (v : Viewer ω) : String :=
  if v.ready then Window.view v.window ++ "\n" ++ v.statusLine else "initializing..."

end Viewer

/-- The machine of a program file, set up as the settings say. -/
def Settings.machine (s : Settings) (fresh : Generator) (file : ProgramFile) :
    Except ProgramError Machine :=
  match Machine.ofFile file fresh with
  | .error e => .error e
  | .ok m => .ok (m.setUp s.setup)

/-- A viewer, and beside it the runs that it has started. -/
structure Desk (ω : Type) where
  viewer : Viewer ω
  settings : Settings
  /-- the program file as it is found whenever the program is started -/
  file : ProgramFile
  /-- where dice come from that are not seeded -/
  fresh : Generator
  /-- the machines of the runs, by their numbers -/
  machines : List Machine
  /-- the run that was attached last -/
  attached : Option Nat
  /-- whether the viewer was left -/
  left : Bool

namespace Desk

variable {ω : Type}

/-- The machine of a new run. -/
def compile (d : Desk ω) : Except ProgramError Machine :=
  d.settings.machine d.fresh d.file

/-- What a run reports from its beginning to its end, and the machine that it leaves. -/
def reports (steps : Nat) (m : Machine) : Option (List Event × Machine) :=
  match m.run steps with
  | .done _ m => some (m.outputs.map .output ++ [.ended none], m)
  | .failed e m => some (m.outputs.map .output ++ [.ended (some e.message)], m)
  | .unfinished => none

/-- Carries out the run that was attached last. There is no result if nothing was attached, or if
the run does not end within `steps`. -/
def carryOut (steps : Nat) (d : Desk ω) : Option (Desk ω × Outcome Machine Unit) :=
  match d.attached with
  | none => none
  | some run =>
    match d.machines[run]? with
    | none => none
    | some m =>
      match m.run steps with
      | .unfinished => none
      | .done u m => some ({ d with machines := d.machines.set run m }, .done u m)
      | .failed e m => some ({ d with machines := d.machines.set run m }, .failed e m)

variable [Window ω]

/-- The desk before the program is started. -/
def start (fresh : Generator) (settings : Settings) (file : ProgramFile) : Desk ω :=
  ⟨.start settings.path, settings, file, fresh, [], none, false⟩

/-- Hands reports to a viewer for as long as it waits for them. -/
def report (v : Viewer ω) : List Event → Viewer ω
  | [] => v
  | e :: more =>
    match v.update (.event e) with
    | (v, some (.await _)) => report v more
    | (v, _) => v

/-- Starts the program and hands the viewer all its reports. -/
def launch (steps : Nat) (d : Desk ω) : Option (Desk ω) :=
  match d.compile with
  | .error e => some { d with viewer := (d.viewer.update (.event (.ended (some e.message)))).1 }
  | .ok m =>
    match reports steps m with
    | none => none
    | some (events, m) =>
      let started := (d.viewer.update (.started d.machines.length true)).1
      some { d with viewer := report started events, machines := d.machines ++ [m] }

/-- Carries out what the viewer asks for. A run that is waited for has reported all already. -/
def fulfil (steps : Nat) (d : Desk ω) : Option Request → Option (Desk ω)
  | none => some d
  | some .start => d.launch steps
  | some (.await _) => some d
  | some (.interrupt run) => some { d with machines := d.machines.modify run Machine.interrupt }
  | some .quit => some { d with left := true }

/-- Hands a message to the viewer and carries out what it asks for. -/
def deliver (steps : Nat) (d : Desk ω) (message : Message) : Option (Desk ω) :=
  let (viewer, request) := d.viewer.update message
  fulfil steps { d with viewer } request

/-- Lets the viewer begin. -/
def begin (steps : Nat) (d : Desk ω) : Option (Desk ω) :=
  d.fulfil steps (some .start)

/-- Starts a run that reports nothing and waits to be carried out. -/
def attach (d : Desk ω) : Except ProgramError (Desk ω) :=
  match d.compile with
  | .error e => .error e
  | .ok m =>
    .ok { d with
      viewer := (d.viewer.update (.started d.machines.length false)).1
      machines := d.machines ++ [m]
      attached := some d.machines.length }

end Desk

end Adventure
