import Adventure.Batch
import Adventure.Session
import Adventure.Text.Colored
import Adventure.Text.Utf8
import Adventure.Token.Listing
import Adventure.Viewer
import Adventure.Viewer.Viewport

/-!
# The command line

Reads the settings and the program file, and hands them to a batch run, a session, a viewer or a
token listing. Everything that is decided is decided there; here it is read and written.
-/

namespace Adventure.CommandLine

/-- How many steps a run may take: more than can be taken. -/
def patience : Nat := Nat.pow 2 62

/-- What the system says about a file that does not open. -/
def reasonOf : IO.Error → String
  | .noFileOrDirectory .. => "no such file or directory"
  | .permissionDenied .. => "permission denied"
  | e => toString e

/-- The file at a path as it is found. -/
def openProgram (path : String) : IO ProgramFile := do
  try
    let bytes ← IO.FS.readBinFile path
    return .ok (.ofChars (Text.decodeUtf8 bytes.toList) none)
  catch e => return .error ⟨path, reasonOf e⟩

/-- Dice that nobody can foresee. -/
def freshDice : IO Generator := do
  let bytes ← IO.getRandomBytes 8
  return .ofSeed (Int64.ofNat (bytes.toList.foldr (fun b n => n * 256 + b.toNat) 0))

/-- The environment values of all settings. -/
def environment : IO (String → String) := do
  let values ← Setting.all.mapM fun s => do
    return (s.variableName, (← IO.getEnv s.variableName).getD "")
  return fun name => (values.lookup name).getD ""

/-- Complains and gives the exit code of a failure. -/
def fail (message : String) : IO UInt32 := do
  IO.eprintln s!"Error: {message}"
  return 1

/-- Lists the tokens of the program. -/
def listTokens (s : Settings) : IO UInt32 := do
  let (listing, error) := ProgramFile.listing (← openProgram s.path)
  IO.print listing
  match error with
  | none => return 0
  | some (.unopened e) => fail e.message
  | some (.lexical e) => fail e.message

/-- Runs the program once. -/
def runBatch (s : Settings) : IO UInt32 := do
  match Batch.run Text.boldRed patience (← freshDice) s false (← openProgram s.path) with
  | none => return 1
  | some (.error e) => fail e.message
  | some (.ok b) =>
    IO.print b.shown
    IO.eprint b.remarks
    return if b.ok then 0 else 1

/-- Writes a reply. -/
def say (r : Reply) : IO Unit := do
  IO.print r.shown
  IO.eprint r.complaints

/-- A line without its end. -/
def bare (line : String) : String :=
  (Text.streamLines line).headD ""

/-- What is handed out next: one of the `pending` lines, or what is typed. -/
def nextLines (pending : List String) : IO (List String) := do
  if pending.isEmpty then
    return Text.streamLines (← (← IO.getStdin).getLine)
  return pending

/-- Takes lines until the conversation ends or there are no more. -/
partial def converse (c : Conversation) (pending : List String) : IO Conversation := do
  IO.print c.prompt
  (← IO.getStdout).flush
  match ← nextLines pending with
  | [] =>
    IO.println ""
    return c
  | line :: pending =>
    match c.hear patience line with
    | none => return c
    | some (c, reply, ends) =>
      say reply
      if ends then return c else converse c pending

/-- The path of the history. -/
def historyPath : IO String := do
  return (← IO.getEnv "HOME").getD "" ++ "/.dndlang_history"

/-- The history at a path; empty if there is none. -/
def readHistory (path : String) : IO History := do
  try return .ofText (← IO.FS.readFile path) catch _ => return .empty

/-- Writes the history to a path, if that is possible. -/
def writeHistory (path : String) (h : History) : IO Unit := do
  try IO.FS.writeFile path h.text catch _ => return

/-- Holds a session. -/
def runSession (s : Settings) : IO UInt32 := do
  let file ← if s.path.isEmpty then pure none else some <$> openProgram s.path
  match Session.start Text.red patience (← freshDice) s file with
  | none => return 1
  | some (.error e) => fail e.message
  | some (.ok (session, reply)) =>
    say reply
    let path ← historyPath
    let c ← converse (.start session (← readHistory path)) []
    writeHistory path c.history
    return 0

/-- Shows a viewer and takes keys, one on a line, until it is left. -/
partial def watch (d : Desk Viewport) : IO Unit := do
  IO.println d.viewer.view
  let line ← (← IO.getStdin).getLine
  if line.isEmpty then return
  match d.deliver patience (.key (bare line)) with
  | none => return
  | some d => if d.left then return else watch d

/-- Runs the program in a viewer. -/
def runViewer (s : Settings) : IO UInt32 := do
  let desk : Desk Viewport := .start (← freshDice) s (← openProgram s.path)
  match (desk.deliver patience (.resized 80 24)).bind (·.begin patience) with
  | none => return 1
  | some d => watch d; return 0

end Adventure.CommandLine

open Adventure Adventure.CommandLine in
/-- Does what the environment and the arguments ask for. -/
def main (arguments : List String) : IO UInt32 := do
  match Settings.ofArguments (← environment) arguments with
  | .error e => fail e.message
  | .ok s =>
    if s.tokens then listTokens s
    else match s.mode with
      | .plain => runBatch s
      | .session => runSession s
      | .viewer => runViewer s
