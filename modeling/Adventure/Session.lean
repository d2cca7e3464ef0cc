import Adventure.Interpreter
import Adventure.Session.History
import Adventure.Settings

/-!
# Sessions

A session keeps a machine and hands it what is typed, piece by piece. A piece that starts with a
colon is a command to the session itself; any other piece is a program that the machine carries out
after those before it. A complaint about one piece does not end the session.

In a conversation pieces come as lines. Lines are collected as long as they are the beginning of a
program that is not complete yet.
-/

namespace Adventure

/-- A session in progress. -/
structure Session where
  machine : Machine
  /-- how complaints are painted -/
  paint : String → String

/-- What a session has to say to a piece of input. -/
structure Reply where
  /-- what was shown -/
  shown : String
  /-- what was complained about -/
  complaints : String
  deriving DecidableEq, Repr

/-- One reply after another. -/
def Reply.followedBy (r next : Reply) : Reply :=
  ⟨r.shown ++ next.shown, r.complaints ++ next.complaints⟩

/-- What a piece of input asks for. -/
inductive Input where
  /-- nothing -/
  | nothing
  /-- the end of the session -/
  | quit
  /-- a list of the templates -/
  | templates
  /-- a list of the variables -/
  | vars
  /-- something that starts with a colon and is no command -/
  | unknown
  /-- a program -/
  | code (text : List Char)
  deriving DecidableEq, Repr

namespace Input

/-- The small form of a letter, for all letters whose small form is an ASCII letter. -/
def smallLetter (c : Char) : Char :=
  if c = '\u0130' then 'i' else if c = '\u212a' then 'k' else c.toLower

/-- The command of the given name. -/
def ofCommand : String → Input
  | "quit" | "q" => quit
  | "templates" => templates
  | "vars" => vars
  | _ => unknown

/-- What a piece of input asks for. Blanks around it do not count, nor does the case of a
command. -/
def ofString (typed : String) : Input :=
  match Text.trimmed typed.toList with
  | [] => nothing
  | ':' :: name => ofCommand (.ofList (name.map smallLetter))
  | cs => code cs

/-- Whether more lines have to follow: what was typed is a proper beginning of a program. -/
def isOpen (typed : String) : Bool :=
  match Text.trimmed typed.toList with
  | ':' :: _ => false
  | _ =>
    match (Source.ofChars typed.toList none).parse with
    | .error e => e.isIncomplete
    | .ok _ => false

end Input

/-- A template as a list of templates shows it. -/
def Template.listingLine : Template → String
  | .item i => "item " ++ i.name ++ "\n"
  | .character c => "character " ++ c.name ++ "\n"
  | .foreign name => name ++ "\n"

/-- The variables of a scope, in the order of their names, one on a line. -/
def Scope.listing (s : Scope) : String :=
  String.join (s.names.map fun name =>
    name ++ " = " ++ ((s.get? name).getD .nothing).format ++ "\n")

namespace Session

/-- What there is to say to something that is no command. -/
def unknownCommand : String :=
  "unknown command. Commands: :templates, :vars, :quit\n"

/-- A complaint on a line of its own. -/
def complaint (s : Session) (message : String) : String :=
  s.paint message ++ "\n"

/-- Goes on with the machine that a run has left. -/
def resume (s : Session) : Outcome Machine Unit → Option (Session × Reply)
  | .done _ m => some ({ s with machine := m }, ⟨String.join (m.outputs.map Output.written), ""⟩)
  | .failed e m =>
    some ({ s with machine := m },
      ⟨String.join (m.outputs.map Output.written), s.complaint e.message⟩)
  | .unfinished => none

/-- Starts a session, in which complaints are painted if the settings ask for colours. If there is a
program file, its program is run first; if the program cannot be loaded there is no session. There
is no result at all if the run does not end within `steps`. -/
def start (paint : String → String) (steps : Nat) (fresh : Generator) (settings : Settings) :
    Option ProgramFile → Option (Except ProgramError (Session × Reply))
  | none =>
    match Machine.ofProgram .empty fresh with
    | .error e => some (.error (.runtime e))
    | .ok m => some (.ok (⟨m.setUp settings.setup, settings.painted paint⟩, ⟨"", ""⟩))
  | some file =>
    match Machine.ofFile file fresh with
    | .error e => some (.error e)
    | .ok m =>
      let m := m.setUp settings.setup
      (resume ⟨m, settings.painted paint⟩ (m.run steps)).map .ok

/-- Answers a piece of input, and says whether the session ends with it. -/
def handle (steps : Nat) (s : Session) (typed : String) : Option (Session × Reply × Bool) :=
  match Input.ofString typed with
  | .nothing => some (s, ⟨"", ""⟩, false)
  | .quit => some (s, ⟨"", ""⟩, true)
  | .templates =>
    some (s, ⟨String.join (s.machine.templates.map Template.listingLine), ""⟩, false)
  | .vars => some (s, ⟨s.machine.scope.listing, ""⟩, false)
  | .unknown => some (s, ⟨unknownCommand, ""⟩, false)
  | .code cs =>
    match (Source.ofChars cs none).parse with
    | .error e => some (s, ⟨"", s.complaint e.message⟩, false)
    | .ok p => (s.resume (s.machine.evaluate steps p)).map fun (s, reply) => (s, reply, false)

end Session

/-- A session that is typed to line by line. -/
structure Conversation where
  session : Session
  history : History
  /-- the lines of a piece of input that is not complete -/
  collected : Option String

namespace Conversation

/-- The beginning of a conversation. -/
def start (s : Session) (h : History) : Conversation :=
  ⟨s, h, none⟩

/-- What is shown before a line is typed. -/
def prompt (c : Conversation) : String :=
  if c.collected.isNone then "adv> " else "...> "

/-- Takes a line, and says whether the conversation ends with it. -/
def hear (steps : Nat) (c : Conversation) (line : String) :
    Option (Conversation × Reply × Bool) :=
  let typed := match c.collected with | some before => before ++ "\n" ++ line | none => line
  if Input.isOpen typed then some ({ c with collected := some typed }, ⟨"", ""⟩, false)
  else
    let history := if Input.ofString typed = .nothing then c.history else c.history.note typed
    (c.session.handle steps typed).map fun (s, reply, ends) => (⟨s, history, none⟩, reply, ends)

/-- Takes lines until the conversation ends or there are no more, which drops what was collected.
Gives everything that was said, prompts included, and the history. -/
def hearAll (steps : Nat) (c : Conversation) : List String → Option (Reply × History)
  | [] => some (⟨c.prompt ++ "\n", ""⟩, c.history)
  | line :: more =>
    match c.hear steps line with
    | none => none
    | some (next, reply, true) =>
      some ({ reply with shown := c.prompt ++ reply.shown }, next.history)
    | some (next, reply, false) =>
      (next.hearAll steps more).map fun (rest, history) =>
        (Reply.followedBy ⟨c.prompt ++ reply.shown, reply.complaints⟩ rest, history)

end Conversation

end Adventure
