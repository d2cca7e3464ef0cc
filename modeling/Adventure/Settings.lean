import Adventure.ProgramFile
import Adventure.Text.Numeral
import Adventure.Text.Quoted

/-!
# Settings

What a run of the program is asked to do. Settings come from the environment, and options on the
command line override them; the first argument after the options is the path of the program file.

An environment value that is empty is as good as unset. Numbers in the environment are decimal,
while those of options may name their base. All environment values that cannot be read are reported
together, before any option is looked at; of the options, the first that is wrong is reported.
-/

namespace Adventure

/-- How a program is run. -/
inductive Mode where
  /-- once, from its start to its end -/
  | plain
  /-- in a viewer that can rerun it -/
  | viewer
  /-- in a session that takes more input -/
  | session
  deriving DecidableEq, Repr

namespace Mode

/-- The name of a mode. -/
def name : Mode → String
  | plain => "plain"
  | viewer => "tui"
  | session => "repl"

/-- The mode of the given name. -/
def ofName? : String → Option Mode
  | "plain" => some plain
  | "tui" => some viewer
  | "repl" => some session
  | _ => none

/-- Every mode is found by its name. -/
@[simp] theorem ofName?_name (m : Mode) : ofName? m.name = some m := by
  cases m <;> rfl

/-- Whether there must be a program file. -/
def needsPath : Mode → Bool
  | session => false
  | _ => true

end Mode

/-- What a run of the program is asked to do. -/
structure Settings where
  mode : Mode
  /-- the seed of the dice; zero stands for any -/
  seed : Int64
  /-- the limit on calls in progress -/
  maxDepth : Int64
  /-- whether complaints are coloured -/
  color : Bool
  /-- whether the stages of a run are logged -/
  verbose : Bool
  /-- whether tokens are listed instead of running the program -/
  tokens : Bool
  /-- the path of the program file; empty if there is none -/
  path : String
  deriving DecidableEq, Repr

/-- How machines are set up. -/
def Settings.setup (s : Settings) : Setup :=
  ⟨s.seed, s.maxDepth.toInt⟩

/-- How something is painted in a colour: not at all, unless colours are asked for. -/
def Settings.painted (s : Settings) (paint : String → String) : String → String :=
  if s.color then paint else id

/-- The things that can be set. -/
inductive Setting where
  | mode | seed | maxDepth | color | verbose | tokens
  deriving DecidableEq, Repr

namespace Setting

/-- All of them, in the order in which they are read. -/
def all : List Setting :=
  [mode, seed, maxDepth, color, verbose, tokens]

/-- The name of the option. -/
def option : Setting → String
  | mode => "mode"
  | seed => "seed"
  | maxDepth => "max-depth"
  | color => "color"
  | verbose => "verbose"
  | tokens => "tokens"

/-- The name of the environment variable. -/
def variableName : Setting → String
  | mode => "DNDLANG_MODE"
  | seed => "DNDLANG_SEED"
  | maxDepth => "DNDLANG_MAX_DEPTH"
  | color => "DNDLANG_COLOR"
  | verbose => "DNDLANG_VERBOSE"
  | tokens => "DNDLANG_TOKENS"

/-- How complaints about environment values name the setting. -/
def fieldName : Setting → String
  | mode => "Mode"
  | seed => "Seed"
  | maxDepth => "MaxDepth"
  | color => "Color"
  | verbose => "Verbose"
  | tokens => "Tokens"

/-- How complaints about environment values name what was to be read. -/
def typeName : Setting → String
  | mode => "string"
  | seed => "int64"
  | maxDepth => "int"
  | color | verbose | tokens => "bool"

/-- Whether the setting is either on or off. -/
def isSwitch : Setting → Bool
  | color | verbose | tokens => true
  | _ => false

/-- The setting whose option has the given name. -/
def ofOption? (name : String) : Option Setting :=
  all.find? (·.option == name)

/-- Every setting is found by its option. -/
@[simp] theorem ofOption?_option (s : Setting) : ofOption? s.option = some s := by
  cases s <;> decide

end Setting

/-- Why the text of a setting cannot be read. -/
inductive Misreading where
  | number (fault : Text.Numeral.Fault)
  /-- neither on nor off -/
  | truth
  deriving DecidableEq, Repr

/-- What there is to report about settings. -/
inductive SettingsError where
  /-- these environment values cannot be read -/
  | environment (faults : List (Setting × String × Misreading))
  /-- an argument looks like an option and has no name -/
  | badOption (argument : String)
  /-- there is no such option -/
  | unknownOption (name : String)
  /-- help is asked for -/
  | help
  /-- an option comes last and lacks its value -/
  | missingValue (name : String)
  /-- the value of an option cannot be read -/
  | badValue (setting : Setting) (value : String) (why : Misreading)
  /-- there must be a program file -/
  | pathRequired
  /-- there is no such mode -/
  | unknownMode (name : String)
  deriving DecidableEq, Repr

namespace Misreading

/-- Why an environment value is refused. -/
def inEnvironment (value : String) : Misreading → String
  | number fault => Text.Numeral.refusal "ParseInt" value fault
  | truth => Text.Numeral.refusal "ParseBool" value .malformed

/-- Why the value of an option is refused. -/
def inOption : Misreading → String
  | number .outOfRange => Text.Numeral.Fault.outOfRange.message
  | number .malformed | truth => "parse error"

end Misreading

namespace SettingsError

/-- The complaint about one environment value. -/
def environmentFault (fault : Setting × String × Misreading) : String :=
  let (setting, value, why) := fault
  "parse error on field \"" ++ setting.fieldName ++ "\" of type \"" ++ setting.typeName ++ "\": " ++
    why.inEnvironment value

/-- The whole message. -/
def message : SettingsError → String
  | environment faults => "parse env: env: " ++ "; ".intercalate (faults.map environmentFault)
  | badOption argument => "bad flag syntax: " ++ argument
  | unknownOption name => "flag provided but not defined: -" ++ name
  | help => "flag: help requested"
  | missingValue name => "flag needs an argument: -" ++ name
  | badValue setting value why =>
    if setting.isSwitch then
      "invalid boolean value " ++ Text.quoted value ++ " for -" ++ setting.option ++ ": " ++
        why.inOption
    else
      "invalid value " ++ Text.quoted value ++ " for flag -" ++ setting.option ++ ": " ++
        why.inOption
  | pathRequired => "program path is required"
  | unknownMode name => "unknown mode " ++ Text.quoted name

end SettingsError

namespace Settings

/-- Settings while they are being collected. The mode is a name that may mean nothing. -/
structure Draft where
  mode : String
  seed : Int64
  maxDepth : Int64
  color : Bool
  verbose : Bool
  tokens : Bool
  deriving DecidableEq, Repr

/-- What holds unless something else is said. -/
def Draft.standard : Draft :=
  ⟨"plain", 0, Int64.ofNat defaultMaxDepth, true, false, false⟩

/-- Whether a text says that a switch is on or off. -/
def truth? (text : String) : Option Bool :=
  if text ∈ ["1", "t", "T", "TRUE", "true", "True"] then some true
  else if text ∈ ["0", "f", "F", "FALSE", "false", "False"] then some false
  else none

/-- The draft with one setting taken from a text, in which `number` reads numbers. -/
def Draft.read (number : String → Except Text.Numeral.Fault Int64) (d : Draft) (s : Setting)
    (text : String) : Except Misreading Draft :=
  let numeral (put : Int64 → Draft) : Except Misreading Draft :=
    match number text with
    | .ok n => .ok (put n)
    | .error f => .error (.number f)
  let switch (put : Bool → Draft) : Except Misreading Draft :=
    match truth? text with
    | some b => .ok (put b)
    | none => .error .truth
  match s with
  | .mode => .ok { d with mode := text }
  | .seed => numeral fun seed => { d with seed }
  | .maxDepth => numeral fun maxDepth => { d with maxDepth }
  | .color => switch fun color => { d with color }
  | .verbose => switch fun verbose => { d with verbose }
  | .tokens => switch fun tokens => { d with tokens }

/-- How many bits a number in the environment may have. -/
def environmentBits : Setting → Nat
  | .maxDepth => 32
  | _ => 64

/-- Takes over the environment values of some settings, and collects those that cannot be read. -/
def Draft.readEnvironment (value : String → String) (d : Draft) :
    List Setting → Draft × List (Setting × String × Misreading)
  | [] => (d, [])
  | s :: more =>
    let text := value s.variableName
    if text.isEmpty then d.readEnvironment value more
    else
      match d.read (Text.Numeral.decimalWithin (environmentBits s)) s text with
      | .ok d => d.readEnvironment value more
      | .error why =>
        let (d, faults) := d.readEnvironment value more
        (d, (s, text, why) :: faults)

/-- An argument, as far as options go. -/
inductive Argument where
  /-- no option -/
  | operand
  /-- the mark that no option follows -/
  | stop
  /-- an option without a name -/
  | nameless
  /-- an option, with the value that stands in the same argument -/
  | option (name : String) (value : Option String)
  deriving DecidableEq, Repr

/-- The name before the first equals sign, and what follows the sign. -/
def splitValue (cs : List Char) : String × Option String :=
  match cs.dropWhile (· != '=') with
  | [] => (.ofList cs, none)
  | _ :: value => (.ofList (cs.takeWhile (· != '=')), some (.ofList value))

/-- An option after its dashes. -/
def Argument.ofNamed : List Char → Argument
  | [] | '-' :: _ | '=' :: _ => .nameless
  | cs => let (name, value) := splitValue cs; .option name value

/-- Takes an argument apart. Options begin with one dash or two. -/
def Argument.ofString (s : String) : Argument :=
  match s.toList with
  | ['-', '-'] => .stop
  | '-' :: '-' :: cs => .ofNamed cs
  | '-' :: c :: cs => .ofNamed (c :: cs)
  | _ => .operand

/-- Sets one option. -/
def Draft.set (d : Draft) (s : Setting) (value : String) : Except SettingsError Draft :=
  match d.read Text.Numeral.prefixed s value with
  | .ok d => .ok d
  | .error why => .error (.badValue s value why)

/-- Takes over the options at the front of the arguments, and gives what follows them. A switch
takes a value only from its own argument; other options also take the next argument. -/
def Draft.readOptions (d : Draft) : List String → Except SettingsError (Draft × List String)
  | [] => .ok (d, [])
  | a :: more =>
    match Argument.ofString a with
    | .operand => .ok (d, a :: more)
    | .stop => .ok (d, more)
    | .nameless => .error (.badOption a)
    | .option name value =>
      match Setting.ofOption? name with
      | none => .error (if name = "help" ∨ name = "h" then .help else .unknownOption name)
      | some s =>
        match value, s.isSwitch, more with
        | some value, _, more => do (← d.set s value).readOptions more
        | none, true, more => do (← d.set s "true").readOptions more
        | none, false, value :: more => do (← d.set s value).readOptions more
        | none, false, [] => .error (.missingValue name)

/-- Checks that there is such a mode, and a path if one is needed. -/
def Draft.settle (d : Draft) (path : String) : Except SettingsError Settings :=
  match Mode.ofName? d.mode with
  | none => .error (.unknownMode d.mode)
  | some mode =>
    if path.isEmpty && (mode.needsPath || d.tokens) then .error .pathRequired
    else .ok ⟨mode, d.seed, d.maxDepth, d.color, d.verbose, d.tokens, path⟩

/-- The settings that an environment and the arguments ask for. An environment gives the empty text
for what is not set. -/
def ofArguments (environment : String → String) (arguments : List String) :
    Except SettingsError Settings :=
  match Draft.standard.readEnvironment environment Setting.all with
  | (d, []) => do
    let (d, operands) ← d.readOptions arguments
    d.settle (operands.headD "")
  | (_, faults) => .error (.environment faults)

end Settings

end Adventure
