/-!
# The shape of programs

A program declares templates for items and characters, defines functions, and gives a list of
instructions. These types hold every program that can be read from source text and more: programs
that other tools put together may have expressions with holes, operators that the language does
not know, or nodes of a foreign kind. Such programs can be shown, and running them fails in a
defined way.
-/

namespace Adventure

/-- An operator between two numbers. -/
inductive ArithOp where
  | add | sub | mul | div
  /-- an operator outside the language, which is computed as a product -/
  | other (code : Int)
  deriving DecidableEq, Repr

/-- A comparison of two values. -/
inductive CompareOp where
  | less | greater | lessEqual | greaterEqual | equal
  /-- a comparison outside the language, which is decided as `greaterEqual` -/
  | other (code : Int)
  deriving DecidableEq, Repr

/-- How a character's attribute grows. -/
inductive Increase where
  | none | add | multiply
  /-- a growth rule outside the language -/
  | other (code : Int)
  deriving DecidableEq, Repr

/-- Some dice of the same number of faces. -/
structure Dice where
  /-- how many dice there are -/
  count : Int64
  /-- how many faces each has -/
  faces : Int64
  deriving DecidableEq, Repr

/-- An expression. -/
inductive Expr where
  /-- a number -/
  | number (value : Int64)
  /-- a text -/
  | text (value : String)
  /-- dice, not rolled -/
  | dice (value : Dice)
  /-- the value of a variable -/
  | var (name : String)
  /-- the value that a function gives for some arguments -/
  | call (function : String) (arguments : List Expr)
  /-- a roll of dice -/
  | roll (operand : Expr)
  /-- operands joined by operators, computed from left to right; the operator at place `i` stands
  between the operands at places `i` and `i + 1` -/
  | chain (operands : List Expr) (operators : List ArithOp)
  /-- an expression that is not there -/
  | hole
  /-- a node of a foreign kind, known only by a label -/
  | foreign (label : String)
  deriving Repr

instance : Inhabited Expr := ⟨.hole⟩

/-- A comparison that decides between two ways to go on. -/
structure Condition where
  left : Expr
  op : CompareOp
  right : Expr
  deriving Repr

/-- An instruction, with the line that it starts on. The blocks of loops and branches may be
absent, which is not the same as empty where a program is shown. -/
inductive Statement where
  /-- declares a variable; the type is for the reader alone -/
  | declare (line : Int) (type : String) (name : String)
  /-- gives a variable a value -/
  | assign (line : Int) (target : String) (value : Expr)
  /-- lets one character attack another -/
  | attack (line : Int) (attacker defender : String)
  /-- runs the body while the condition holds -/
  | loop (line : Int) (condition : Condition) (body : Option (List Statement))
  /-- runs the body if the condition holds, and else the alternative -/
  | branch (line : Int) (condition : Condition) (body alternative : Option (List Statement))
  /-- shows a value -/
  | log (line : Int) (value : Expr)
  /-- ends the function with a value -/
  | give (line : Int) (value : Expr)
  /-- calls a function for its effects -/
  | call (line : Int) (function : String) (arguments : List Expr)
  /-- a node of a foreign kind, known only by a label -/
  | foreign (line : Int) (label : String)
  deriving Repr

instance : Inhabited Statement := ⟨.foreign 0 ""⟩

/-- The statements of a function, a loop or a branch, or none if there is no block. -/
abbrev Block : Type := Option (List Statement)

/-- The line that a statement starts on. -/
def Statement.line : Statement → Int
  | declare line .. | assign line .. | attack line .. | loop line .. | branch line ..
  | log line .. | give line .. | call line .. | foreign line .. => line

/-- The number of statements in a block. -/
def Block.size (b : Block) : Nat :=
  (b.getD []).length

/-- A function that a program defines. -/
structure Function where
  line : Int
  name : String
  parameters : List String
  body : Block
  deriving Repr

/-- An attribute of a character: where it starts and how it grows. -/
structure Attribute where
  /-- the value at the start -/
  base : Int64
  /-- how the attribute grows -/
  increase : Increase
  /-- by how much it grows; a hole if it does not -/
  amount : Expr
  deriving Repr

/-- Some items of one name. -/
structure Stack where
  name : String
  quantity : Int64
  deriving DecidableEq, Repr

/-- A template for items. -/
structure Item where
  line : Int
  name : String
  desc : Option String
  value : Option Int64
  health : Option Int64
  attack : Option Int64
  defence : Option Int64
  deriving DecidableEq, Repr

/-- A template for characters. -/
structure Character where
  line : Int
  name : String
  level : Option Attribute
  reqexp : Option Attribute
  exp : Option Attribute
  health : Option Attribute
  attack : Option Attribute
  defence : Option Attribute
  equipped : List Stack
  inventory : List Stack
  reward : List Stack
  deriving Repr

/-- A template, which programs register under its name. -/
inductive Template where
  | item (item : Item)
  | character (character : Character)
  /-- a template of a foreign kind, known only by its name -/
  | foreign (name : String)
  deriving Repr

namespace Template

/-- The name that a template is registered under. -/
def name : Template → String
  | item i => i.name
  | character c => c.name
  | foreign n => n

/-- The line that a template starts on; zero if it is not known. -/
def line : Template → Int
  | item i => i.line
  | character c => c.line
  | foreign _ => 0

end Template

/-- A program. -/
structure Program where
  templates : List Template
  functions : List Function
  instructions : List Statement
  deriving Repr

namespace Program

/-- The program that does nothing. -/
def empty : Program := ⟨[], [], []⟩

end Program

end Adventure
