import Adventure.Syntax
import Adventure.Text.Quoted

/-!
# Programs as text

Expressions are shown as they could be written, with every chain of operators in parentheses.
Statements are shown by their head, in one line, with the sizes of their blocks. A whole program is
shown as a list of lines: instructions, functions, templates, each indented by its nesting.

`Program.lines` is that list. A `Writer` takes lines as long as it has room for them.
-/

namespace Adventure

open Text

/-! ## Operators -/

/-- How an operator is written. -/
def ArithOp.symbol : ArithOp → String
  | add => "+"
  | sub => "-"
  | mul => "*"
  | div => "/"
  | other _ => "?"

/-- How a comparison is written. -/
def CompareOp.symbol : CompareOp → String
  | less => "<"
  | greater => ">"
  | lessEqual => "<="
  | greaterEqual => ">="
  | equal => "=="
  | other _ => "?"

/-- How a growth rule is written. -/
def Increase.symbol : Increase → String
  | add => "+="
  | multiply => "*="
  | none | other _ => ""

/-! ## Expressions -/

/-- A whole number in decimal. -/
def decimalText (n : Int64) : String :=
  toString n.toInt

/-- Dice as they are written. -/
def Dice.format (d : Dice) : String :=
  decimalText d.count ++ "d" ++ decimalText d.faces

/-- The operands after the first one, each behind its operator. Operands that have no operator
follow each other directly. -/
def joinOperands : List String → List ArithOp → String
  | [], _ => ""
  | x :: xs, op :: ops => " " ++ op.symbol ++ " " ++ x ++ joinOperands xs ops
  | x :: xs, [] => x ++ joinOperands xs []

/-- The operands of a chain with its operators between them. -/
def formatChain : List String → List ArithOp → String
  | [], _ => ""
  | x :: xs, ops => x ++ joinOperands xs ops

mutual

/-- An expression as it is written. -/
def Expr.format : Expr → String
  | .number n => decimalText n
  | .text s => quoted s
  | .dice d => d.format
  | .var x => x
  | .roll e => "^" ++ e.format
  | .call f args => f ++ "(" ++ ", ".intercalate (formatAll args) ++ ")"
  | .chain operands operators => "(" ++ formatChain (formatAll operands) operators ++ ")"
  | .hole => "<nil>"
  | .foreign label => "<" ++ label ++ ">"

/-- Expressions as they are written. -/
def Expr.formatAll : List Expr → List String
  | [] => []
  | e :: es => e.format :: formatAll es

end

/-- A condition as it is written. -/
def Condition.format (c : Condition) : String :=
  "(" ++ c.left.format ++ " " ++ c.op.symbol ++ " " ++ c.right.format ++ ")"

/-! ## Statements -/

/-- The head of a statement. -/
def Statement.format : Statement → String
  | .declare _ type name => "Declaration " ++ type ++ " " ++ name
  | .assign _ target value => "Assignment " ++ target ++ " = " ++ value.format
  | .attack _ attacker defender => "AttackMove " ++ attacker ++ " >> " ++ defender
  | .loop _ condition body =>
    "While " ++ condition.format ++ " stmts=" ++ toString (Block.size body)
  | .branch _ condition body alternative =>
    "If " ++ condition.format ++ " stmts=" ++ toString (Block.size body) ++
      match alternative with
      | some statements => " else=" ++ toString statements.length
      | none => ""
  | .log _ value => "Log " ++ value.format
  | .give _ value => "Return " ++ value.format
  | .call _ function arguments => "Call " ++ (Expr.call function arguments).format
  | .foreign _ label => label

/-- A line of text at a depth of nesting. -/
def indented (depth : Nat) (text : String) : String :=
  String.ofList (List.replicate (2 * depth) ' ') ++ text

/-- A line of text at a depth of nesting that tells the source line it is about. -/
def numbered (depth : Nat) (line : Int) (text : String) : String :=
  indented depth ("line " ++ toString line ++ ": " ++ text)

mutual

/-- The lines that show a statement and its blocks. -/
def Statement.lines (depth : Nat) : Statement → List String
  | .loop line condition body =>
    numbered depth line (Statement.loop line condition body).format ::
      blockLines (depth + 1) body
  | .branch line condition body alternative =>
    numbered depth line (Statement.branch line condition body alternative).format ::
      (blockLines (depth + 1) body ++ alternativeLines depth alternative)
  | s => [numbered depth s.line s.format]

/-- The lines that show a block. -/
def Statement.blockLines (depth : Nat) : Option (List Statement) → List String
  | none => []
  | some statements => allLines depth statements

/-- The lines that show what a branch does if its condition fails. -/
def Statement.alternativeLines (depth : Nat) : Option (List Statement) → List String
  | none => []
  | some statements => indented depth "else:" :: allLines (depth + 1) statements

/-- The lines that show statements one after the other. -/
def Statement.allLines (depth : Nat) : List Statement → List String
  | [] => []
  | s :: more => Statement.lines depth s ++ allLines depth more

end

/-- The lines that show a function. -/
def Function.lines (f : Function) : List String :=
  numbered 1 f.line (f.name ++ "(" ++ ", ".intercalate f.parameters ++ ")") ::
    Statement.blockLines 2 f.body

/-! ## Templates -/

/-- An attribute as it is written. -/
def Attribute.format (a : Attribute) : String :=
  match a.increase, a.amount with
  | .none, _ | _, .hole => decimalText a.base
  | increase, amount => decimalText a.base ++ " " ++ increase.symbol ++ " " ++ amount.format

/-- A stack of items as it is written. -/
def Stack.format (s : Stack) : String :=
  s.name ++ "/" ++ decimalText s.quantity

/-- Stacks of items as they are written. -/
def formatStacks (carried : List Stack) : String :=
  " & ".intercalate (carried.map Stack.format)

/-- The lines for the fields that have a value, in their order. -/
def fieldLines (fields : List (String × Option String)) : List String :=
  fields.filterMap fun (name, value) => value.map fun text => indented 2 (name ++ ": " ++ text)

/-- The text of a field that holds stacks of items; an empty one is left out. -/
def stacksField : List Stack → Option String
  | [] => none
  | carried => some (formatStacks carried)

/-- The fields of an item in the order in which they are shown. -/
def Item.fields (i : Item) : List (String × Option String) :=
  [("desc", i.desc.map quoted), ("value", i.value.map decimalText),
    ("health", i.health.map decimalText), ("attack", i.attack.map decimalText),
    ("defence", i.defence.map decimalText)]

/-- The fields of a character in the order in which they are shown. -/
def Character.fields (c : Character) : List (String × Option String) :=
  [("level", c.level.map Attribute.format), ("reqexp", c.reqexp.map Attribute.format),
    ("exp", c.exp.map Attribute.format), ("health", c.health.map Attribute.format),
    ("attack", c.attack.map Attribute.format), ("defence", c.defence.map Attribute.format),
    ("equipped", stacksField c.equipped), ("inventory", stacksField c.inventory),
    ("reward", stacksField c.reward)]

/-- The lines that show a template. Templates of a foreign kind are not shown. -/
def Template.lines : Template → List String
  | .item i => indented 1 ("item " ++ i.name) :: fieldLines i.fields
  | .character c => indented 1 ("character " ++ c.name) :: fieldLines c.fields
  | .foreign _ => []

/-! ## Whole programs -/

/-- The lines that show a program. -/
def Program.lines (p : Program) : List String :=
  "Instructions:" :: Statement.allLines 1 p.instructions ++
    ("Functions:" :: p.functions.flatMap Function.lines) ++
      ("Templates:" :: p.templates.flatMap Template.lines)

/-- Lines as one text, each ended by a newline. -/
def unlines (lines : List String) : String :=
  String.join (lines.map (· ++ "\n"))

/-- A program as text. -/
def Program.dump (p : Program) : String :=
  unlines p.lines

/-- Something that takes lines, as long as it has room for them. -/
structure Writer where
  /-- how many more lines are taken; any number if `none` -/
  room : Option Nat
  /-- the lines taken so far, the last one first -/
  taken : List String
  /-- how many lines were refused -/
  refused : Nat
  deriving DecidableEq, Repr

namespace Writer

/-- A writer that takes `room` lines. -/
def ofRoom (room : Option Nat) : Writer := ⟨room, [], 0⟩

/-- The text of the lines taken. -/
def text (w : Writer) : String :=
  unlines w.taken.reverse

/-- Offers a line to the writer; the answer tells whether it was taken. -/
def write (w : Writer) (line : String) : Bool × Writer :=
  match w.room with
  | none => (true, { w with taken := line :: w.taken })
  | some 0 => (false, { w with refused := w.refused + 1 })
  | some (n + 1) => (true, { w with room := some n, taken := line :: w.taken })

end Writer

end Adventure
