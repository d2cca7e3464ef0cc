import Adventure.Syntax.Format

/-!
# What can go wrong while a program runs

A fault is a cause. A run-time error is a fault with the line of the innermost instruction that was
being carried out, and the functions that it was in, the innermost first.
-/

namespace Adventure

/-- The kinds of run-time errors. -/
inductive FaultKind where
  | type | recursion | argument | name | multipleName | undeclaredVariable | zeroDivision
  | interrupted
  deriving DecidableEq, Repr

/-- The name of a kind of error in messages. -/
def FaultKind.label : FaultKind → String
  | type => "TypeError"
  | recursion => "RecursionError"
  | argument => "ArgumentError"
  | name => "NameError"
  | multipleName => "MultipleNameError"
  | undeclaredVariable => "UndeclaredVariableError"
  | zeroDivision => "ZeroDivisionError"
  | interrupted => "Interrupted"

/-- Why a program cannot go on. -/
inductive Fault where
  /-- an expression of a foreign kind, or one that is not there -/
  | unsupportedExpression (label : String)
  /-- a statement of a foreign kind -/
  | unsupportedStatement (label : String)
  /-- an operator was applied to something that is no number -/
  | arithmeticOnOther
  /-- things that are not both numbers were put in order -/
  | comparisonOfOther
  /-- a value of this kind was rolled -/
  | rollOf (kind : String)
  /-- dice were rolled that do not exist -/
  | impossibleDice (dice : Dice)
  /-- too many calls are in progress -/
  | tooDeep
  /-- a call has this many arguments less than the function has parameters -/
  | missingArguments (count : Nat)
  /-- a call has this many arguments more than the function has parameters -/
  | extraArguments (count : Nat)
  /-- there is no function of this name -/
  | undefined (name : String)
  /-- the name is taken -/
  | alreadyDefined (name : String)
  /-- there is no variable of this name -/
  | undeclared (name : String)
  /-- a number was divided by zero -/
  | divisionByZero
  /-- the program was asked to stop -/
  | interrupted
  deriving DecidableEq, Repr

namespace Fault

/-- The kind of error that a fault leads to. -/
def kind : Fault → FaultKind
  | unsupportedExpression _ | unsupportedStatement _ | arithmeticOnOther | comparisonOfOther
  | rollOf _ | impossibleDice _ => .type
  | tooDeep => .recursion
  | missingArguments _ | extraArguments _ => .argument
  | undefined _ => .name
  | alreadyDefined _ => .multipleName
  | undeclared _ => .undeclaredVariable
  | divisionByZero => .zeroDivision
  | interrupted => .interrupted

/-- The word for so many arguments. -/
def argumentNoun (n : Nat) : String :=
  if 1 < n then "arguments" else "argument"

/-- The fault in words. -/
def message : Fault → String
  | unsupportedExpression label => "unsupported expression " ++ label
  | unsupportedStatement label => "unsupported statement " ++ label
  | arithmeticOnOther => "Attempted arithmetic operation on unsupported type"
  | comparisonOfOther => "Attempted comparison on unsupported type"
  | rollOf kind => "Attempted to roll a value of type " ++ kind
  | impossibleDice d => "Cannot roll " ++ d.format
  | tooDeep => "Recursion limit exceeded"
  | missingArguments n => "Function call missing " ++ toString n ++ " " ++ argumentNoun n
  | extraArguments n => "Function call has " ++ toString n ++ " extra " ++ argumentNoun n
  | undefined name => "Name '" ++ name ++ "' is not defined"
  | alreadyDefined name => "Name '" ++ name ++ "' is already defined"
  | undeclared name => "Variable '" ++ name ++ "' is not declared"
  | divisionByZero => "division by zero"
  | interrupted => "Execution interrupted"

/-- What made dice impossible, in words. -/
def impossibleDiceReason : String :=
  "dice must have positive faces and a non-negative count"

/-- The text of the failure behind a fault. -/
def cause? : Fault → Option String
  | impossibleDice _ => some impossibleDiceReason
  | _ => none

end Fault

/-- An error report, as it is handed on to people and other programs. -/
structure Diagnostic where
  /-- the name of the kind of error -/
  kind : String
  /-- what went wrong, in words -/
  reason : String
  /-- the line it went wrong on, not positive if unknown -/
  line : Int
  /-- the functions it went wrong in, the innermost first -/
  trace : List String
  /-- the text of the failure behind it -/
  cause : Option String
  deriving DecidableEq, Repr

namespace Diagnostic

/-- The whole message. -/
def text (d : Diagnostic) : String :=
  d.kind ++ ": " ++ d.reason ++ ", line " ++ if 0 < d.line then toString d.line else "unknown"

/-- The message with the context it is reported in, if there is one. -/
def textWithin (d : Diagnostic) : Option String → String
  | some context => context ++ ": " ++ d.text
  | none => d.text

/-- Whether the report counts as the given one, as it does if both are of one kind. There is nothing
to count as where the other error is no report (`none`). -/
def countsAs (d : Diagnostic) (other : Option Diagnostic) : Bool :=
  other.any fun o => d.kind == o.kind

end Diagnostic

/-- A fault at its place. -/
structure RuntimeError where
  /-- what went wrong -/
  fault : Fault
  /-- the line of the instruction that was being carried out; zero if unknown -/
  line : Int
  /-- the functions that were being carried out, the innermost first -/
  trace : List String
  deriving DecidableEq, Repr

namespace RuntimeError

/-- A fault whose place is not known yet. -/
def ofFault (f : Fault) : RuntimeError := ⟨f, 0, []⟩

/-- The error, on `line` unless its line is known already. -/
def onLine (e : RuntimeError) (line : Int) : RuntimeError :=
  if e.line = 0 then { e with line } else e

/-- The error after it has left the function `name`. -/
def leaving (e : RuntimeError) (name : String) : RuntimeError :=
  { e with trace := e.trace ++ [name] }

/-- The error as a report. -/
def diagnostic (e : RuntimeError) : Diagnostic :=
  ⟨e.fault.kind.label, e.fault.message, e.line, e.trace, e.fault.cause?⟩

/-- The whole message. -/
def message (e : RuntimeError) : String :=
  e.diagnostic.text

end RuntimeError

end Adventure
