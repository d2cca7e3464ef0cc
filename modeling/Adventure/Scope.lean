import Adventure.Fault
import Adventure.Value

/-!
# Variables and where they are seen

A scope holds the variables of the top level or of one call. A name is declared in a scope at most
once and can only be assigned after that. Functions are not kept in scopes: all scopes of a program
see the same ones, which `Family` makes explicit.
-/

namespace Adventure

/-- The variables of the top level or of one call, the latest one first. -/
structure Scope where
  vars : List (String × Value)

namespace Scope

/-- The scope without variables. -/
def empty : Scope := ⟨[]⟩

/-- The value of a variable, if it is declared. -/
def get? (s : Scope) (name : String) : Option Value :=
  s.vars.lookup name

/-- The value of a variable. -/
def get (s : Scope) (name : String) : Except Fault Value :=
  match s.get? name with
  | some v => .ok v
  | none => .error (.undeclared name)

/-- Declares a variable with a value. -/
def introduce (s : Scope) (name : String) (v : Value) : Except Fault Scope :=
  match s.get? name with
  | some _ => .error (.alreadyDefined name)
  | none => .ok ⟨(name, v) :: s.vars⟩

/-- Declares a variable that holds nothing yet. -/
def declare (s : Scope) (name : String) : Except Fault Scope :=
  s.introduce name .nothing

/-- Gives a declared variable a value. -/
def assign (s : Scope) (name : String) (v : Value) : Except Fault Scope :=
  match s.get? name with
  | some _ => .ok ⟨s.vars.map fun (x, w) => if x == name then (x, v) else (x, w)⟩
  | none => .error (.undeclared name)

/-- The names of the variables, in the order of their characters. -/
def names (s : Scope) : List String :=
  (s.vars.map (·.1)).mergeSort fun a b => !decide (b < a)

end Scope

/-- The function of the given name. -/
def lookupFunction (functions : List Function) (name : String) : Option Function :=
  functions.find? (·.name == name)

/-- Scopes that see the same functions. They are numbered in the order in which they were made. -/
structure Family where
  functions : List Function
  scopes : List Scope

namespace Family

/-- A single scope, without variables and functions. -/
def start : Family := ⟨[], [.empty]⟩

/-- The family with one more scope, without variables. -/
def child (f : Family) : Family :=
  { f with scopes := f.scopes ++ [.empty] }

/-- The scope of number `k`. -/
def scope (f : Family) (k : Nat) : Scope :=
  f.scopes.getD k .empty

/-- The family after a change in the scope of number `k`, which may fail. -/
def change (f : Family) (k : Nat) (op : Scope → Except Fault Scope) : Except Fault Family :=
  match op (f.scope k) with
  | .ok s => .ok { f with scopes := f.scopes.set k s }
  | .error e => .error e

/-- Declares a variable in the scope of number `k`. -/
def declare (f : Family) (k : Nat) (name : String) : Except Fault Family :=
  f.change k (·.declare name)

/-- Gives a variable in the scope of number `k` a value. -/
def assign (f : Family) (k : Nat) (name : String) (v : Value) : Except Fault Family :=
  f.change k (·.assign name v)

/-- The value of a variable in the scope of number `k`. -/
def get (f : Family) (k : Nat) (name : String) : Except Fault Value :=
  (f.scope k).get name

/-- Defines a function for all scopes. -/
def define (f : Family) (function : Function) : Except RuntimeError Family :=
  match lookupFunction f.functions function.name with
  | some _ => .error ⟨.alreadyDefined function.name, function.line, []⟩
  | none => .ok { f with functions := f.functions ++ [function] }

/-- The function of the given name, as every scope sees it. -/
def function (f : Family) (name : String) : Except Fault Function :=
  match lookupFunction f.functions name with
  | some function => .ok function
  | none => .error (.undefined name)

end Family

end Adventure
