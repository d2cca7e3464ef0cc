import Adventure.Syntax.Format

/-!
# Printing a program

A printer walks through a program and writes line after line to an outlet, which may fail. The first
error of the outlet is kept. The walk goes on behind it, through all statements, blocks and fields
that are left, but there is nothing more that the outlet is asked to take.
-/

namespace Adventure

/-- What lines are written to. A line is handed over in one write, with the newline that ends it. -/
class Outlet (σ : Type) (ε : outParam Type) where
  /-- the error of a write, if it fails, and what it leaves -/
  write : σ → String → Option ε × σ

/-- What goes wrong with a writer. -/
inductive WriteError where
  /-- there is no room for another line -/
  | full
  deriving DecidableEq, Repr

instance : Outlet Writer WriteError where
  write w line := (if (w.write line).1 then none else some .full, (w.write line).2)

/-- What writes to an outlet until a write fails. -/
structure Printer (σ ε : Type) where
  outlet : σ
  /-- what a write has failed with -/
  error : Option ε
  deriving DecidableEq, Repr

namespace Printer

variable {σ ε : Type}

/-- A printer that has written nothing. -/
def ofOutlet (out : σ) : Printer σ ε :=
  ⟨out, none⟩

variable [Outlet σ ε]

/-- Writes a line, unless a write has failed before. -/
def write (p : Printer σ ε) (line : String) : Printer σ ε :=
  match p.error with
  | some _ => p
  | none => ⟨(Outlet.write p.outlet line).2, (Outlet.write p.outlet line).1⟩

/-- Writes a line of text at a depth of nesting. -/
def line (p : Printer σ ε) (depth : Nat) (text : String) : Printer σ ε :=
  p.write (indented depth text)

/-- Writes a line of text that tells the source line it is about. -/
def numbered (p : Printer σ ε) (depth : Nat) (line : Int) (text : String) : Printer σ ε :=
  p.line depth ("line " ++ toString line ++ ": " ++ text)

mutual

/-- Writes a statement: its head, and then its blocks. -/
def statement (p : Printer σ ε) (depth : Nat) : Statement → Printer σ ε
  | .loop line condition body =>
    (p.numbered depth line (Statement.loop line condition body).format).block (depth + 1) body
  | .branch line condition body alternative =>
    ((p.numbered depth line (Statement.branch line condition body alternative).format).block
      (depth + 1) body).alternative depth alternative
  | s => p.numbered depth s.line s.format

/-- Writes a block, if there is one. -/
def block (p : Printer σ ε) (depth : Nat) : Option (List Statement) → Printer σ ε
  | none => p
  | some statements => p.statements depth statements

/-- Writes what a branch does if its condition fails. -/
def alternative (p : Printer σ ε) (depth : Nat) : Option (List Statement) → Printer σ ε
  | none => p
  | some statements => (p.line depth "else:").statements (depth + 1) statements

/-- Writes statements one after the other. -/
def statements (p : Printer σ ε) (depth : Nat) : List Statement → Printer σ ε
  | [] => p
  | s :: more => (p.statement depth s).statements depth more

end

/-- Writes a function: its name and its parameters, and then its body. -/
def function (p : Printer σ ε) (f : Function) : Printer σ ε :=
  (p.numbered 1 f.line (f.name ++ "(" ++ ", ".intercalate f.parameters ++ ")")).block 2 f.body

/-- Writes the fields that have a value, in their order. -/
def fields (p : Printer σ ε) : List (String × Option String) → Printer σ ε
  | [] => p
  | (_, none) :: more => p.fields more
  | (name, some text) :: more => (p.line 2 (name ++ ": " ++ text)).fields more

/-- Writes a template: its name, and then its fields. Those of a foreign kind are passed over. -/
def template (p : Printer σ ε) : Template → Printer σ ε
  | .item i => (p.line 1 ("item " ++ i.name)).fields i.fields
  | .character c => (p.line 1 ("character " ++ c.name)).fields c.fields
  | .foreign _ => p

/-- Writes a program: instructions, functions and templates. -/
def program (p : Printer σ ε) (q : Program) : Printer σ ε :=
  let p := (p.line 0 "Instructions:").statements 1 q.instructions
  let p := q.functions.foldl function (p.line 0 "Functions:")
  q.templates.foldl template (p.line 0 "Templates:")

end Printer

/-- Writes a program to an outlet. The answer is the error of the outlet, if a write fails. -/
def Program.print {σ ε : Type} [Outlet σ ε] (p : Program) (out : σ) : Option ε × σ :=
  let q := (Printer.ofOutlet out).program p
  (q.error, q.outlet)

end Adventure
