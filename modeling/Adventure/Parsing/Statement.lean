import Adventure.Parsing.Expression

/-!
# Reading instructions and functions

An instruction is told by its first token, and one that starts with a name by the token after it. A
block runs to its closing brace.
-/

namespace Adventure.Parsing

/-- The kinds that an instruction starts with. -/
def instructionStart : List Kind :=
  [.identifier, .whileWord, .ifWord, .questionMark, .returnWord]

/-- The kinds that tell what an instruction does that starts with a name. -/
def afterIdentifier : List Kind :=
  [.assign, .roundOpen, .identifier, .attackMove]

/-- The kinds of comparisons. -/
def comparisons : List Kind :=
  [.lessThan, .moreThan, .lessOrEqual, .moreOrEqual, .equals]

/-- The comparison that a token stands for. -/
def compareOpOf : Kind → CompareOp
  | .lessThan => .less
  | .moreThan => .greater
  | .lessOrEqual => .lessEqual
  | .moreOrEqual => .greaterEqual
  | _ => .equal

/-- Reads a condition in its parentheses. -/
def condition (ts : List Token) : Reads Condition ts := do
  let (_, r₁) ← accept [.roundOpen] ts
  let (left, r₂) ← assignable r₁.rest
  let (op, r₃) ← accept comparisons r₂.rest
  let (right, r₄) ← assignable r₃.rest
  let (_, r₅) ← accept [.roundClose] r₄.rest
  return (⟨left, compareOpOf op.kind, right⟩, r₁.trans (r₂.trans (r₃.trans (r₄.trans r₅))))

/-- Reads what follows the name `first` at the start of an instruction, up to its semicolon. -/
def namedInstruction (line : Int) (first : String) (ts : List Token) : Reads Statement ts := do
  let (t, r₁) ← accept afterIdentifier ts
  match t.kind with
  | .assign =>
    let (value, r₂) ← assignable r₁.rest
    return (.assign line first value, r₁.trans r₂)
  | .roundOpen =>
    let (args, r₂) ← arguments r₁.rest
    return (.call line first args, r₁.trans r₂)
  | .identifier => return (.declare line first t.value, r₁)
  | _ =>
    let (defender, r₂) ← accept [.identifier] r₁.rest
    return (.attack line first defender.value, r₁.trans r₂)

mutual

/-- Reads the instruction that starts with the token `t`, which has been taken already. -/
def instruction (t : Token) (ts : List Token) : Reads Statement ts := do
  let line : Int := t.position.line
  match t.kind with
  | .identifier =>
    let (s, r₁) ← namedInstruction line t.value ts
    let (_, r₂) ← accept [.semicolon] r₁.rest
    return (s, r₁.trans r₂)
  | .whileWord =>
    let (c, r₁) ← condition ts
    let (body, r₂) ← block r₁.rest
    return (.loop line c (some body), r₁.trans r₂)
  | .ifWord =>
    let (c, r₁) ← condition ts
    let (body, r₂) ← block r₁.rest
    let (alternative, r₃) ← alternative r₂.rest
    return (.branch line c (some body) alternative, r₁.trans (r₂.extend r₃))
  | .questionMark =>
    let (value, r₁) ← assignable ts
    let (_, r₂) ← accept [.semicolon] r₁.rest
    return (.log line value, r₁.trans r₂)
  | .returnWord =>
    let (value, r₁) ← assignable ts
    let (_, r₂) ← accept [.semicolon] r₁.rest
    return (.give line value, r₁.trans r₂)
  | _ => throw ⟨.unexpected instructionStart t, ts⟩
termination_by 4 * ts.length + 1
decreasing_by all_goals grind

/-- Reads the alternative of a branch, if there is one. -/
def alternative (ts : List Token) : MayRead (Option (List Statement)) ts :=
  match ts with
  | [] => return (none, .all [])
  | t :: tail =>
    if t.kind = .elseWord then do
      let (body, r) ← block tail
      return (some body, ((Shorter.tail t tail).trans r).weaken)
    else
      return (none, .all (t :: tail))
termination_by 4 * ts.length
decreasing_by all_goals grind

/-- Reads a block in its braces. -/
def block (ts : List Token) : Reads (List Statement) ts := do
  let (_, r₁) ← accept [.curlyOpen] ts
  let (statements, r₂) ← statements r₁.rest
  return (statements, r₁.trans r₂)
termination_by 4 * ts.length
decreasing_by all_goals grind

/-- Reads the instructions of a block, up to and with its closing brace. -/
def statements (ts : List Token) : Reads (List Statement) ts :=
  match ts with
  | [] => throw ⟨.ended instructionStart, []⟩
  | t :: tail =>
    if t.kind = .curlyClose then return ([], .tail t tail)
    else if t.kind ∈ instructionStart then do
      let (s, r₁) ← instruction t tail
      let (more, r₂) ← statements r₁.rest
      return (s :: more, (Shorter.tail t tail).trans (r₁.trans r₂))
    else throw ⟨.unexpected instructionStart t, tail⟩
termination_by 4 * ts.length
decreasing_by all_goals grind

end

/-- Reads at least one parameter, up to and with the closing parenthesis. -/
def moreParameters (ts : List Token) : Reads (List String) ts := do
  let (p, r₁) ← accept [.identifier] ts
  let (separator, r₂) ← accept [.comma, .roundClose] r₁.rest
  if separator.kind = .roundClose then
    return ([p.value], r₁.trans r₂)
  else
    let (more, r₃) ← moreParameters r₂.rest
    return (p.value :: more, r₁.trans (r₂.trans r₃))
termination_by ts.length
decreasing_by all_goals grind

/-- Reads the parameters of a function after its opening parenthesis, up to and with the closing
one. -/
def parameters (ts : List Token) : Reads (List String) ts :=
  match ts with
  | [] => moreParameters []
  | t :: tail =>
    if t.kind = .roundClose then return ([], .tail t tail)
    else moreParameters (t :: tail)

/-- Reads a function after its reserved word, which stands on `line`. -/
def function (line : Int) (ts : List Token) : Reads Function ts := do
  let (name, r₁) ← accept [.identifier] ts
  let (_, r₂) ← accept [.roundOpen] r₁.rest
  let (params, r₃) ← parameters r₂.rest
  let (body, r₄) ← block r₃.rest
  return (⟨line, name.value, params, some body⟩, r₁.trans (r₂.trans (r₃.trans r₄)))

end Adventure.Parsing
