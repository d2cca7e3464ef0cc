import Adventure.Parsing.Basic

/-!
# Reading expressions

Products bind tighter than sums, and operators of one tier are read into one flat chain. A single
operand is not wrapped. A text may stand wherever a value is asked for as a whole, but it is no
operand, so parentheses never hold one.
-/

namespace Adventure.Parsing

/-- The kinds that an operand starts with. -/
def primaryStart : List Kind :=
  [.roundOpen, .identifier, .caret, .numberLiteral, .diceLiteral]

/-- The operator that a token between the terms of a sum stands for. -/
def additive? : Kind → Option ArithOp
  | .plus => some .add
  | .minus => some .sub
  | _ => none

/-- The operator that a token between the factors of a product stands for. -/
def multiplicative? : Kind → Option ArithOp
  | .asterisk => some .mul
  | .slash => some .div
  | _ => none

/-- A first operand and those that follow it, each with its operator. -/
def chainOf (first : Expr) : List (ArithOp × Expr) → Expr
  | [] => first
  | more => .chain (first :: more.map (·.2)) (more.map (·.1))

mutual

/-- Reads a sum. -/
def expression (ts : List Token) : Reads Expr ts := do
  let (first, r) ← term ts
  let (more, r') ← terms r.rest
  return (chainOf first more, r.extend r')
termination_by 4 * ts.length + 3
decreasing_by all_goals grind

/-- Reads the terms of a sum after the first one. -/
def terms (ts : List Token) : MayRead (List (ArithOp × Expr)) ts :=
  match ts with
  | [] => return ([], .all [])
  | t :: tail =>
    match additive? t.kind with
    | none => return ([], .all (t :: tail))
    | some op => do
      let (operand, r) ← term tail
      let (more, r') ← terms r.rest
      return ((op, operand) :: more, (Shorter.tail t tail |>.trans r |>.extend r').weaken)
termination_by 4 * ts.length
decreasing_by all_goals grind

/-- Reads a product. -/
def term (ts : List Token) : Reads Expr ts := do
  let (first, r) ← primary ts
  let (more, r') ← factors r.rest
  return (chainOf first more, r.extend r')
termination_by 4 * ts.length + 2
decreasing_by all_goals grind

/-- Reads the factors of a product after the first one. -/
def factors (ts : List Token) : MayRead (List (ArithOp × Expr)) ts :=
  match ts with
  | [] => return ([], .all [])
  | t :: tail =>
    match multiplicative? t.kind with
    | none => return ([], .all (t :: tail))
    | some op => do
      let (operand, r) ← primary tail
      let (more, r') ← factors r.rest
      return ((op, operand) :: more, (Shorter.tail t tail |>.trans r |>.extend r').weaken)
termination_by 4 * ts.length
decreasing_by all_goals grind

/-- Reads an operand. -/
def primary (ts : List Token) : Reads Expr ts := do
  let (t, r₁) ← accept primaryStart ts
  match t.kind with
  | .roundOpen =>
    let (e, r₂) ← expression r₁.rest
    let (_, r₃) ← accept [.roundClose] r₂.rest
    return (e, r₁.trans (r₂.trans r₃))
  | .identifier =>
    let (e, r₂) ← callOrVar t.value r₁.rest
    return (e, r₁.extend r₂)
  | .caret =>
    let (operand, r₂) ← accept [.diceLiteral, .identifier] r₁.rest
    if operand.kind = .identifier then
      return (.roll (.var operand.value), r₁.trans r₂)
    else
      let d ← diceOf operand r₂.rest
      return (.roll (.dice d), r₁.trans r₂)
  | .numberLiteral =>
    let n ← numberOf t r₁.rest
    return (.number n, r₁)
  | _ =>
    let d ← diceOf t r₁.rest
    return (.dice d, r₁)
termination_by 4 * ts.length + 1
decreasing_by all_goals grind

/-- Reads the arguments of a call of `name`, if there are any; else `name` is a variable. -/
def callOrVar (name : String) (ts : List Token) : MayRead Expr ts :=
  match ts with
  | [] => return (.var name, .all [])
  | t :: tail =>
    if t.kind = .roundOpen then do
      let (args, r) ← arguments tail
      return (.call name args, ((Shorter.tail t tail).trans r).weaken)
    else
      return (.var name, .all (t :: tail))
termination_by 4 * ts.length + 3
decreasing_by all_goals grind

/-- Reads a text or a sum. -/
def assignable (ts : List Token) : Reads Expr ts :=
  match ts with
  | [] => expression []
  | t :: tail =>
    if t.kind = .stringLiteral then return (.text t.value, .tail t tail)
    else expression (t :: tail)
termination_by 4 * ts.length + 4
decreasing_by all_goals grind

/-- Reads the arguments of a call after its opening parenthesis, up to and with the closing one. -/
def arguments (ts : List Token) : Reads (List Expr) ts :=
  match ts with
  | [] => moreArguments []
  | t :: tail =>
    if t.kind = .roundClose then return ([], .tail t tail)
    else moreArguments (t :: tail)
termination_by 4 * ts.length + 6
decreasing_by all_goals grind

/-- Reads at least one argument, up to and with the closing parenthesis. -/
def moreArguments (ts : List Token) : Reads (List Expr) ts := do
  let (arg, r₁) ← assignable ts
  let (separator, r₂) ← accept [.comma, .roundClose] r₁.rest
  if separator.kind = .roundClose then
    return ([arg], r₁.trans r₂)
  else
    let (args, r₃) ← moreArguments r₂.rest
    return (arg :: args, r₁.trans (r₂.trans r₃))
termination_by 4 * ts.length + 5
decreasing_by all_goals grind

end

end Adventure.Parsing
