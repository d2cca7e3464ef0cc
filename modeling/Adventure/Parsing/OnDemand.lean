import Adventure.Parsing.Lookahead
import Adventure.Parsing.Program

/-!
# Reading programs token by token

The readers of a parser that asks for its tokens one at a time. They are the readers of lists of
tokens once more, in terms of `Parser.peek` and `Parser.accept`: a token is asked for when it is
needed, and none behind the place where reading fails. There are lexers that never come to an end,
so a reader is given how deep it may go, and there is no answer if that was not deep enough.
-/

namespace Adventure

namespace Parser

open Parsing Text

/-- What reads something off a parser: it may fail, and there may be no answer. -/
abbrev Reading (σ : Type) : Type → Type :=
  ExceptT ParseError (StateT (Parser σ) Option)

namespace Reading

variable {σ : Type} [Lexer σ]

/-- Going too deep. -/
def tooDeep {α : Type} : Reading σ α := fun _ => none

/-- Whether the next token is of one of the kinds. -/
def peek (kinds : List Kind) : Reading σ Bool := fun p =>
  some (.ok (p.peek kinds).1, (p.peek kinds).2)

/-- Takes the next token, which has to be of an expected kind. -/
def accept (kinds : List Kind) : Reading σ Token := fun p =>
  some (p.accept kinds)

/-- The number that the literal `t` writes. -/
def numberOf (t : Token) : Reading σ Int64 :=
  match Numeral.decimal t.value with
  | .ok n => return n
  | .error fault => throw (.badNumber t fault)

/-- The dice that the literal `t` writes. -/
def diceOf (t : Token) : Reading σ Dice :=
  match Numeral.decimal (diceHalves t.value).1 with
  | .error fault => throw (.badDice t (diceHalves t.value).1 fault)
  | .ok count =>
    match Numeral.decimal (diceHalves t.value).2 with
    | .error fault => throw (.badDice t (diceHalves t.value).2 fault)
    | .ok faces => return ⟨count, faces⟩

/-- The operator that a token stands for. -/
def operatorOf : Kind → ArithOp
  | .plus => .add
  | .minus => .sub
  | .asterisk => .mul
  | _ => .div

/-! ## Expressions -/

mutual

/-- Reads a sum. -/
def expression : Nat → Reading σ Expr
  | 0 => tooDeep
  | depth + 1 => do
    let first ← term depth
    let more ← terms depth
    return chainOf first more

/-- Reads the terms of a sum after the first one. -/
def terms : Nat → Reading σ (List (ArithOp × Expr))
  | 0 => tooDeep
  | depth + 1 => do
    if ← peek [.plus, .minus] then
      let sign ← accept [.plus, .minus]
      let operand ← term depth
      let more ← terms depth
      return (operatorOf sign.kind, operand) :: more
    else return []

/-- Reads a product. -/
def term : Nat → Reading σ Expr
  | 0 => tooDeep
  | depth + 1 => do
    let first ← primary depth
    let more ← factors depth
    return chainOf first more

/-- Reads the factors of a product after the first one. -/
def factors : Nat → Reading σ (List (ArithOp × Expr))
  | 0 => tooDeep
  | depth + 1 => do
    if ← peek [.asterisk, .slash] then
      let sign ← accept [.asterisk, .slash]
      let operand ← primary depth
      let more ← factors depth
      return (operatorOf sign.kind, operand) :: more
    else return []

/-- Reads an operand. -/
def primary : Nat → Reading σ Expr
  | 0 => tooDeep
  | depth + 1 => do
    let t ← accept primaryStart
    match t.kind with
    | .roundOpen =>
      let e ← expression depth
      let _ ← accept [.roundClose]
      return e
    | .identifier =>
      if ← peek [.roundOpen] then
        let _ ← accept [.roundOpen]
        let args ← arguments depth
        return .call t.value args
      else return .var t.value
    | .caret =>
      let operand ← accept [.diceLiteral, .identifier]
      if operand.kind = .identifier then return .roll (.var operand.value)
      else
        let d ← diceOf operand
        return .roll (.dice d)
    | .numberLiteral =>
      let n ← numberOf t
      return .number n
    | _ =>
      let d ← diceOf t
      return .dice d

/-- Reads a text or a sum. -/
def assignable : Nat → Reading σ Expr
  | 0 => tooDeep
  | depth + 1 => do
    if ← peek [.stringLiteral] then
      let t ← accept [.stringLiteral]
      return .text t.value
    else expression depth

/-- Reads the arguments of a call after its opening parenthesis, up to and with the closing one. -/
def arguments : Nat → Reading σ (List Expr)
  | 0 => tooDeep
  | depth + 1 => do
    if ← peek [.roundClose] then
      let _ ← accept [.roundClose]
      return []
    else moreArguments depth

/-- Reads at least one argument, up to and with the closing parenthesis. -/
def moreArguments : Nat → Reading σ (List Expr)
  | 0 => tooDeep
  | depth + 1 => do
    let arg ← assignable depth
    let separator ← accept [.comma, .roundClose]
    if separator.kind = .roundClose then return [arg]
    else
      let args ← moreArguments depth
      return arg :: args

end

/-! ## Instructions and functions -/

/-- Reads a condition in its parentheses. -/
def condition (depth : Nat) : Reading σ Condition := do
  let _ ← accept [.roundOpen]
  let left ← assignable depth
  let op ← accept comparisons
  let right ← assignable depth
  let _ ← accept [.roundClose]
  return ⟨left, compareOpOf op.kind, right⟩

/-- Reads what follows the name `first` at the start of an instruction, up to its semicolon. -/
def namedInstruction (depth : Nat) (line : Int) (first : String) : Reading σ Statement := do
  let t ← accept afterIdentifier
  match t.kind with
  | .assign =>
    let value ← assignable depth
    return .assign line first value
  | .roundOpen =>
    let args ← arguments depth
    return .call line first args
  | .identifier => return .declare line first t.value
  | _ =>
    let defender ← accept [.identifier]
    return .attack line first defender.value

mutual

/-- Reads the instruction that starts with the token `t`, which has been taken already. -/
def instruction : Nat → Token → Reading σ Statement
  | 0, _ => tooDeep
  | depth + 1, t => do
    let line : Int := t.position.line
    match t.kind with
    | .identifier =>
      let s ← namedInstruction depth line t.value
      let _ ← accept [.semicolon]
      return s
    | .whileWord =>
      let c ← condition depth
      let body ← block depth
      return .loop line c (some body)
    | .ifWord =>
      let c ← condition depth
      let body ← block depth
      if ← peek [.elseWord] then
        let _ ← accept [.elseWord]
        let other ← block depth
        return .branch line c (some body) (some other)
      else return .branch line c (some body) none
    | .questionMark =>
      let value ← assignable depth
      let _ ← accept [.semicolon]
      return .log line value
    | .returnWord =>
      let value ← assignable depth
      let _ ← accept [.semicolon]
      return .give line value
    | _ => throw (.unexpected instructionStart t)

/-- Reads a block in its braces. -/
def block : Nat → Reading σ (List Statement)
  | 0 => tooDeep
  | depth + 1 => do
    let _ ← accept [.curlyOpen]
    statements depth

/-- Reads the instructions of a block, up to and with its closing brace. -/
def statements : Nat → Reading σ (List Statement)
  | 0 => tooDeep
  | depth + 1 => do
    if ← peek [.curlyClose] then
      let _ ← accept [.curlyClose]
      return []
    else
      let t ← accept instructionStart
      let s ← instruction depth t
      let more ← statements depth
      return s :: more

end

/-- Reads at least one parameter, up to and with the closing parenthesis. -/
def moreParameters : Nat → Reading σ (List String)
  | 0 => tooDeep
  | depth + 1 => do
    let p ← accept [.identifier]
    let separator ← accept [.comma, .roundClose]
    if separator.kind = .roundClose then return [p.value]
    else
      let more ← moreParameters depth
      return p.value :: more

/-- Reads the parameters of a function after its opening parenthesis, up to and with the closing
one. -/
def parameters (depth : Nat) : Reading σ (List String) := do
  if ← peek [.roundClose] then
    let _ ← accept [.roundClose]
    return []
  else moreParameters depth

/-- Reads a function after its reserved word, which stands on `line`. -/
def function (depth : Nat) (line : Int) : Reading σ Function := do
  let name ← accept [.identifier]
  let _ ← accept [.roundOpen]
  let params ← parameters depth
  let body ← block depth
  return ⟨line, name.value, params, some body⟩

/-! ## Templates -/

/-- Reads a number. -/
def number : Reading σ Int64 := do
  let t ← accept [.numberLiteral]
  numberOf t

/-- Reads the fields of the item `i`, up to and with the closing brace. -/
def itemBody : Nat → Item → Reading σ Item
  | 0, _ => tooDeep
  | depth + 1, i => do
    if ← peek itemFields then
      let t ← accept itemFields
      let _ ← accept [.colon]
      if t.kind = .desc then
        let text ← accept [.stringLiteral]
        itemBody depth { i with desc := some text.value }
      else
        let n ← number
        itemBody depth (i.set t.kind n)
    else
      let _ ← accept [.curlyClose]
      return i

/-- Reads an item after its reserved word, which stands on `line`. -/
def item (depth : Nat) (line : Int) : Reading σ Item := do
  let name ← accept [.identifier]
  let _ ← accept [.curlyOpen]
  itemBody depth (.blank line name.value)

/-- Reads an attribute: a number, and a growth rule if there is one. -/
def stat : Reading σ Attribute := do
  let base ← number
  if ← peek [.increasesBy, .multipliesBy] then
    let op ← accept [.increasesBy, .multipliesBy]
    let increase := if op.kind = .multipliesBy then Increase.multiply else .add
    let amount ← accept [.numberLiteral, .diceLiteral]
    if amount.kind = .diceLiteral then
      let d ← diceOf amount
      return ⟨base, increase, .dice d⟩
    else
      let n ← numberOf amount
      return ⟨base, increase, .number n⟩
  else return ⟨base, .none, .hole⟩

/-- Reads the quantity of a stack; it is one if it is not written. -/
def quantity : Reading σ Int64 := do
  if ← peek [.slash] then
    let _ ← accept [.slash]
    number
  else return 1

/-- Reads stacks of items. -/
def stackSet : Nat → Reading σ (List Stack)
  | 0 => tooDeep
  | depth + 1 => do
    let name ← accept [.identifier]
    let n ← quantity
    if ← peek [.and] then
      let _ ← accept [.and]
      let more ← stackSet depth
      return ⟨name.value, n⟩ :: more
    else return [⟨name.value, n⟩]

/-- Reads the fields of the character `c`, up to and with the closing brace. -/
def characterBody : Nat → Character → Reading σ Character
  | 0, _ => tooDeep
  | depth + 1, c => do
    if ← peek characterFields then
      let t ← accept characterFields
      let _ ← accept [.colon]
      if t.kind ∈ [Kind.equipped, .inventory, .reward] then
        let carried ← stackSet depth
        characterBody depth (c.carry t.kind carried)
      else
        let a ← stat
        characterBody depth (c.set t.kind a)
    else
      let _ ← accept [.curlyClose]
      return c

/-- Reads a character after its reserved word, which stands on `line`. -/
def character (depth : Nat) (line : Int) : Reading σ Character := do
  let name ← accept [.identifier]
  let _ ← accept [.curlyOpen]
  characterBody depth (.blank line name.value)

/-! ## Programs -/

/-- Reads a program up to the end of the source. -/
def program : Nat → Reading σ Program
  | 0 => tooDeep
  | depth + 1 => do
    let t ← accept statementStart
    let line : Int := t.position.line
    match t.kind with
    | .endOfFile => return .empty
    | .item =>
      let i ← item depth line
      let p ← program depth
      return { p with templates := .item i :: p.templates }
    | .character =>
      let c ← character depth line
      let p ← program depth
      return { p with templates := .character c :: p.templates }
    | .function =>
      let f ← function depth line
      let p ← program depth
      return { p with functions := f :: p.functions }
    | _ =>
      let s ← instruction depth t
      let p ← program depth
      return { p with instructions := s :: p.instructions }

end Reading

/-- Reads a program. A token that was looked at before is dropped. -/
def parse {σ : Type} [Lexer σ] (depth : Nat) (p : Parser σ) :
    Option (Except ParseError Program × Parser σ) :=
  Reading.program depth p.dropped

end Parser

end Adventure
