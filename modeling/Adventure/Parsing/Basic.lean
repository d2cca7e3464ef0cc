import Adventure.Syntax
import Adventure.Text.Numeral
import Adventure.Token.Lexer

/-!
# Reading programs off tokens

A reader takes tokens from the front of a list. When it succeeds, it gives what it has read and the
tokens after it, with a proof that at least one token was taken; when it fails, it gives the reason
and the tokens after the one that it failed at. Readers do not know how the source ends: a reader
that runs out of tokens says which kinds it could have gone on with, and `Rejection.toError` turns
that into an error once the end is known.
-/

namespace Adventure

open Text

namespace Parsing

/-- Why tokens were refused. -/
inductive Rejection where
  /-- the token `got` is of none of the kinds that could stand there -/
  | unexpected (expected : List Kind) (got : Token)
  /-- the tokens ended where one of these kinds was needed -/
  | ended (expected : List Kind)
  /-- a number does not fit -/
  | badNumber (literal : Token) (fault : Numeral.Fault)
  /-- the number `half` of a dice literal does not fit -/
  | badDice (literal : Token) (half : String) (fault : Numeral.Fault)
  deriving DecidableEq, Repr

/-- A reader's failure. -/
structure Refusal where
  /-- why it failed -/
  reason : Rejection
  /-- the tokens that it has not looked at -/
  rest : List Token
  deriving DecidableEq, Repr

/-- What is left of `ts` after at least one token was taken. -/
structure Shorter (ts : List Token) where
  rest : List Token
  lt : rest.length < ts.length

/-- What is left of `ts` after any number of tokens was taken. -/
structure NoLonger (ts : List Token) where
  rest : List Token
  le : rest.length ≤ ts.length

grind_pattern Shorter.lt => self.rest

grind_pattern NoLonger.le => self.rest

/-- All of the tokens are left. -/
def NoLonger.all (ts : List Token) : NoLonger ts :=
  ⟨ts, Nat.le_refl _⟩

namespace Shorter

variable {ts : List Token}

/-- All tokens but the first are left. -/
def tail (t : Token) (ts : List Token) : Shorter (t :: ts) :=
  ⟨ts, Nat.lt_succ_self _⟩

/-- What is left after one reader and another one after it. -/
def trans (r : Shorter ts) (r' : Shorter r.rest) : Shorter ts :=
  ⟨r'.rest, Nat.lt_trans r'.lt r.lt⟩

/-- What is left after one reader and another one after it that may have taken nothing. -/
def extend (r : Shorter ts) (r' : NoLonger r.rest) : Shorter ts :=
  ⟨r'.rest, Nat.lt_of_le_of_lt r'.le r.lt⟩

/-- What is left, whether or not anything was taken. -/
def weaken (r : Shorter ts) : NoLonger ts :=
  ⟨r.rest, Nat.le_of_lt r.lt⟩

@[simp] theorem rest_tail (t : Token) (ts : List Token) : (tail t ts).rest = ts := rfl

@[simp] theorem rest_trans (r : Shorter ts) (r' : Shorter r.rest) :
    (r.trans r').rest = r'.rest := rfl

@[simp] theorem rest_extend (r : Shorter ts) (r' : NoLonger r.rest) :
    (r.extend r').rest = r'.rest := rfl

@[simp] theorem rest_weaken (r : Shorter ts) : r.weaken.rest = r.rest := rfl

end Shorter

/-- What a reader that takes at least one token makes of `ts`. -/
abbrev Reads (α : Type) (ts : List Token) : Type :=
  Except Refusal (α × Shorter ts)

/-- What a reader that may take no token makes of `ts`. -/
abbrev MayRead (α : Type) (ts : List Token) : Type :=
  Except Refusal (α × NoLonger ts)

/-- Takes the next token, which has to be of an expected kind. -/
def accept (expected : List Kind) : (ts : List Token) → Reads Token ts
  | [] => .error ⟨.ended expected, []⟩
  | t :: ts =>
    if t.kind ∈ expected then .ok (t, .tail t ts)
    else .error ⟨.unexpected expected t, ts⟩

/-- Whether the next token is of the given kind. -/
def nextIs (kind : Kind) (ts : List Token) : Bool :=
  match ts with
  | [] => false
  | t :: _ => t.kind == kind

/-- The number that the literal `t` writes; `rest` are the tokens after it. -/
def numberOf (t : Token) (rest : List Token) : Except Refusal Int64 :=
  match Numeral.decimal t.value with
  | .ok n => .ok n
  | .error fault => .error ⟨.badNumber t fault, rest⟩

/-- The two numbers of a dice literal, divided at its first `d`. -/
def diceHalves (value : String) : String × String :=
  (.ofList (value.toList.takeWhile (· != 'd')),
    .ofList ((value.toList.dropWhile (· != 'd')).drop 1))

/-- The dice that the literal `t` writes; `rest` are the tokens after it. The count is looked at
before the faces. -/
def diceOf (t : Token) (rest : List Token) : Except Refusal Dice :=
  let (count, faces) := diceHalves t.value
  match Numeral.decimal count with
  | .error fault => .error ⟨.badDice t count fault, rest⟩
  | .ok c =>
    match Numeral.decimal faces with
    | .error fault => .error ⟨.badDice t faces fault, rest⟩
    | .ok f => .ok ⟨c, f⟩

end Parsing

/-- Why a source is not a program. -/
inductive ParseError where
  /-- it does not split into tokens -/
  | lexical (error : LexicalError)
  /-- the token `got` is of none of the kinds that could stand there -/
  | unexpected (expected : List Kind) (got : Token)
  /-- a number does not fit -/
  | badNumber (literal : Token) (fault : Numeral.Fault)
  /-- the number `half` of a dice literal does not fit -/
  | badDice (literal : Token) (half : String) (fault : Numeral.Fault)
  deriving DecidableEq, Repr

namespace ParseError

/-- The name of the kind of error. -/
def kind : ParseError → String
  | lexical e => e.kind
  | unexpected _ _ => "UnexpectedTokenError"
  | badNumber _ _ | badDice _ _ _ => "SyntaxError"

/-- The whole message. -/
def message (e : ParseError) : String :=
  match e with
  | lexical error => error.message
  | unexpected expected got =>
    let kinds := ", ".intercalate (expected.map Kind.name)
    s!"{e.kind}: expected: [{kinds}]; got: {got.kind.name} '{got.value}', {got.position.describe}"
  | badNumber literal _ =>
    s!"{e.kind}: invalid number literal '{literal.value}', {literal.position.describe}"
  | badDice literal _ _ =>
    s!"{e.kind}: invalid dice literal '{literal.value}', {literal.position.describe}"

/-- The text of the failure behind the error. -/
def cause? : ParseError → Option String
  | lexical error => error.cause?
  | unexpected _ _ => none
  | badNumber literal fault => some (Numeral.refusal "ParseInt" literal.value fault)
  | badDice _ half fault => some (Numeral.refusal "Atoi" half fault)

/-- Whether the source only ended too early, so that more text could still make it a program. -/
def isIncomplete : ParseError → Bool
  | unexpected _ got => got.kind == .endOfFile
  | lexical (.openString _) => true
  | _ => false

end ParseError

/-- The error of a source with tokens `ts`, for a reader's reason to fail. Running out of tokens is
an error of the lexer if that is why there are no more, and else the end is an unexpected token. -/
def Parsing.Rejection.toError (ts : Tokens) : Rejection → ParseError
  | unexpected expected got => .unexpected expected got
  | ended expected =>
    match ts.failure with
    | some e => .lexical e
    | none => .unexpected expected ts.endToken
  | badNumber literal fault => .badNumber literal fault
  | badDice literal half fault => .badDice literal half fault

end Adventure
