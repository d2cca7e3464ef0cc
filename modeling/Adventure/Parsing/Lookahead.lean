import Adventure.Parsing.Basic

/-!
# One token ahead

Readers take their tokens from a list. A parser that is handed tokens one at a time keeps the one
that it has looked at until it is taken, and asks for no more once the lexer has failed. The tokens
come from any lexer.
-/

namespace Adventure

/-- What hands out tokens, one at a time. -/
class Lexer (σ : Type) where
  /-- the next token, or why there is none, and what hands out those behind it -/
  token : σ → Except LexicalError Token × σ

instance : Lexer Source where
  token := Source.token

/-- What asks a lexer for tokens, and is at most one of them ahead. -/
structure Parser (σ : Type) where
  lexer : σ
  /-- a token that was looked at and not taken -/
  buffered : Option Token
  /-- what the lexer has failed with -/
  error : Option LexicalError
  deriving DecidableEq, Repr

namespace Parser

variable {σ : Type}

/-- A parser that has not asked for anything. -/
def ofLexer (s : σ) : Parser σ :=
  ⟨s, none, none⟩

/-- The parser without the token that was looked at. -/
def dropped (p : Parser σ) : Parser σ :=
  { p with buffered := none }

variable [Lexer σ]

/-- The token that was looked at, or else the next one. -/
def next (p : Parser σ) : Except LexicalError Token × Parser σ :=
  match p.buffered with
  | some t => (.ok t, p.dropped)
  | none => ((Lexer.token p.lexer).1, { p with lexer := (Lexer.token p.lexer).2 })

/-- Takes the next token, which has to be of an expected kind. -/
def accept (kinds : List Kind) (p : Parser σ) : Except ParseError Token × Parser σ :=
  match p.error with
  | some e => (.error (.lexical e), p)
  | none =>
    match p.next with
    | (.error e, p) => (.error (.lexical e), { p with error := some e })
    | (.ok t, p) => (if t.kind ∈ kinds then .ok t else .error (.unexpected kinds t), p)

/-- Whether the next token is of one of the kinds. It is not, if the lexer fails. -/
def peek (kinds : List Kind) (p : Parser σ) : Bool × Parser σ :=
  match p.error with
  | some _ => (false, p)
  | none =>
    match p.buffered with
    | some t => (t.kind ∈ kinds, p)
    | none =>
      match Lexer.token p.lexer with
      | (.error e, s) => (false, { p with lexer := s, error := some e })
      | (.ok t, s) => (t.kind ∈ kinds, { p with lexer := s, buffered := some t })

end Parser

end Adventure
