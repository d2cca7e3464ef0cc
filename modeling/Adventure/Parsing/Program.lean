import Adventure.Parsing.Statement
import Adventure.Parsing.Template

/-!
# Reading programs

A program is read from its tokens as a whole. `Tokens.parse` also gives what is left to read: after
a failure, reading can be taken up again behind the token that it failed at, and at the end of the
source there is only the program that does nothing.
-/

namespace Adventure

namespace Parsing

/-- The kinds that can stand between two parts of a program. -/
def statementStart : List Kind :=
  [.item, .character, .function, .identifier, .whileWord, .ifWord, .questionMark, .returnWord,
    .endOfFile]

/-- Reads a program that uses up all tokens. -/
def program (ts : List Token) : Except Refusal Program :=
  match ts with
  | [] => return .empty
  | t :: tail => do
    let line : Int := t.position.line
    if t.kind ∈ statementStart then
      match t.kind with
      | .item =>
        let (i, r) ← item line tail
        let p ← program r.rest
        return { p with templates := .item i :: p.templates }
      | .character =>
        let (c, r) ← character line tail
        let p ← program r.rest
        return { p with templates := .character c :: p.templates }
      | .function =>
        let (f, r) ← function line tail
        let p ← program r.rest
        return { p with functions := f :: p.functions }
      | _ =>
        let (s, r) ← instruction t tail
        let p ← program r.rest
        return { p with instructions := s :: p.instructions }
    else throw ⟨.unexpected statementStart t, tail⟩
termination_by ts.length
decreasing_by all_goals grind

end Parsing

namespace Tokens

/-- The program that the tokens write, or why they write none, and the tokens that are left. -/
def parse (ts : Tokens) : Except ParseError Program × Tokens :=
  match Parsing.program ts.items with
  | .ok p =>
    match ts.failure with
    | none => (.ok p, { ts with items := [] })
    | some e => (.error (.lexical e), { ts with items := [] })
  | .error ⟨reason, rest⟩ => (.error (reason.toError ts), { ts with items := rest })

end Tokens

/-- The program that a source holds, or why it holds none. -/
def Source.parse (s : Source) : Except ParseError Program :=
  s.tokens.parse.1

end Adventure
