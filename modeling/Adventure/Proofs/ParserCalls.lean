import Adventure.Parsing.OnDemand

/-!
# Calls to a parser

A parser is asked for two things: whether the next token is of some kinds, and to take it. Here are
the answers to such calls, one after the other (`Parser.answers`), and what they leave
(`Parser.after`). Once the lexer has failed, everything is refused (`Parser.Refuses`), and nothing
is ahead then (`Parser.Sound`).
-/

namespace Adventure

namespace Parser

variable {σ : Type} [Lexer σ]

/-! ## Calls -/

/-- What can be asked of a parser. -/
inductive Call where
  /-- whether the next token is of one of the kinds -/
  | peek (kinds : List Kind)
  /-- to take the next token, which has to be of one of the kinds -/
  | accept (kinds : List Kind)
  deriving DecidableEq, Repr

/-- What a parser answers. -/
inductive Answer where
  | seen (found : Bool)
  | got (result : Except ParseError Token)

/-- The token that was taken, be it expected or not. -/
def Answer.token? : Answer → Option Token
  | .got (.ok t) | .got (.error (.unexpected _ t)) => some t
  | _ => none

/-- What a call answers, and what it leaves. -/
def perform (p : Parser σ) : Call → Answer × Parser σ
  | .peek kinds => (.seen (p.peek kinds).1, (p.peek kinds).2)
  | .accept kinds => (.got (p.accept kinds).1, (p.accept kinds).2)

/-- What calls leave, one after the other. -/
def after (p : Parser σ) (calls : List Call) : Parser σ :=
  calls.foldl (fun p call => (p.perform call).2) p

/-- What calls answer, one after the other. -/
def answers (p : Parser σ) : List Call → List Answer
  | [] => []
  | call :: calls => (p.perform call).1 :: (p.perform call).2.answers calls

/-- The tokens that calls take, in their order. -/
def taken (p : Parser σ) (calls : List Call) : List Token :=
  (p.answers calls).filterMap Answer.token?

theorem after_cons (p : Parser σ) (call : Call) (calls : List Call) :
    p.after (call :: calls) = (p.perform call).2.after calls := rfl

/-- Calls go on where others have stopped. -/
theorem after_append (p : Parser σ) (calls calls' : List Call) :
    p.after (calls ++ calls') = (p.after calls).after calls' :=
  List.foldl_append

/-- What a call takes stands in front of what later ones take. -/
theorem taken_cons (p : Parser σ) (call : Call) (calls : List Call) :
    p.taken (call :: calls) =
      (p.perform call).1.token?.toList ++ (p.perform call).2.taken calls := by
  rw [taken, answers, List.filterMap_cons]
  cases (p.perform call).1.token? <;> rfl

/-! ## Readings one after the other -/

namespace Reading

variable {α β : Type} {m : Reading σ α} {p q : Parser σ}

omit [Lexer σ] in
/-- A reader goes on with what was read. -/
theorem bind_of_ok {a : α} (h : m p = some (.ok a, q)) (f : α → Reading σ β) :
    (m >>= f) p = f a q := by
  change (m p >>= _) = _
  rw [h]
  rfl

omit [Lexer σ] in
/-- A reader does not go on after an error. -/
theorem bind_of_error {e : ParseError} (h : m p = some (.error e, q)) (f : α → Reading σ β) :
    (m >>= f) p = some (.error e, q) := by
  change (m p >>= _) = _
  rw [h]
  rfl

end Reading

/-! ## Failures of the lexer -/

/-- What a call answers once the lexer has failed. -/
def Call.refused (e : LexicalError) : Call → Answer
  | .peek _ => .seen false
  | .accept _ => .got (.error (.lexical e))

section Failed

variable {p : Parser σ} {e : LexicalError}

/-- A parser whose lexer has failed refuses every call. -/
theorem perform_of_failed (h : p.error = some e) (call : Call) :
    p.perform call = (call.refused e, p) := by
  cases call <;> simp [perform, peek, accept, h, Call.refused]

/-- A parser whose lexer has failed stays as it is. -/
theorem after_of_failed (h : p.error = some e) (calls : List Call) : p.after calls = p := by
  induction calls with
  | nil => rfl
  | cons call calls ih =>
    rw [after_cons, perform_of_failed h call]
    exact ih

/-- A parser whose lexer has failed refuses all calls with the same error. -/
theorem answers_of_failed (h : p.error = some e) (calls : List Call) :
    p.answers calls = calls.map (Call.refused e) := by
  induction calls with
  | nil => rfl
  | cons call calls ih => rw [answers, perform_of_failed h call, ih, List.map_cons]

/-- Reading a program starts with taking a token, so that it fails at once. -/
theorem parse_of_failed (h : p.error = some e) (depth : Nat) :
    p.parse (depth + 1) = some (.error (.lexical e), p.dropped) := by
  have haccept : Reading.accept Parsing.statementStart p.dropped =
      some (.error (.lexical e), p.dropped) := by
    rw [Reading.accept, accept, dropped, h]
  rw [parse, Reading.program]
  exact Reading.bind_of_error haccept _

/-- `p.Refuses e`: whatever is asked of `p` fails with `e`, and the lexer is not asked. -/
structure Refuses (p : Parser σ) (e : LexicalError) : Prop where
  answers_eq : ∀ calls, p.answers calls = calls.map (Call.refused e)
  after_eq : ∀ calls, p.after calls = p
  parse_eq : ∀ depth, p.parse (depth + 1) = some (.error (.lexical e), p)

theorem refuses_of_failed (h : p.error = some e) (hnothing : p.buffered = none) :
    p.Refuses e where
  answers_eq := answers_of_failed h
  after_eq := after_of_failed h
  parse_eq := by
    intro depth
    have hdropped : p.dropped = p := by rw [dropped, ← hnothing]
    rw [parse_of_failed h depth, hdropped]

/-- The failure of the lexer is the answer of the call that asks for a token, and it is kept. -/
theorem perform_of_token_error (hfree : p.error = none) (hnothing : p.buffered = none)
    (he : (Lexer.token p.lexer).1 = .error e) (call : Call) :
    p.perform call = (call.refused e, ⟨(Lexer.token p.lexer).2, none, some e⟩) := by
  rcases hasked : Lexer.token p.lexer with ⟨answer, s⟩
  obtain rfl : answer = .error e := by rw [← he, hasked]
  cases call <;> simp [perform, peek, accept, next, hfree, hnothing, hasked, Call.refused]

end Failed

/-! ## What every parser keeps to -/

/-- Nothing is ahead once the lexer has failed. -/
def Sound (p : Parser σ) : Prop :=
  p.error = none ∨ p.buffered = none

omit [Lexer σ] in
theorem sound_dropped (p : Parser σ) : p.dropped.Sound :=
  .inr rfl

/-- A call keeps a parser sound. -/
theorem Sound.perform {p : Parser σ} (h : p.Sound) (call : Call) : (p.perform call).2.Sound := by
  rcases herror : p.error with - | e
  · rcases hbuffered : p.buffered with - | t
    · -- the lexer is asked
      rcases hasked : (Lexer.token p.lexer).1 with e | t
      · rw [perform_of_token_error herror hbuffered hasked call]
        exact .inr rfl
      · left
        rcases htoken : Lexer.token p.lexer with ⟨answer, s⟩
        obtain rfl : answer = .ok t := by rw [← hasked, htoken]
        cases call <;> simp [Parser.perform, peek, accept, next, herror, hbuffered, htoken]
    · left
      cases call <;> simp [Parser.perform, peek, accept, next, dropped, herror, hbuffered]
  · rw [perform_of_failed herror call]
    exact h

/-- Calls keep a parser sound. -/
theorem Sound.after {p : Parser σ} (h : p.Sound) (calls : List Call) : (p.after calls).Sound := by
  induction calls generalizing p with
  | nil => exact h
  | cons call calls ih => exact ih (h.perform call)

/-- Whoever has asked for a token has nothing ahead, and if the lexer has failed, that is the
answer. -/
theorem Sound.accept {p q : Parser σ} (hp : p.Sound) {kinds : List Kind}
    {r : Except ParseError Token} (h : p.accept kinds = (r, q)) :
    q.buffered = none ∧ ∀ e, q.error = some e → r = .error (.lexical e) := by
  unfold Parser.accept at h
  rcases herror : p.error with - | e
  · simp only [herror] at h
    -- whatever is ahead is taken, and taking records no failure
    have hnothing : p.next.2.buffered = none := by
      unfold next
      split
      · rfl
      · assumption
    have hkept : p.next.2.error = none := by
      unfold next
      split <;> exact herror
    rcases hnext : p.next with ⟨e | t, p'⟩
    · simp only [hnext] at h hnothing
      obtain ⟨rfl, rfl⟩ := Prod.mk.inj h
      exact ⟨hnothing, fun e' he' => by rw [Option.some.inj he']⟩
    · simp only [hnext] at h hnothing hkept
      obtain ⟨-, rfl⟩ := Prod.mk.inj h
      exact ⟨hnothing, fun e he => by rw [hkept] at he; cases he⟩
  · -- the lexer has failed before, and is not asked
    simp only [herror] at h
    obtain ⟨rfl, rfl⟩ := Prod.mk.inj h
    refine ⟨hp.resolve_left (by rw [herror]; exact Option.some_ne_none e), fun e' he' => ?_⟩
    rw [Option.some.inj (herror.symm.trans he')]

end Parser

end Adventure
