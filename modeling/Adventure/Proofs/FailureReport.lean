import Adventure.Proofs.ParserCalls

/-!
# Readings report the failure of the lexer

Readers touch their parser by looking ahead and taking tokens alone. When a reader fails, it has
just asked for a token: nothing is ahead, and if the lexer has failed, then the reader fails with
that (`Parser.Reading.Reports`). Reading a program ends with a token that was asked for in any case,
so nothing is lost that was looked at, and it does not succeed once the lexer has failed.

A bad literal is found in a token that has just been taken. Hence the property is about the parsers
that a reader starts from.
-/

namespace Adventure

namespace Parser

namespace Reading

open Parsing

variable {σ : Type} [Lexer σ] {α β : Type}

/-! ## Putting reports together -/

/-- From a parser with `P`, the reader `m` makes calls alone. When it fails, nothing is ahead, and
if the lexer has failed, `m` fails with that. -/
def ReportsFrom (P : Parser σ → Prop) (m : Reading σ α) : Prop :=
  ∀ p r q, p.Sound → P p → m p = some (r, q) →
    (∃ calls, q = p.after calls) ∧
      ∀ f, r = .error f → q.buffered = none ∧ ∀ e, q.error = some e → f = .lexical e

/-- A token has just been taken: nothing is ahead, and the lexer has not failed. -/
def Fresh (p : Parser σ) : Prop :=
  p.buffered = none ∧ p.error = none

/-- The reader reports from wherever it starts. -/
abbrev Reports (m : Reading σ α) : Prop :=
  ReportsFrom (fun _ => True) m

variable {P : Parser σ → Prop} {m : Reading σ α} {g : α → Reading σ β}

/-- A reader that reports from anywhere reports from some parsers. -/
theorem ReportsFrom.of_reports (h : Reports m) : ReportsFrom P m :=
  fun p r q hp _ => h p r q hp trivial

/-- A reader that gives no answer reports. -/
theorem reports_tooDeep : Reports (tooDeep : Reading σ α) := by
  intro p r q _ _ h
  cases h

theorem reportsFrom_pure (a : α) : ReportsFrom P (pure a : Reading σ α) := by
  intro p r q _ _ h
  obtain ⟨rfl, rfl⟩ := Prod.mk.inj (Option.some.inj h)
  exact ⟨⟨[], rfl⟩, fun f hf => by cases hf⟩

/-- An error of its own is reported where a token has just been taken. -/
theorem reportsFrom_throw (f : ParseError) : ReportsFrom Fresh (throw f : Reading σ α) := by
  rintro p r q - ⟨hnothing, hclear⟩ h
  obtain ⟨rfl, rfl⟩ := Prod.mk.inj (Option.some.inj h)
  refine ⟨⟨[], rfl⟩, fun _ _ => ⟨hnothing, fun e he => ?_⟩⟩
  rw [hclear] at he
  cases he

/-- Looking ahead does not fail. -/
theorem reports_peek (kinds : List Kind) : Reports (peek kinds : Reading σ Bool) := by
  intro p r q _ _ h
  obtain ⟨rfl, rfl⟩ := Prod.mk.inj (Option.some.inj h)
  exact ⟨⟨[.peek kinds], rfl⟩, fun f hf => by cases hf⟩

omit [Lexer σ] in
/-- What comes of one reading after another. -/
theorem bind_eq_some {p q : Parser σ} {r : Except ParseError β} (h : (m >>= g) p = some (r, q)) :
    (∃ e, m p = some (.error e, q) ∧ r = .error e) ∨
      ∃ a p', m p = some (.ok a, p') ∧ g a p' = some (r, q) := by
  rcases hm : m p with - | ⟨e | a, p'⟩
  · change (m p >>= _) = _ at h
    rw [hm] at h
    cases h
  · rw [bind_of_error hm] at h
    obtain ⟨rfl, rfl⟩ := Prod.mk.inj (Option.some.inj h)
    exact .inl ⟨e, rfl, rfl⟩
  · rw [bind_of_ok hm] at h
    exact .inr ⟨a, p', rfl, h⟩

/-- A reader reports if it does so up to a point and from there on. -/
theorem ReportsFrom.bind (hm : ReportsFrom P m) (hg : ∀ a, Reports (g a)) :
    ReportsFrom P (m >>= g) := by
  intro p r q hsound hp h
  rcases bind_eq_some h with ⟨e, hfailed, rfl⟩ | ⟨a, p', hread, hrest⟩
  · obtain ⟨hcalls, hreport⟩ := hm p _ q hsound hp hfailed
    refine ⟨hcalls, fun f hf => hreport f ?_⟩
    rw [Except.error.inj hf]
  · obtain ⟨⟨calls, rfl⟩, -⟩ := hm p _ p' hsound hp hread
    obtain ⟨⟨calls', rfl⟩, hreport⟩ := hg a _ r q (hsound.after calls) trivial hrest
    exact ⟨⟨calls ++ calls', (after_append p calls calls').symm⟩, hreport⟩

/-- Either of two readers reports. -/
theorem ReportsFrom.ite {c : Prop} [Decidable c] {m' : Reading σ α} (h : ReportsFrom P m)
    (h' : ReportsFrom P m') : ReportsFrom P (if c then m else m') := by
  split
  · exact h
  · exact h'

/-- Taking a token is one call. -/
theorem after_of_accept {p q : Parser σ} {kinds : List Kind} {r : Except ParseError Token}
    (h : accept kinds p = some (r, q)) : q = p.after [.accept kinds] := by
  rw [after_cons, perform, Option.some.inj h]
  rfl

/-- A token that was taken leaves nothing ahead. -/
theorem fresh_of_accept {p q : Parser σ} {kinds : List Kind} {t : Token} (hp : p.Sound)
    (h : accept kinds p = some (.ok t, q)) : Fresh q := by
  obtain ⟨hnothing, hanswer⟩ := hp.accept (Option.some.inj h)
  refine ⟨hnothing, ?_⟩
  rcases herror : q.error with - | e
  · rfl
  · cases hanswer e herror

/-- Whoever takes a token goes on only if the lexer has not failed. -/
theorem reportsFrom_accept_bind {kinds : List Kind} {g : Token → Reading σ β}
    (hg : ∀ t, ReportsFrom Fresh (g t)) : ReportsFrom P (accept kinds >>= g) := by
  intro p r q hsound _ h
  rcases bind_eq_some h with ⟨f, hfailed, rfl⟩ | ⟨t, p', htaken, hrest⟩
  · obtain ⟨hnothing, hanswer⟩ := hsound.accept (Option.some.inj hfailed)
    refine ⟨⟨_, after_of_accept hfailed⟩, fun f' hf => ?_⟩
    rw [← Except.error.inj hf]
    exact ⟨hnothing, fun e he => Except.error.inj (hanswer e he)⟩
  · -- only here may what follows fail with an error of its own
    have hfresh := fresh_of_accept hsound htaken
    obtain rfl := after_of_accept htaken
    obtain ⟨⟨calls, rfl⟩, hreport⟩ := hg t _ r q (hsound.after _) hfresh hrest
    exact ⟨⟨[.accept kinds] ++ calls, (after_append p _ calls).symm⟩, hreport⟩

/-! ## Expressions -/

/-- A bad number is found where a token has just been taken. -/
theorem reportsFrom_numberOf (t : Token) : ReportsFrom Fresh (numberOf t : Reading σ Int64) := by
  unfold numberOf
  split
  · exact reportsFrom_pure _
  · exact reportsFrom_throw _

/-- Bad dice are found where a token has just been taken. -/
theorem reportsFrom_diceOf (t : Token) : ReportsFrom Fresh (diceOf t : Reading σ Dice) := by
  unfold diceOf
  split
  · exact reportsFrom_throw _
  · split
    · exact reportsFrom_throw _
    · exact reportsFrom_pure _

/-- The readers of expressions report, down to a depth. -/
structure ExpressionsReport (σ : Type) [Lexer σ] (depth : Nat) : Prop where
  expression : Reports (expression depth : Reading σ Expr)
  terms : Reports (terms depth : Reading σ (List (ArithOp × Expr)))
  term : Reports (term depth : Reading σ Expr)
  factors : Reports (factors depth : Reading σ (List (ArithOp × Expr)))
  primary : Reports (primary depth : Reading σ Expr)
  assignable : Reports (assignable depth : Reading σ Expr)
  arguments : Reports (arguments depth : Reading σ (List Expr))
  moreArguments : Reports (moreArguments depth : Reading σ (List Expr))

/-- Primaries report if everything less deep does. -/
theorem reports_primary {depth : Nat} (ih : ExpressionsReport σ depth) :
    Reports (primary (depth + 1) : Reading σ Expr) := by
  rw [primary]
  refine reportsFrom_accept_bind fun t => ?_
  split
  · exact .of_reports (ih.expression.bind fun e => reportsFrom_accept_bind fun _ =>
      reportsFrom_pure e)
  · refine .of_reports ((reports_peek _).bind fun found => .ite ?_ (reportsFrom_pure _))
    exact reportsFrom_accept_bind fun _ => .of_reports (ih.arguments.bind fun _ =>
      reportsFrom_pure _)
  · refine reportsFrom_accept_bind fun operand => .ite (reportsFrom_pure _) ?_
    exact (reportsFrom_diceOf operand).bind fun _ => reportsFrom_pure _
  · exact (reportsFrom_numberOf t).bind fun _ => reportsFrom_pure _
  · exact (reportsFrom_diceOf t).bind fun _ => reportsFrom_pure _

/-- **The readers of expressions report**, by induction on the depth. -/
theorem expressionsReport (depth : Nat) : ExpressionsReport σ depth := by
  induction depth with
  | zero => constructor <;> exact reports_tooDeep
  | succ depth ih =>
    constructor
    case expression =>
      rw [expression]
      exact ih.term.bind fun _ => ih.terms.bind fun _ => reportsFrom_pure _
    case terms =>
      rw [terms]
      refine (reports_peek _).bind fun _ => .ite ?_ (reportsFrom_pure _)
      exact reportsFrom_accept_bind fun _ => .of_reports (ih.term.bind fun _ =>
        ih.terms.bind fun _ => reportsFrom_pure _)
    case term =>
      rw [term]
      exact ih.primary.bind fun _ => ih.factors.bind fun _ => reportsFrom_pure _
    case factors =>
      rw [factors]
      refine (reports_peek _).bind fun _ => .ite ?_ (reportsFrom_pure _)
      exact reportsFrom_accept_bind fun _ => .of_reports (ih.primary.bind fun _ =>
        ih.factors.bind fun _ => reportsFrom_pure _)
    case primary => exact reports_primary ih
    case assignable =>
      rw [assignable]
      refine (reports_peek _).bind fun _ => .ite ?_ ih.expression
      exact reportsFrom_accept_bind fun _ => reportsFrom_pure _
    case arguments =>
      rw [arguments]
      refine (reports_peek _).bind fun _ => .ite ?_ ih.moreArguments
      exact reportsFrom_accept_bind fun _ => reportsFrom_pure _
    case moreArguments =>
      rw [moreArguments]
      refine ih.assignable.bind fun _ => reportsFrom_accept_bind fun _ =>
        .ite (reportsFrom_pure _) ?_
      exact .of_reports (ih.moreArguments.bind fun _ => reportsFrom_pure _)

/-! ## Instructions and functions -/

section Statements

variable (depth : Nat)

/-- Conditions report. -/
theorem reports_condition : Reports (condition depth : Reading σ Condition) := by
  have hassignable := (expressionsReport depth : ExpressionsReport σ depth).assignable
  rw [condition]
  refine reportsFrom_accept_bind fun _ => .of_reports (hassignable.bind fun _ => ?_)
  refine reportsFrom_accept_bind fun _ => .of_reports (hassignable.bind fun _ => ?_)
  exact reportsFrom_accept_bind fun _ => reportsFrom_pure _

/-- Instructions that begin with a name report behind it. -/
theorem reports_namedInstruction (line : Int) (first : String) :
    Reports (namedInstruction depth line first : Reading σ Statement) := by
  have hexpressions : ExpressionsReport σ depth := expressionsReport depth
  rw [namedInstruction]
  refine reportsFrom_accept_bind fun t => ?_
  split
  · exact .of_reports (hexpressions.assignable.bind fun _ => reportsFrom_pure _)
  · exact .of_reports (hexpressions.arguments.bind fun _ => reportsFrom_pure _)
  · exact reportsFrom_pure _
  · exact reportsFrom_accept_bind fun _ => reportsFrom_pure _

/-- The readers of instructions report, down to a depth. An instruction is read behind a token that
was taken. -/
structure StatementsReport (σ : Type) [Lexer σ] (depth : Nat) : Prop where
  instruction : ∀ t, ReportsFrom Fresh (instruction depth t : Reading σ Statement)
  block : Reports (block depth : Reading σ (List Statement))
  statements : Reports (statements depth : Reading σ (List Statement))

/-- Instructions report, of which the first token has just been taken. -/
theorem reports_instruction {depth : Nat} (ih : StatementsReport σ depth) (t : Token) :
    ReportsFrom Fresh (instruction (depth + 1) t : Reading σ Statement) := by
  have hassignable := (expressionsReport depth : ExpressionsReport σ depth).assignable
  rw [instruction]
  split
  · exact .of_reports ((reports_namedInstruction depth _ _).bind fun _ =>
      reportsFrom_accept_bind fun _ => reportsFrom_pure _)
  · exact .of_reports ((reports_condition depth).bind fun _ => ih.block.bind fun _ =>
      reportsFrom_pure _)
  · refine .of_reports ((reports_condition depth).bind fun _ => ih.block.bind fun _ => ?_)
    refine (reports_peek _).bind fun _ => .ite ?_ (reportsFrom_pure _)
    exact reportsFrom_accept_bind fun _ => .of_reports (ih.block.bind fun _ => reportsFrom_pure _)
  · exact .of_reports (hassignable.bind fun _ => reportsFrom_accept_bind fun _ =>
      reportsFrom_pure _)
  · exact .of_reports (hassignable.bind fun _ => reportsFrom_accept_bind fun _ =>
      reportsFrom_pure _)
  · exact reportsFrom_throw _

/-- **The readers of instructions report**, by induction on the depth. -/
theorem statementsReport : StatementsReport σ depth := by
  induction depth with
  | zero => exact ⟨fun _ => .of_reports reports_tooDeep, reports_tooDeep, reports_tooDeep⟩
  | succ depth ih =>
    refine ⟨reports_instruction ih, ?_, ?_⟩
    · rw [block]
      exact reportsFrom_accept_bind fun _ => .of_reports ih.statements
    · rw [statements]
      refine (reports_peek _).bind fun _ => .ite ?_ ?_
      · exact reportsFrom_accept_bind fun _ => reportsFrom_pure _
      · refine reportsFrom_accept_bind fun t => (ih.instruction t).bind fun _ => ?_
        exact ih.statements.bind fun _ => reportsFrom_pure _

/-- Parameters report. -/
theorem reports_moreParameters : Reports (moreParameters depth : Reading σ (List String)) := by
  induction depth with
  | zero => exact reports_tooDeep
  | succ depth ih =>
    rw [moreParameters]
    refine reportsFrom_accept_bind fun _ => reportsFrom_accept_bind fun _ =>
      .ite (reportsFrom_pure _) ?_
    exact .of_reports (ih.bind fun _ => reportsFrom_pure _)

/-- Functions report. -/
theorem reports_function (line : Int) : Reports (function depth line : Reading σ Function) := by
  have hparameters : Reports (parameters depth : Reading σ (List String)) := by
    rw [parameters]
    refine (reports_peek _).bind fun _ => .ite ?_ (reports_moreParameters depth)
    exact reportsFrom_accept_bind fun _ => reportsFrom_pure _
  rw [function]
  refine reportsFrom_accept_bind fun _ => reportsFrom_accept_bind fun _ => .of_reports ?_
  exact hparameters.bind fun _ => (statementsReport depth).block.bind fun _ => reportsFrom_pure _

end Statements

/-! ## Templates -/

theorem reports_number : Reports (number : Reading σ Int64) := by
  rw [number]
  exact reportsFrom_accept_bind reportsFrom_numberOf

/-- Attributes report. -/
theorem reports_stat : Reports (stat : Reading σ Attribute) := by
  rw [stat]
  refine reports_number.bind fun _ => (reports_peek _).bind fun _ => .ite ?_ (reportsFrom_pure _)
  refine reportsFrom_accept_bind fun _ => reportsFrom_accept_bind fun amount => .ite ?_ ?_
  · exact (reportsFrom_diceOf amount).bind fun _ => reportsFrom_pure _
  · exact (reportsFrom_numberOf amount).bind fun _ => reportsFrom_pure _

/-- Stacks of items report. -/
theorem reports_stackSet (depth : Nat) : Reports (stackSet depth : Reading σ (List Stack)) := by
  have hquantity : Reports (quantity : Reading σ Int64) := by
    rw [quantity]
    refine (reports_peek _).bind fun _ => .ite ?_ (reportsFrom_pure _)
    exact reportsFrom_accept_bind fun _ => .of_reports reports_number
  induction depth with
  | zero => exact reports_tooDeep
  | succ depth ih =>
    rw [stackSet]
    refine reportsFrom_accept_bind fun _ => .of_reports (hquantity.bind fun _ => ?_)
    refine (reports_peek _).bind fun _ => .ite ?_ (reportsFrom_pure _)
    exact reportsFrom_accept_bind fun _ => .of_reports (ih.bind fun _ => reportsFrom_pure _)

/-- The fields of an item report. -/
theorem reports_itemBody (depth : Nat) (i : Item) :
    Reports (itemBody depth i : Reading σ Item) := by
  induction depth generalizing i with
  | zero => exact reports_tooDeep
  | succ depth ih =>
    rw [itemBody]
    refine (reports_peek _).bind fun _ => .ite ?_ ?_
    · refine reportsFrom_accept_bind fun _ => reportsFrom_accept_bind fun _ => .ite ?_ ?_
      · exact reportsFrom_accept_bind fun _ => .of_reports (ih _)
      · exact .of_reports (reports_number.bind fun _ => ih _)
    · exact reportsFrom_accept_bind fun _ => reportsFrom_pure _

/-- The fields of a character report. -/
theorem reports_characterBody (depth : Nat) (c : Character) :
    Reports (characterBody depth c : Reading σ Character) := by
  induction depth generalizing c with
  | zero => exact reports_tooDeep
  | succ depth ih =>
    rw [characterBody]
    refine (reports_peek _).bind fun _ => .ite ?_ ?_
    · refine reportsFrom_accept_bind fun _ => reportsFrom_accept_bind fun _ => .ite ?_ ?_
      · exact .of_reports ((reports_stackSet depth).bind fun _ => ih _)
      · exact .of_reports (reports_stat.bind fun _ => ih _)
    · exact reportsFrom_accept_bind fun _ => reportsFrom_pure _

theorem reports_item (depth : Nat) (line : Int) : Reports (item depth line : Reading σ Item) := by
  rw [item]
  exact reportsFrom_accept_bind fun _ => reportsFrom_accept_bind fun _ =>
    .of_reports (reports_itemBody depth _)

theorem reports_character (depth : Nat) (line : Int) :
    Reports (character depth line : Reading σ Character) := by
  rw [character]
  exact reportsFrom_accept_bind fun _ => reportsFrom_accept_bind fun _ =>
    .of_reports (reports_characterBody depth _)

/-! ## Programs -/

/-- Programs report. -/
theorem reports_program (depth : Nat) : Reports (program depth : Reading σ Program) := by
  induction depth with
  | zero => exact reports_tooDeep
  | succ depth ih =>
    rw [program]
    refine reportsFrom_accept_bind fun t => ?_
    simp only
    split
    · exact reportsFrom_pure _
    · exact .of_reports ((reports_item depth _).bind fun _ => ih.bind fun _ => reportsFrom_pure _)
    · exact .of_reports ((reports_character depth _).bind fun _ => ih.bind fun _ =>
        reportsFrom_pure _)
    · exact .of_reports ((reports_function depth _).bind fun _ => ih.bind fun _ =>
        reportsFrom_pure _)
    · exact ((statementsReport depth).instruction t).bind fun _ => ih.bind fun _ =>
        reportsFrom_pure _

/-- If the reader succeeds from a parser with `P`, it has taken a token last. -/
def EndsFreshFrom (P : Parser σ → Prop) (m : Reading σ α) : Prop :=
  ∀ p a q, p.Sound → P p → m p = some (.ok a, q) → Fresh q

/-- What is read last decides whether a token was taken last. -/
theorem EndsFreshFrom.behind (hm : ReportsFrom P m)
    (hg : ∀ a, EndsFreshFrom (fun _ => True) (g a)) : EndsFreshFrom P (m >>= g) := by
  intro p b q hsound hp h
  rcases bind_eq_some h with ⟨e, -, hr⟩ | ⟨a, p', hread, hrest⟩
  · cases hr
  · obtain ⟨⟨calls, rfl⟩, -⟩ := hm p _ p' hsound hp hread
    exact hg a _ b q (hsound.after calls) trivial hrest

omit [Lexer σ] in
/-- Another value does not change which token was taken last. -/
theorem EndsFreshFrom.map (hm : EndsFreshFrom P m) (f : α → β) :
    EndsFreshFrom P (m >>= fun a => (pure (f a) : Reading σ β)) := by
  intro p b q hsound hp h
  rcases bind_eq_some h with ⟨e, -, hr⟩ | ⟨a, p', hread, hrest⟩
  · cases hr
  · obtain ⟨-, rfl⟩ := Prod.mk.inj (Option.some.inj hrest)
    exact hm p a p' hsound hp hread

omit [Lexer σ] in
theorem endsFreshFrom_pure (a : α) : EndsFreshFrom Fresh (pure a : Reading σ α) := by
  intro p b q _ hp h
  obtain ⟨-, rfl⟩ := Prod.mk.inj (Option.some.inj h)
  exact hp

/-- After a token has been taken, none has to be. -/
theorem endsFreshFrom_accept_bind {kinds : List Kind} {g : Token → Reading σ β}
    (hg : ∀ t, EndsFreshFrom Fresh (g t)) : EndsFreshFrom P (accept kinds >>= g) := by
  intro p b q hsound _ h
  rcases bind_eq_some h with ⟨e, -, hr⟩ | ⟨t, p', htaken, hrest⟩
  · cases hr
  · have hfresh := fresh_of_accept hsound htaken
    obtain rfl := after_of_accept htaken
    exact hg t _ b q (hsound.after _) hfresh hrest

/-- The last thing that is read is the end, which is taken. -/
theorem endsFresh_program (depth : Nat) :
    EndsFreshFrom (fun _ => True) (program depth : Reading σ Program) := by
  induction depth with
  | zero =>
    intro p a q _ _ h
    cases h
  | succ depth ih =>
    rw [program]
    refine endsFreshFrom_accept_bind fun t => ?_
    simp only
    split
    · exact endsFreshFrom_pure _
    · exact .behind (.of_reports (reports_item depth _)) fun _ => ih.map _
    · exact .behind (.of_reports (reports_character depth _)) fun _ => ih.map _
    · exact .behind (.of_reports (reports_function depth _)) fun _ => ih.map _
    · exact .behind ((statementsReport depth).instruction t) fun _ => ih.map _

end Reading

variable {σ : Type} [Lexer σ]

/-- **Reading a program reports the failure of the lexer**, and it leaves nothing ahead. -/
theorem parse_reports {p q : Parser σ} {depth : Nat} {r : Except ParseError Program}
    (h : p.parse depth = some (r, q)) :
    q.buffered = none ∧ ∀ e, q.error = some e → r = .error (.lexical e) ∧ q.Refuses e := by
  have hsound := p.sound_dropped
  obtain ⟨-, hreport⟩ := Reading.reports_program depth p.dropped r q hsound trivial h
  rcases r with f | program
  · obtain ⟨hnothing, herror⟩ := hreport f rfl
    exact ⟨hnothing, fun e he => ⟨by rw [herror e he], refuses_of_failed he hnothing⟩⟩
  · obtain ⟨hnothing, hclear⟩ :=
      Reading.endsFresh_program depth p.dropped program q hsound trivial h
    refine ⟨hnothing, fun e he => ?_⟩
    rw [hclear] at he
    cases he

end Parser

end Adventure
