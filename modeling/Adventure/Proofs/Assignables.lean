import Adventure.Proofs.Grammar

/-!
# The assignables of a program

An assignable is what can stand to the right of an assignment: the values that instructions assign,
log and give, the two sides of conditions, and the arguments of calls. A program has its assignables
at every depth (`Program.assignables`), and each of them is the value of a derivation tree whose
tokens are tokens of the program (`Grammar.holds_program`).
-/

namespace Adventure

namespace Expr

mutual

/-- The assignables inside an expression, which are the arguments of the calls in it. -/
def arguments : Expr → List Expr
  | .call _ arguments => assignablesAll arguments
  | .roll e => e.arguments
  | .chain operands _ => argumentsAll operands
  | .number _ | .text _ | .dice _ | .var _ | .hole | .foreign _ => []

/-- The assignables inside some expressions. -/
def argumentsAll : List Expr → List Expr
  | [] => []
  | e :: es => e.arguments ++ argumentsAll es

/-- Some assignables and those inside them. -/
def assignablesAll : List Expr → List Expr
  | [] => []
  | e :: es => e :: e.arguments ++ assignablesAll es

end

/-- An assignable and those inside it. -/
def assignables (e : Expr) : List Expr :=
  e :: e.arguments

/-- The arguments in a chain are those in its operands. -/
theorem mem_arguments_chained {e first : Expr} {more : List (ArithOp × Expr)} :
    e ∈ (Grammar.chained first more).arguments ↔
      e ∈ first.arguments ∨ e ∈ argumentsAll (more.map (·.2)) := by
  cases more with
  | nil => simp [Grammar.chained, argumentsAll]
  | cons x more => simp [Grammar.chained, arguments, argumentsAll]

end Expr

/-- The assignables of a condition. -/
def Condition.assignables (c : Condition) : List Expr :=
  c.left.assignables ++ c.right.assignables

namespace Statement

mutual

/-- The assignables of a statement and its blocks. -/
def assignables : Statement → List Expr
  | .assign _ _ value | .log _ value | .give _ value => value.assignables
  | .call _ _ arguments => Expr.assignablesAll arguments
  | .loop _ condition body => condition.assignables ++ blockAssignables body
  | .branch _ condition body alternative =>
    condition.assignables ++ (blockAssignables body ++ blockAssignables alternative)
  | .declare .. | .attack .. | .foreign .. => []

/-- The assignables of a block. -/
def blockAssignables : Option (List Statement) → List Expr
  | none => []
  | some statements => allAssignables statements

/-- The assignables of statements. -/
def allAssignables : List Statement → List Expr
  | [] => []
  | s :: more => s.assignables ++ allAssignables more

end

end Statement

/-- The assignables of a program, in its functions and its instructions. -/
def Program.assignables (p : Program) : List Expr :=
  p.functions.flatMap (fun f => Statement.blockAssignables f.body) ++
    Statement.allAssignables p.instructions

namespace Grammar

/-- `Holds us e`: some of the tokens `us` are an assignable that stands for `e`. -/
def Holds (us : List Token) (e : Expr) : Prop :=
  ∃ x : Assignable, x.value = e ∧ ∀ t ∈ x.tokens, t ∈ us

/-- More tokens hold what fewer do. -/
theorem Holds.mono {us vs : List Token} {e : Expr} (h : Holds us e)
    (hsub : ∀ t ∈ us, t ∈ vs) : Holds vs e := by
  obtain ⟨x, hx, hus⟩ := h
  exact ⟨x, hx, fun t ht => hsub t (hus t ht)⟩

/-! ## In expressions -/

mutual

theorem holds_expression : ∀ x : Expression, ∀ e ∈ x.value.arguments, Holds x.tokens e
  | .mk first more => by
    intro e he
    rw [Expression.value] at he
    rw [Expression.tokens]
    rcases Expr.mem_arguments_chained.mp he with he | he
    · exact (holds_term first e he).mono (by simp +contextual)
    · exact (holds_terms more e he).mono (by simp +contextual)

theorem holds_terms : ∀ x : Terms, ∀ e ∈ Expr.argumentsAll (x.value.map (·.2)), Holds x.tokens e
  | .nil => by
    intro e he
    simp [Terms.value, Expr.argumentsAll] at he
  | .cons sign first more => by
    intro e he
    rw [Terms.value, List.map_cons, Expr.argumentsAll] at he
    rw [Terms.tokens]
    rcases List.mem_append.mp he with he | he
    · exact (holds_term first e he).mono (by simp +contextual)
    · exact (holds_terms more e he).mono (by simp +contextual)

theorem holds_term : ∀ x : Term, ∀ e ∈ x.value.arguments, Holds x.tokens e
  | .mk first more => by
    intro e he
    rw [Term.value] at he
    rw [Term.tokens]
    rcases Expr.mem_arguments_chained.mp he with he | he
    · exact (holds_primary first e he).mono (by simp +contextual)
    · exact (holds_factors more e he).mono (by simp +contextual)

theorem holds_factors : ∀ x : Factors, ∀ e ∈ Expr.argumentsAll (x.value.map (·.2)),
    Holds x.tokens e
  | .nil => by
    intro e he
    simp [Factors.value, Expr.argumentsAll] at he
  | .cons sign first more => by
    intro e he
    rw [Factors.value, List.map_cons, Expr.argumentsAll] at he
    rw [Factors.tokens]
    rcases List.mem_append.mp he with he | he
    · exact (holds_primary first e he).mono (by simp +contextual)
    · exact (holds_factors more e he).mono (by simp +contextual)

theorem holds_primary : ∀ x : Primary, ∀ e ∈ x.value.arguments, Holds x.tokens e
  | .nested opening inner closing => by
    intro e he
    rw [Primary.value] at he
    rw [Primary.tokens]
    exact (holds_expression inner e he).mono (by simp +contextual)
  | .call name opening arguments => by
    intro e he
    rw [Primary.value, Expr.arguments] at he
    rw [Primary.tokens]
    exact (holds_arguments arguments e he).mono (by simp +contextual)
  | .var name | .rollDice caret d | .rollVar caret name | .number n | .dice d => by
    intro e he
    simp [Primary.value, Expr.arguments] at he

theorem holds_arguments : ∀ x : Arguments, ∀ e ∈ Expr.assignablesAll x.value, Holds x.tokens e
  | .none closing => by
    intro e he
    simp [Arguments.value, Expr.assignablesAll] at he
  | .some arguments => by
    intro e he
    rw [Arguments.value] at he
    rw [Arguments.tokens]
    exact holds_moreArguments arguments e he

theorem holds_moreArguments : ∀ x : MoreArguments, ∀ e ∈ Expr.assignablesAll x.value,
    Holds x.tokens e
  | .last argument closing => by
    intro e he
    rw [MoreArguments.value, Expr.assignablesAll, Expr.assignablesAll, List.append_nil] at he
    rw [MoreArguments.tokens]
    exact (holds_assignable argument e he).mono (by simp +contextual)
  | .cons argument comma more => by
    intro e he
    rw [MoreArguments.value, Expr.assignablesAll] at he
    rw [MoreArguments.tokens]
    rcases List.mem_append.mp he with he | he
    · exact (holds_assignable argument e he).mono (by simp +contextual)
    · exact (holds_moreArguments more e he).mono (by simp +contextual)

/-- An assignable holds itself and the arguments in it. -/
theorem holds_assignable : ∀ x : Assignable, ∀ e ∈ x.value.assignables, Holds x.tokens e
  | .text text => by
    intro e he
    rw [Assignable.value, Expr.assignables, Expr.arguments, List.mem_singleton] at he
    exact ⟨.text text, he.symm, fun t ht => ht⟩
  | .expression expression => by
    intro e he
    rw [Assignable.value, Expr.assignables] at he
    rcases List.mem_cons.mp he with he | he
    · exact ⟨.expression expression, he.symm, fun t ht => ht⟩
    · rw [Assignable.tokens]
      exact holds_expression expression e he

end

/-! ## In statements -/

theorem holds_condition (c : Condition) : ∀ e ∈ c.value.assignables, Holds c.tokens e := by
  intro e he
  rcases List.mem_append.mp he with he | he
  · exact (holds_assignable c.left e he).mono (by simp +contextual [Condition.tokens])
  · exact (holds_assignable c.right e he).mono (by simp +contextual [Condition.tokens])

mutual

theorem holds_instruction : ∀ x : Instruction, ∀ e ∈ x.value.assignables, Holds x.tokens e
  | .assign target sign value semicolon | .log target value semicolon
  | .give target value semicolon => by
    intro e he
    simp only [Instruction.value, Statement.assignables] at he
    exact (holds_assignable value e he).mono (by simp +contextual [Instruction.tokens])
  | .call name opening arguments semicolon => by
    intro e he
    simp only [Instruction.value, Statement.assignables] at he
    exact (holds_arguments arguments e he).mono (by simp +contextual [Instruction.tokens])
  | .declare type name semicolon => by
    intro e he
    simp [Instruction.value, Statement.assignables] at he
  | .attack attacker sign defender semicolon => by
    intro e he
    simp [Instruction.value, Statement.assignables] at he
  | .loop word condition body => by
    intro e he
    simp only [Instruction.value, Statement.assignables, Statement.blockAssignables] at he
    rcases List.mem_append.mp he with he | he
    · exact (holds_condition condition e he).mono (by simp +contextual [Instruction.tokens])
    · exact (holds_block body e he).mono (by simp +contextual [Instruction.tokens])
  | .branch word condition body alternative => by
    intro e he
    simp only [Instruction.value, Statement.assignables, Statement.blockAssignables.eq_2] at he
    rcases List.mem_append.mp he with he | he
    · exact (holds_condition condition e he).mono (by simp +contextual [Instruction.tokens])
    rcases List.mem_append.mp he with he | he
    · exact (holds_block body e he).mono (by simp +contextual [Instruction.tokens])
    · exact (holds_alternative alternative e he).mono (by simp +contextual [Instruction.tokens])

theorem holds_alternative : ∀ x : Alternative, ∀ e ∈ Statement.blockAssignables x.value,
    Holds x.tokens e
  | .none => by
    intro e he
    simp [Alternative.value, Statement.blockAssignables] at he
  | .some word body => by
    intro e he
    rw [Alternative.value, Statement.blockAssignables] at he
    rw [Alternative.tokens]
    exact (holds_block body e he).mono (by simp +contextual)

theorem holds_block : ∀ x : Block, ∀ e ∈ Statement.allAssignables x.value, Holds x.tokens e
  | .mk opening statements => by
    intro e he
    rw [Block.value] at he
    rw [Block.tokens]
    exact (holds_statements statements e he).mono (by simp +contextual)

theorem holds_statements : ∀ x : Statements, ∀ e ∈ Statement.allAssignables x.value,
    Holds x.tokens e
  | .nil closing => by
    intro e he
    simp [Statements.value, Statement.allAssignables] at he
  | .cons first more => by
    intro e he
    rw [Statements.value, Statement.allAssignables] at he
    rw [Statements.tokens]
    rcases List.mem_append.mp he with he | he
    · exact (holds_instruction first e he).mono (by simp +contextual)
    · exact (holds_statements more e he).mono (by simp +contextual)

end

/-! ## In programs -/

/-- A part adds the assignables among its own tokens. -/
theorem holds_addTo (part : Part) (p : Adventure.Program) :
    ∀ e ∈ (part.addTo p).assignables, Holds part.tokens e ∨ e ∈ p.assignables := by
  intro e he
  cases part with
  | item i => exact .inr he
  | character c => exact .inr he
  | function f =>
    simp only [Part.addTo, Program.assignables, List.flatMap_cons, List.append_assoc] at he
    rcases List.mem_append.mp he with he | he
    · refine .inl ((holds_block f.body e he).mono ?_)
      simp +contextual [Part.tokens, Function.tokens]
    · exact .inr he
  | instruction i =>
    simp only [Part.addTo, Program.assignables, Statement.allAssignables, List.mem_append] at he
    rcases he with he | he | he
    · exact .inr (List.mem_append_left _ he)
    · exact .inl (holds_instruction i e he)
    · exact .inr (List.mem_append_right _ he)

/-- **Every assignable of a program** is derived from some of its tokens. -/
theorem holds_program (d : Program) : ∀ e ∈ d.value.assignables, Holds d.tokens e := by
  induction d with
  | nil =>
    intro e he
    simp [Program.value, Program.assignables, Statement.allAssignables] at he
  | cons part d ih =>
    intro e he
    rcases holds_addTo part (Program.value d) e he with he | he
    · exact he.mono (by simp +contextual [Program.tokens])
    · exact (ih e he).mono (by simp +contextual [Program.tokens])

end Grammar

end Adventure
