import Adventure.Proofs.Derivation

/-!
# The statements of a program

A program has its statements at every depth (`Program.statements`): those of its functions and its
instructions, and those in the blocks of loops and branches. In a program that was read from a text,
each of them is what some consecutive tokens of the text say, and its line is the line of the first
of these tokens (`Program.writtenIn_of_parse`).
-/

namespace Adventure

open Parsing

namespace Statement

mutual

/-- The statements in the blocks of a statement. -/
def nested : Statement → List Statement
  | .loop _ _ body => blockStatements body
  | .branch _ _ body alternative => blockStatements body ++ blockStatements alternative
  | .declare .. | .assign .. | .attack .. | .log .. | .give .. | .call .. | .foreign .. => []

/-- The statements of a block, and those in their blocks. -/
def blockStatements : Option (List Statement) → List Statement
  | none => []
  | some statements => allStatements statements

/-- Some statements, and those in their blocks. -/
def allStatements : List Statement → List Statement
  | [] => []
  | st :: more => st :: (st.nested ++ allStatements more)

end

end Statement

/-- The statements of a program, in its functions and its instructions. -/
def Program.statements (p : Program) : List Statement :=
  p.functions.flatMap (fun f => Statement.blockStatements f.body) ++
    Statement.allStatements p.instructions

namespace Grammar

/-- `Says us st`: some of the tokens `us`, which follow each other, are an instruction that stands
for `st`. -/
def Says (us : List Token) (st : Statement) : Prop :=
  ∃ x : Instruction, x.value = st ∧ x.tokens <:+: us

/-- What a part of the tokens says, all of them say. -/
theorem Says.mono {us vs : List Token} {st : Statement} (h : Says us st) (hsub : us <:+: vs) :
    Says vs st := by
  obtain ⟨x, hx, hus⟩ := h
  exact ⟨x, hx, hus.trans hsub⟩

/-- A statement stands on the line of its first token. -/
theorem Instruction.exists_first (x : Instruction) :
    ∃ t more, x.tokens = t :: more ∧ x.value.line = t.position.line := by
  cases x <;> rw [Instruction.tokens, Instruction.value] <;> exact ⟨_, _, rfl, rfl⟩

/-! ## In derivations -/

mutual

/-- The statements inside an instruction are said by its tokens. -/
theorem says_nested : ∀ x : Instruction, ∀ st ∈ x.value.nested, Says x.tokens st
  | .assign target sign value semicolon | .log target value semicolon
  | .give target value semicolon | .call name opening arguments semicolon
  | .declare type name semicolon | .attack attacker sign defender semicolon => by
    intro st hst
    simp [Instruction.value, Statement.nested] at hst
  | .loop word condition body => by
    intro st hst
    simp only [Instruction.value, Statement.nested, Statement.blockStatements] at hst
    rw [Instruction.tokens, ← List.cons_append]
    exact (says_block body st hst).mono (List.suffix_append _ _).isInfix
  | .branch word condition body alternative => by
    intro st hst
    simp only [Instruction.value, Statement.nested, Statement.blockStatements.eq_2] at hst
    rw [Instruction.tokens, ← List.cons_append]
    rcases List.mem_append.mp hst with hst | hst
    · refine (says_block body st hst).mono ?_
      rw [← List.append_assoc]
      exact List.infix_append _ _ _
    · refine (says_alternative alternative st hst).mono ?_
      rw [← List.append_assoc]
      exact (List.suffix_append _ _).isInfix

/-- The statements of an alternative are said by its tokens. -/
theorem says_alternative : ∀ x : Alternative, ∀ st ∈ Statement.blockStatements x.value,
    Says x.tokens st
  | .none => by
    intro st hst
    simp [Alternative.value, Statement.blockStatements] at hst
  | .some word body => by
    intro st hst
    rw [Alternative.value, Statement.blockStatements] at hst
    rw [Alternative.tokens]
    exact (says_block body st hst).mono (List.suffix_cons _ _).isInfix

/-- The statements of a block are said by its tokens. -/
theorem says_block : ∀ x : Block, ∀ st ∈ Statement.allStatements x.value, Says x.tokens st
  | .mk opening statements => by
    intro st hst
    rw [Block.value] at hst
    rw [Block.tokens]
    exact (says_statements statements st hst).mono (List.suffix_cons _ _).isInfix

/-- The statements of a list are said by its tokens. -/
theorem says_statements : ∀ x : Statements, ∀ st ∈ Statement.allStatements x.value,
    Says x.tokens st
  | .nil closing => by
    intro st hst
    simp [Statements.value, Statement.allStatements] at hst
  | .cons first more => by
    intro st hst
    rw [Statements.value, Statement.allStatements] at hst
    rw [Statements.tokens]
    rcases List.mem_cons.mp hst with rfl | hst
    · exact ⟨first, rfl, (List.prefix_append _ _).isInfix⟩
    rcases List.mem_append.mp hst with hst | hst
    · exact (says_nested first st hst).mono (List.prefix_append _ _).isInfix
    · exact (says_statements more st hst).mono (List.suffix_append _ _).isInfix

end

/-- A part adds the statements among its own tokens. -/
theorem says_addTo (part : Part) (p : Adventure.Program) :
    ∀ st ∈ (part.addTo p).statements, Says part.tokens st ∨ st ∈ p.statements := by
  intro st hst
  cases part with
  | item i => exact .inr hst
  | character c => exact .inr hst
  | function f =>
    simp only [Part.addTo, Program.statements, List.flatMap_cons, List.append_assoc] at hst
    rcases List.mem_append.mp hst with hst | hst
    · refine .inl ((says_block f.body st hst).mono ?_)
      rw [Part.tokens, Function.tokens]
      simp only [← List.cons_append]
      exact (List.suffix_append _ _).isInfix
    · exact .inr hst
  | instruction i =>
    simp only [Part.addTo, Program.statements, Statement.allStatements, List.mem_append,
      List.mem_cons] at hst
    rcases hst with hst | rfl | hst | hst
    · exact .inr (List.mem_append_left _ hst)
    · exact .inl ⟨i, rfl, List.infix_rfl⟩
    · exact .inl (says_nested i st hst)
    · exact .inr (List.mem_append_right _ hst)

/-- **Every statement of a program** is said by some of its tokens, which follow each other. -/
theorem says_program (d : Program) : ∀ st ∈ d.value.statements, Says d.tokens st := by
  induction d with
  | nil =>
    intro st hst
    simp [Program.value, Program.statements, Statement.allStatements] at hst
  | cons part d ih =>
    intro st hst
    have htokens : Program.tokens (part :: d) = part.tokens ++ Program.tokens d := by
      simp [Program.tokens]
    rw [htokens]
    rcases says_addTo part (Program.value d) st hst with hst | hst
    · exact hst.mono (List.prefix_append _ _).isInfix
    · exact (ih st hst).mono (List.suffix_append _ _).isInfix

end Grammar

/-! ## In texts -/

/-- No token is read before the first line. -/
theorem Lexed.one_le_line {before cs before' rest : List Char} {ts : List Token}
    (h : Lexed before cs ts before' rest) : ∀ t ∈ ts, 1 ≤ t.position.line := by
  induction h with
  | nil => simp
  | cons hgap hlexeme hrest more ih =>
    intro t ht
    rcases List.mem_cons.mp ht with rfl | ht
    · exact Nat.le_add_left 1 _
    · exact ih t ht

/-- The statement is written in the text: some tokens that follow each other say it, and its line is
that of the first of them. -/
def Statement.WrittenIn (text : String) (st : Statement) : Prop :=
  ∃ (x : Grammar.Instruction) (t : Token) (more : List Token),
    x.value = st ∧ x.tokens = t :: more ∧
      t :: more <:+: (Source.ofString text).tokens.items ∧ st.line = t.position.line

/-- No statement that was written is before the first line. -/
theorem Statement.WrittenIn.one_le_line {text : String} {st : Statement} (h : st.WrittenIn text) :
    1 ≤ st.line := by
  obtain ⟨-, t, more, -, -, hinside, hline⟩ := h
  obtain ⟨before, rest, hlexed, -⟩ := splits_tokens text.toList
  have hpos : 1 ≤ t.position.line := hlexed.one_le_line t (hinside.subset List.mem_cons_self)
  omega

/-- **The statements of a program that was read** are written in the text. -/
theorem Program.writtenIn_of_parse {text : String} {p : Program}
    (h : (Source.ofString text).parse = .ok p) : ∀ st ∈ p.statements, st.WrittenIn text := by
  intro st hst
  obtain ⟨-, hprogram⟩ := (Source.parse_eq_ok_iff _ _).mp h
  obtain ⟨d, hd, rfl⟩ := exists_derivation hprogram
  obtain ⟨x, hx, hinside⟩ := Grammar.says_program d st hst
  obtain ⟨t, more, htokens, hline⟩ := x.exists_first
  rw [hd, htokens] at hinside
  exact ⟨x, t, more, hx, htokens, hinside, hx ▸ hline⟩

end Adventure
