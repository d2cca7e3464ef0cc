import Adventure.Proofs.Statements

/-!
# Well-formed programs

The types of programs have room for more than a text can say: chains without operands, rolls of
anything, loops without a body, names that are no words, statements of a foreign kind. `WellFormed`
leaves all of this out. It is defined along the syntax, so that it holds at every depth.

A program that was read from a text is well-formed (`Program.IsRead.wellFormed`). This holds of
every reading of every source, also of one that goes on behind the token that an earlier one failed
at.
The tokens of a source are written by lexemes and stand on lines that count from one
(`Token.Sound`), and what a derivation tree with such tokens stands for is well-formed.
-/

namespace Adventure

open Text Parsing

/-! ## Names and numbers -/

/-- A word that is not reserved. -/
structure IsName (name : String) : Prop where
  ne_empty : name ≠ ""
  word : ∀ c ∈ name.toList, isWordChar c = true
  free : ∀ kind : Kind, kind.spelling? ≠ some name

/-- A number without a sign that has room in 64 bits with a sign. -/
def IsNatural (n : Int64) : Prop :=
  0 ≤ n.toInt ∧ n.toInt ≤ 9223372036854775807

/-- Both numbers of the dice are without a sign. -/
def Dice.WellFormed (d : Dice) : Prop :=
  IsNatural d.count ∧ IsNatural d.faces

/-! ## Expressions -/

/-- The operators all belong to sums, or all to products. -/
def OneTier (operators : List ArithOp) : Prop :=
  operators ⊆ [.add, .sub] ∨ operators ⊆ [.mul, .div]

namespace Expr

/-- There is an operator, and there is one more operand than there are operators, which are of one
tier; no operand is a text. -/
structure Chained (operands : List Expr) (operators : List ArithOp) : Prop where
  operators_ne : operators ≠ []
  length_eq : operands.length = operators.length + 1
  oneTier : OneTier operators
  noText : ∀ s, .text s ∉ operands

mutual

/-- The expression is one that can be read, and so is every expression in it. -/
def WellFormed : Expr → Prop
  | .number n => IsNatural n
  | .text _ => True
  | .dice d => d.WellFormed
  | .var x => IsName x
  | .call f arguments => IsName f ∧ AllWellFormed arguments
  | .roll e => ((∃ d, e = .dice d) ∨ ∃ x, e = .var x) ∧ e.WellFormed
  | .chain operands operators => Chained operands operators ∧ AllWellFormed operands
  | .hole | .foreign _ => False

/-- All of the expressions are well-formed. -/
def AllWellFormed : List Expr → Prop
  | [] => True
  | e :: es => e.WellFormed ∧ AllWellFormed es

end

theorem allWellFormed_iff {es : List Expr} : AllWellFormed es ↔ ∀ e ∈ es, e.WellFormed := by
  induction es with
  | nil => simp [AllWellFormed]
  | cons e es ih => rw [AllWellFormed, List.forall_mem_cons, ih]

/-- The expression can stand in a chain. -/
structure IsOperand (e : Expr) : Prop where
  wellFormed : e.WellFormed
  noText : ∀ s, e ≠ .text s

/-- Operands with operators of one tier between them are an operand, with parentheses around them if
there is an operator. -/
theorem isOperand_chained {first : Expr} {more : List (ArithOp × Expr)} (hfirst : first.IsOperand)
    (hmore : ∀ x ∈ more, x.2.IsOperand) (htier : OneTier (more.map (·.1))) :
    (Grammar.chained first more).IsOperand := by
  rcases more with - | ⟨x, more⟩
  · exact hfirst
  · have hall : ∀ e ∈ first :: (x :: more).map (·.2), e.IsOperand := by
      rw [List.forall_mem_cons, List.forall_mem_map]
      exact ⟨hfirst, hmore⟩
    refine ⟨⟨⟨List.cons_ne_nil _ _, ?_, htier, fun s hs => (hall _ hs).noText s rfl⟩, ?_⟩, ?_⟩
    · simp
    · exact allWellFormed_iff.mpr fun e he => (hall e he).wellFormed
    · intro s hs
      cases hs

end Expr

/-- The comparison is one of the language, and both sides are well-formed. -/
structure Condition.WellFormed (c : Condition) : Prop where
  left : c.left.WellFormed
  op : ∀ code, c.op ≠ .other code
  right : c.right.WellFormed

/-! ## Statements and functions -/

namespace Statement

mutual

/-- The statement is one that can be read, and so is every statement and expression in it. -/
def WellFormed : Statement → Prop
  | .declare line type name => 1 ≤ line ∧ IsName type ∧ IsName name
  | .assign line target value => 1 ≤ line ∧ IsName target ∧ value.WellFormed
  | .attack line attacker defender => 1 ≤ line ∧ IsName attacker ∧ IsName defender
  | .loop line condition body =>
    1 ≤ line ∧ condition.WellFormed ∧ body ≠ none ∧ BlockWellFormed body
  | .branch line condition body alternative =>
    1 ≤ line ∧ condition.WellFormed ∧ body ≠ none ∧ BlockWellFormed body ∧
      BlockWellFormed alternative
  | .log line value | .give line value => 1 ≤ line ∧ value.WellFormed
  | .call line function arguments => 1 ≤ line ∧ (Expr.call function arguments).WellFormed
  | .foreign _ _ => False

/-- The statements of a block are well-formed, if there is one. -/
def BlockWellFormed : Option (List Statement) → Prop
  | none => True
  | some statements => AllWellFormed statements

/-- All of the statements are well-formed. -/
def AllWellFormed : List Statement → Prop
  | [] => True
  | st :: more => st.WellFormed ∧ AllWellFormed more

end

theorem allWellFormed_iff {statements : List Statement} :
    AllWellFormed statements ↔ ∀ st ∈ statements, st.WellFormed := by
  induction statements with
  | nil => simp [AllWellFormed]
  | cons st more ih => rw [AllWellFormed, List.forall_mem_cons, ih]

end Statement

/-- The function has a body, and this and the names are well-formed. -/
structure Function.WellFormed (f : Function) : Prop where
  line : 1 ≤ f.line
  name : IsName f.name
  parameters : ∀ x ∈ f.parameters, IsName x
  body_ne : f.body ≠ none
  body : Statement.BlockWellFormed f.body

/-! ## Templates -/

/-- The attribute grows by an amount, which is a number or dice, or it does not grow and has no
amount. -/
structure Attribute.WellFormed (a : Attribute) : Prop where
  base : IsNatural a.base
  increase : ∀ code, a.increase ≠ .other code
  amount_iff : a.amount = .hole ↔ a.increase = .none
  amount : a.amount ≠ .hole →
    ((∃ n, a.amount = .number n) ∨ ∃ d, a.amount = .dice d) ∧ a.amount.WellFormed

/-- The stack has a name and a number. -/
structure Stack.WellFormed (s : Stack) : Prop where
  name : IsName s.name
  quantity : IsNatural s.quantity

/-- The name and the numbers of the item are well-formed. -/
structure Item.WellFormed (i : Item) : Prop where
  line : 1 ≤ i.line
  name : IsName i.name
  numbers : ∀ n, some n ∈ [i.value, i.health, i.attack, i.defence] → IsNatural n

/-- The name, the attributes and the stacks of the character are well-formed. -/
structure Character.WellFormed (c : Character) : Prop where
  line : 1 ≤ c.line
  name : IsName c.name
  attributes : ∀ a, some a ∈ [c.level, c.reqexp, c.exp, c.health, c.attack, c.defence] →
    a.WellFormed
  carried : ∀ s ∈ c.equipped ++ c.inventory ++ c.reward, s.WellFormed

/-- The template is an item or a character. -/
def Template.WellFormed : Template → Prop
  | .item i => i.WellFormed
  | .character c => c.WellFormed
  | .foreign _ => False

/-- All parts of the program are well-formed. -/
structure Program.WellFormed (p : Program) : Prop where
  templates : ∀ t ∈ p.templates, t.WellFormed
  functions : ∀ f ∈ p.functions, f.WellFormed
  instructions : ∀ st ∈ p.instructions, st.WellFormed

/-! ## What trees stand for -/

/-- A lexeme writes the token, and the token stands on some line. -/
structure Token.Sound (t : Token) : Prop where
  spelled : t.Spelled
  line : 1 ≤ t.position.line

/-- What is read as an identifier is a name. -/
theorem Lexeme.isName {value : String} {cs : List Char} (h : Lexeme .identifier value cs) :
    IsName value := by
  cases h with
  | identifier hne hcs hfree =>
    exact ⟨by simpa using hne, by rwa [String.toList_ofList], hfree⟩
  | fixed h => cases h

namespace Grammar

/-- Tokens stand on lines that are counted from one. -/
theorem one_le_line {kinds : List Kind} (l : Leaf kinds) (h : l.token.Sound) : 1 ≤ l.line :=
  Int.ofNat_le.mpr h.line

/-! ### Leaves -/

/-- An identifier in a tree is a name. -/
theorem isName_leaf (l : Leaf [.identifier]) (h : l.token.Sound) : IsName l.token.value := by
  obtain ⟨⟨lexeme, hlexeme⟩, -⟩ := h
  rw [kind_of_leaf l] at hlexeme
  exact hlexeme.isName

/-- Digits are worth a natural number. -/
theorem isNatural_of_isWorth {digits : String} {n : Int64} (h : IsWorth digits n) : IsNatural n :=
  ⟨h.nonneg, by have := n.toInt_lt; omega⟩

/-- A number in a tree is natural. -/
theorem isNatural_leaf (l : NumberLeaf) (h : l.token.Sound) : IsNatural l.value := by
  obtain ⟨⟨lexeme, hlexeme⟩, -⟩ := h
  exact isNatural_of_isWorth ((decimal_of_number hlexeme l.kind_eq l.value).mp l.fits)

/-- Dice in a tree can be written. -/
theorem wellFormed_diceLeaf (l : DiceLeaf) (h : l.token.Sound) : l.value.WellFormed := by
  obtain ⟨⟨lexeme, hlexeme⟩, -⟩ := h
  obtain ⟨count, faces, -, hcount, hfaces⟩ := isWorth_of_diceLeaf l hlexeme
  exact ⟨isNatural_of_isWorth hcount, isNatural_of_isWorth hfaces⟩

/-- Signs between terms add or subtract. -/
theorem arithOpOf_additive (l : Leaf [.plus, .minus]) :
    arithOpOf l.token.kind ∈ [ArithOp.add, .sub] := by
  have hkind : ∀ kind ∈ [Kind.plus, .minus], arithOpOf kind ∈ [ArithOp.add, .sub] := by decide
  exact hkind _ l.mem

/-- Signs between factors multiply or divide. -/
theorem arithOpOf_multiplicative (l : Leaf [.asterisk, .slash]) :
    arithOpOf l.token.kind ∈ [ArithOp.mul, .div] := by
  have hkind : ∀ kind ∈ [Kind.asterisk, .slash], arithOpOf kind ∈ [ArithOp.mul, .div] := by decide
  exact hkind _ l.mem

/-- Terms are added and subtracted only. -/
theorem terms_operators (x : Terms) : x.value.map (·.1) ⊆ [ArithOp.add, .sub] := by
  cases x with
  | nil => exact List.nil_subset _
  | cons sign first more =>
    exact List.cons_subset.mpr ⟨arithOpOf_additive sign, terms_operators more⟩

/-- Factors are multiplied and divided only. -/
theorem factors_operators (x : Factors) : x.value.map (·.1) ⊆ [ArithOp.mul, .div] := by
  cases x with
  | nil => exact List.nil_subset _
  | cons sign first more =>
    exact List.cons_subset.mpr ⟨arithOpOf_multiplicative sign, factors_operators more⟩

/-! ### Expressions -/

mutual

theorem isOperand_ofExpression : ∀ x : Expression, (∀ t ∈ x.tokens, t.Sound) → x.value.IsOperand
  | .mk first more => by
    intro h
    rw [Expression.tokens] at h
    obtain ⟨hfirst, hmore⟩ := List.forall_mem_append.mp h
    exact Expr.isOperand_chained (isOperand_ofTerm first hfirst) (isOperand_ofTerms more hmore)
      (.inl (terms_operators more))

theorem isOperand_ofTerms : ∀ x : Terms, (∀ t ∈ x.tokens, t.Sound) → ∀ y ∈ x.value, y.2.IsOperand
  | .nil => by
    intro _ y hy
    cases hy
  | .cons sign first more => by
    intro h
    rw [Terms.tokens] at h
    obtain ⟨hfirst, hmore⟩ := List.forall_mem_append.mp (List.forall_mem_cons.mp h).2
    exact List.forall_mem_cons.mpr ⟨isOperand_ofTerm first hfirst, isOperand_ofTerms more hmore⟩

theorem isOperand_ofTerm : ∀ x : Term, (∀ t ∈ x.tokens, t.Sound) → x.value.IsOperand
  | .mk first more => by
    intro h
    rw [Term.tokens] at h
    obtain ⟨hfirst, hmore⟩ := List.forall_mem_append.mp h
    exact Expr.isOperand_chained (isOperand_ofPrimary first hfirst)
      (isOperand_ofFactors more hmore) (.inr (factors_operators more))

theorem isOperand_ofFactors : ∀ x : Factors, (∀ t ∈ x.tokens, t.Sound) →
    ∀ y ∈ x.value, y.2.IsOperand
  | .nil => by
    intro _ y hy
    cases hy
  | .cons sign first more => by
    intro h
    rw [Factors.tokens] at h
    obtain ⟨hfirst, hmore⟩ := List.forall_mem_append.mp (List.forall_mem_cons.mp h).2
    exact List.forall_mem_cons.mpr
      ⟨isOperand_ofPrimary first hfirst, isOperand_ofFactors more hmore⟩

theorem isOperand_ofPrimary : ∀ x : Primary, (∀ t ∈ x.tokens, t.Sound) → x.value.IsOperand
  | .nested opening inner closing => by
    intro h
    rw [Primary.tokens] at h
    exact isOperand_ofExpression inner (List.forall_mem_append.mp (List.forall_mem_cons.mp h).2).1
  | .var name => by
    intro h
    exact ⟨isName_leaf name (h _ (by simp [Primary.tokens])), by simp [Primary.value]⟩
  | .call name opening arguments => by
    intro h
    simp only [Primary.tokens, List.forall_mem_cons] at h
    exact ⟨⟨isName_leaf name h.1, wellFormed_arguments arguments h.2.2⟩, by simp [Primary.value]⟩
  | .rollDice caret d => by
    intro h
    exact ⟨⟨.inl ⟨d.value, rfl⟩, wellFormed_diceLeaf d (h _ (by simp [Primary.tokens]))⟩,
      by simp [Primary.value]⟩
  | .rollVar caret name => by
    intro h
    exact ⟨⟨.inr ⟨name.token.value, rfl⟩, isName_leaf name (h _ (by simp [Primary.tokens]))⟩,
      by simp [Primary.value]⟩
  | .number n => by
    intro h
    exact ⟨isNatural_leaf n (h _ (by simp [Primary.tokens])), by simp [Primary.value]⟩
  | .dice d => by
    intro h
    exact ⟨wellFormed_diceLeaf d (h _ (by simp [Primary.tokens])), by simp [Primary.value]⟩

theorem wellFormed_arguments : ∀ x : Arguments, (∀ t ∈ x.tokens, t.Sound) →
    Expr.AllWellFormed x.value
  | .none _ => fun _ => trivial
  | .some arguments => fun h => wellFormed_moreArguments arguments h

theorem wellFormed_moreArguments : ∀ x : MoreArguments, (∀ t ∈ x.tokens, t.Sound) →
    Expr.AllWellFormed x.value
  | .last argument closing => by
    intro h
    rw [MoreArguments.tokens] at h
    exact ⟨wellFormed_assignable argument (List.forall_mem_append.mp h).1, trivial⟩
  | .cons argument comma more => by
    intro h
    simp only [MoreArguments.tokens, List.forall_mem_append, List.forall_mem_cons] at h
    exact ⟨wellFormed_assignable argument h.1, wellFormed_moreArguments more h.2.2⟩

/-- **What an assignable stands for is well-formed.** -/
theorem wellFormed_assignable : ∀ x : Assignable, (∀ t ∈ x.tokens, t.Sound) → x.value.WellFormed
  | .text _ => fun _ => trivial
  | .expression expression => fun h => (isOperand_ofExpression expression h).wellFormed

end

/-! ### Statements and functions -/

/-- A relation that is read is a known one. -/
theorem relationOf_ne_other (kind : Kind) (code : Int) : relationOf kind ≠ .other code := by
  unfold relationOf
  split <;> simp

/-- What a condition stands for is well-formed. -/
theorem wellFormed_condition (c : Condition) (h : ∀ t ∈ c.tokens, t.Sound) :
    c.value.WellFormed := by
  simp only [Condition.tokens, List.forall_mem_append, List.forall_mem_cons] at h
  exact ⟨wellFormed_assignable c.left h.2.1, relationOf_ne_other _,
    wellFormed_assignable c.right h.2.2.2.1⟩

mutual

/-- **What an instruction stands for is well-formed.** -/
theorem wellFormed_instruction : ∀ x : Instruction, (∀ t ∈ x.tokens, t.Sound) → x.value.WellFormed
  | .assign target sign value semicolon => by
    intro h
    simp only [Instruction.tokens, List.forall_mem_append, List.forall_mem_cons] at h
    exact ⟨one_le_line _ h.1, isName_leaf target h.1, wellFormed_assignable value h.2.2.1⟩
  | .call name opening arguments semicolon => by
    intro h
    simp only [Instruction.tokens, List.forall_mem_append, List.forall_mem_cons] at h
    exact ⟨one_le_line _ h.1, isName_leaf name h.1, wellFormed_arguments arguments h.2.2.1⟩
  | .declare type name semicolon => by
    intro h
    simp only [Instruction.tokens, List.forall_mem_cons] at h
    exact ⟨one_le_line _ h.1, isName_leaf type h.1, isName_leaf name h.2.1⟩
  | .attack attacker sign defender semicolon => by
    intro h
    simp only [Instruction.tokens, List.forall_mem_cons] at h
    exact ⟨one_le_line _ h.1, isName_leaf attacker h.1, isName_leaf defender h.2.2.1⟩
  | .loop word condition body => by
    intro h
    simp only [Instruction.tokens, List.forall_mem_append, List.forall_mem_cons] at h
    exact ⟨one_le_line _ h.1, wellFormed_condition condition h.2.1, Option.some_ne_none _,
      wellFormed_block body h.2.2⟩
  | .branch word condition body alternative => by
    intro h
    simp only [Instruction.tokens, List.forall_mem_append, List.forall_mem_cons] at h
    exact ⟨one_le_line _ h.1, wellFormed_condition condition h.2.1, Option.some_ne_none _,
      wellFormed_block body h.2.2.1, wellFormed_alternative alternative h.2.2.2⟩
  | .log mark value semicolon | .give mark value semicolon => by
    intro h
    simp only [Instruction.tokens, List.forall_mem_append, List.forall_mem_cons] at h
    exact ⟨one_le_line _ h.1, wellFormed_assignable value h.2.1⟩

theorem wellFormed_alternative : ∀ x : Alternative, (∀ t ∈ x.tokens, t.Sound) →
    Statement.BlockWellFormed x.value
  | .none => fun _ => trivial
  | .some word body => by
    intro h
    rw [Alternative.tokens] at h
    exact wellFormed_block body (List.forall_mem_cons.mp h).2

theorem wellFormed_block : ∀ x : Block, (∀ t ∈ x.tokens, t.Sound) →
    Statement.AllWellFormed x.value
  | .mk opening statements => by
    intro h
    rw [Block.tokens] at h
    exact wellFormed_statements statements (List.forall_mem_cons.mp h).2

theorem wellFormed_statements : ∀ x : Statements, (∀ t ∈ x.tokens, t.Sound) →
    Statement.AllWellFormed x.value
  | .nil _ => fun _ => trivial
  | .cons first more => by
    intro h
    rw [Statements.tokens] at h
    obtain ⟨hfirst, hmore⟩ := List.forall_mem_append.mp h
    exact ⟨wellFormed_instruction first hfirst, wellFormed_statements more hmore⟩

end

theorem isName_moreParameters : ∀ x : MoreParameters, (∀ t ∈ x.tokens, t.Sound) →
    ∀ name ∈ x.value, IsName name
  | .last name closing => by
    intro h
    simp only [MoreParameters.tokens, List.forall_mem_cons] at h
    exact List.forall_mem_singleton.mpr (isName_leaf name h.1)
  | .cons name comma more => by
    intro h
    simp only [MoreParameters.tokens, List.forall_mem_cons] at h
    exact List.forall_mem_cons.mpr ⟨isName_leaf name h.1, isName_moreParameters more h.2.2⟩

theorem isName_parameters : ∀ x : Parameters, (∀ t ∈ x.tokens, t.Sound) →
    ∀ name ∈ x.value, IsName name
  | .none _ => fun _ => List.forall_mem_nil _
  | .some parameters => fun h => isName_moreParameters parameters h

/-- What a function stands for is well-formed. -/
theorem wellFormed_function (f : Function) (h : ∀ t ∈ f.tokens, t.Sound) :
    f.value.WellFormed := by
  simp only [Function.tokens, List.forall_mem_append, List.forall_mem_cons] at h
  exact ⟨one_le_line _ h.1, isName_leaf f.name h.2.1, isName_parameters f.parameters h.2.2.2.1,
    Option.some_ne_none _, wellFormed_block f.body h.2.2.2.2⟩

/-! ### Templates -/

/-- A number among the fields of an item is natural. -/
theorem isNatural_number? (kind : Kind) : ∀ x : ItemFields, (∀ t ∈ x.tokens, t.Sound) →
    ∀ n, x.number? kind = some n → IsNatural n
  | .nil _ => by
    intro _ n hn
    cases hn
  | .number field colon l more => by
    intro h n hn
    simp only [ItemFields.tokens, List.forall_mem_cons] at h
    rw [ItemFields.number?, Option.or_eq_some_iff] at hn
    rcases hn with hn | ⟨-, hn⟩
    · exact isNatural_number? kind more h.2.2.2 n hn
    · obtain ⟨-, ⟨⟩⟩ := Option.ite_none_right_eq_some.mp hn
      exact isNatural_leaf l h.2.2.1
  | .desc field colon text more => by
    intro h n hn
    simp only [ItemFields.tokens, List.forall_mem_cons] at h
    exact isNatural_number? kind more h.2.2.2 n hn

/-- What an item stands for is well-formed. -/
theorem wellFormed_item (i : Item) (h : ∀ t ∈ i.tokens, t.Sound) : i.value.WellFormed := by
  simp only [Item.tokens, List.forall_mem_cons] at h
  refine ⟨one_le_line _ h.1, isName_leaf i.name h.2.1, fun n hn => ?_⟩
  have hfields := fun kind => isNatural_number? kind i.fields h.2.2.2 n
  simp only [Item.value, List.mem_cons, List.not_mem_nil, or_false, eq_comm (a := some n)] at hn
  rcases hn with hn | hn | hn | hn <;> exact hfields _ hn

/-- Growth that is read is some growth. -/
theorem increaseOf_ne_none (kind : Kind) : increaseOf kind ≠ .none := by
  unfold increaseOf
  split <;> simp

/-- Growth that is read is of a known kind. -/
theorem increaseOf_ne_other (kind : Kind) (code : Int) : increaseOf kind ≠ .other code := by
  unfold increaseOf
  split <;> simp

/-- What an attribute stands for is well-formed. -/
theorem wellFormed_stat (s : Stat) (h : ∀ t ∈ s.tokens, t.Sound) : s.value.WellFormed := by
  simp only [Stat.tokens, List.forall_mem_cons] at h
  have hbase := isNatural_leaf s.base h.1
  rcases hgrowth : s.growth with - | ⟨sign, amount⟩
  · simp only [Stat.value, hgrowth, Growth.value]
    exact ⟨hbase, by simp, by simp, by simp⟩
  · simp only [hgrowth, Growth.tokens, List.forall_mem_cons] at h
    simp only [Stat.value, hgrowth, Growth.value]
    refine ⟨hbase, fun code => ?_, ?_, fun _ => ?_⟩
    · exact increaseOf_ne_other _ code
    · have hgrows := increaseOf_ne_none sign.token.kind
      cases amount <;> simp [Amount.value, hgrows]
    · cases amount with
      | number n => exact ⟨.inl ⟨n.value, rfl⟩, isNatural_leaf n h.2.2.1⟩
      | dice d => exact ⟨.inr ⟨d.value, rfl⟩, wellFormed_diceLeaf d h.2.2.1⟩

/-- A quantity is natural. -/
theorem isNatural_quantity (q : Quantity) (h : ∀ t ∈ q.tokens, t.Sound) : IsNatural q.value := by
  cases q with
  | one => exact ⟨by decide, by decide⟩
  | many slash n => exact isNatural_leaf n (h _ (by simp [Quantity.tokens]))

/-- Stacks of items have names and natural quantities. -/
theorem wellFormed_stacks : ∀ x : Stacks, (∀ t ∈ x.tokens, t.Sound) →
    ∀ s ∈ x.value, s.WellFormed
  | .last name quantity => by
    intro h
    simp only [Stacks.tokens, List.forall_mem_cons] at h
    exact List.forall_mem_singleton.mpr ⟨isName_leaf name h.1, isNatural_quantity quantity h.2⟩
  | .cons name quantity and more => by
    intro h
    simp only [Stacks.tokens, List.forall_mem_append, List.forall_mem_cons] at h
    exact List.forall_mem_cons.mpr ⟨⟨isName_leaf name h.1, isNatural_quantity quantity h.2.1⟩,
      wellFormed_stacks more h.2.2.2⟩

/-- An attribute among the fields of a character is well-formed. -/
theorem wellFormed_stat? (kind : Kind) : ∀ x : CharacterFields, (∀ t ∈ x.tokens, t.Sound) →
    ∀ a, x.stat? kind = some a → a.WellFormed
  | .nil _ => by
    intro _ a ha
    cases ha
  | .stat field colon s more => by
    intro h a ha
    simp only [CharacterFields.tokens, List.forall_mem_append, List.forall_mem_cons] at h
    rw [CharacterFields.stat?, Option.or_eq_some_iff] at ha
    rcases ha with ha | ⟨-, ha⟩
    · exact wellFormed_stat? kind more h.2.2.2 a ha
    · obtain ⟨-, ⟨⟩⟩ := Option.ite_none_right_eq_some.mp ha
      exact wellFormed_stat s h.2.2.1
  | .carried field colon s more => by
    intro h a ha
    simp only [CharacterFields.tokens, List.forall_mem_append, List.forall_mem_cons] at h
    exact wellFormed_stat? kind more h.2.2.2 a ha

/-- Stacks of items among the fields of a character are well-formed. -/
theorem wellFormed_stacks? (kind : Kind) : ∀ x : CharacterFields, (∀ t ∈ x.tokens, t.Sound) →
    ∀ s ∈ (x.stacks? kind).getD [], s.WellFormed
  | .nil _ => by
    intro _ s hs
    cases hs
  | .stat field colon a more => by
    intro h
    simp only [CharacterFields.tokens, List.forall_mem_append, List.forall_mem_cons] at h
    exact wellFormed_stacks? kind more h.2.2.2
  | .carried field colon carried more => by
    intro h
    simp only [CharacterFields.tokens, List.forall_mem_append, List.forall_mem_cons] at h
    have hmore := wellFormed_stacks? kind more h.2.2.2
    rw [CharacterFields.stacks?]
    cases hstacks : more.stacks? kind with
    | some later => simpa [hstacks] using hmore
    | none =>
      rw [Option.none_or]
      split
      · exact wellFormed_stacks carried h.2.2.1
      · exact List.forall_mem_nil _

/-- What a character stands for is well-formed. -/
theorem wellFormed_character (c : Character) (h : ∀ t ∈ c.tokens, t.Sound) :
    c.value.WellFormed := by
  simp only [Character.tokens, List.forall_mem_cons] at h
  have hstacks := fun kind => wellFormed_stacks? kind c.fields h.2.2.2
  refine ⟨one_le_line _ h.1, isName_leaf c.name h.2.1, fun a ha => ?_, ?_⟩
  · have hstats := fun kind => wellFormed_stat? kind c.fields h.2.2.2 a
    simp only [Character.value, List.mem_cons, List.not_mem_nil, or_false,
      eq_comm (a := some a)] at ha
    rcases ha with ha | ha | ha | ha | ha | ha <;> exact hstats _ ha
  · simp only [Character.value, List.forall_mem_append]
    exact ⟨⟨hstacks .equipped, hstacks .inventory⟩, hstacks .reward⟩

/-! ### Programs -/

/-- A part with sound tokens keeps a program well-formed. -/
theorem wellFormed_addTo (part : Part) (h : ∀ t ∈ part.tokens, t.Sound) {p : Adventure.Program}
    (hp : p.WellFormed) : (part.addTo p).WellFormed := by
  cases part with
  | item i =>
    exact ⟨List.forall_mem_cons.mpr ⟨wellFormed_item i h, hp.templates⟩, hp.functions,
      hp.instructions⟩
  | character c =>
    exact ⟨List.forall_mem_cons.mpr ⟨wellFormed_character c h, hp.templates⟩, hp.functions,
      hp.instructions⟩
  | function f =>
    exact ⟨hp.templates, List.forall_mem_cons.mpr ⟨wellFormed_function f h, hp.functions⟩,
      hp.instructions⟩
  | instruction i =>
    exact ⟨hp.templates, hp.functions,
      List.forall_mem_cons.mpr ⟨wellFormed_instruction i h, hp.instructions⟩⟩

/-- **What a derivation with sound tokens stands for is well-formed.** -/
theorem wellFormed_program (d : Program) (h : ∀ t ∈ d.tokens, t.Sound) : d.value.WellFormed := by
  induction d with
  | nil => exact ⟨List.forall_mem_nil _, List.forall_mem_nil _, List.forall_mem_nil _⟩
  | cons part d ih =>
    have htokens : Program.tokens (part :: d) = part.tokens ++ Program.tokens d := by
      simp [Program.tokens]
    rw [htokens, List.forall_mem_append] at h
    exact wellFormed_addTo part h.1 (ih h.2)

end Grammar

/-! ## What is read -/

/-- A source whose stream fails is not read to an end. -/
theorem Source.failure_tokens_ne_none {s : Source} (h : s.failure ≠ none) :
    s.tokens.failure ≠ none := by
  induction hn : s.rest.length using Nat.strong_induction_on generalizing s with
  | _ n ih =>
    obtain ⟨gap, front, hs, hgap, hfront⟩ := front_cases s.rest
    rcases hfront with rfl | ⟨kind, value, lexeme, after, rfl, hlexeme, hhalt⟩ |
      ⟨count, mark, after, rfl, hdice⟩ | ⟨body, rfl, hbody⟩
    · -- only blanks are left, so that the failure shows
      obtain ⟨text, htext⟩ := Option.ne_none_iff_exists'.mp h
      have hhere : (s.advance gap).rest = [] := rest_advance_append hs
      have htoken : s.token =
          (.error (.unreadable text (s.advance gap).position), s.advance gap) := by
        rw [token, skip_isBlank hs hgap halts_nil, tokenHere, hhere]
        simp only [failure_advance, htext]
      rw [tokens_of_error htoken]
      simp
    -- a token is read, and there is less to read behind it
    · rw [← List.append_assoc] at hs
      rw [tokens_of_ok (token_of_lexeme hlexeme hs hgap hhalt) hlexeme.kind_ne]
      obtain ⟨x, xs, rfl, -⟩ := hlexeme.exists_cons
      have hrest : (s.advance (gap ++ x :: xs)).rest = after := rest_advance_append hs
      have hlt : (s.advance (gap ++ x :: xs)).rest.length < n := by
        rw [hrest, ← hn, hs]
        simp only [List.length_append, List.length_cons]
        omega
      exact ih _ hlt h rfl
    · rw [tokens_of_error (token_of_loneDice hdice hs hgap)]
      simp
    · rw [tokens_of_error (token_of_openText hs hgap hbody)]
      simp

/-- The tokens of a source that is read to its end are sound. -/
theorem Source.sound_of_mem_tokens {cs : List Char} {failure : Option String}
    (h : (Source.ofChars cs failure).tokens.failure = none) :
    ∀ t ∈ (Source.ofChars cs failure).tokens.items, t.Sound := by
  rcases failure with - | text
  · obtain ⟨before, rest, hlexed, -⟩ := splits_tokens cs
    exact fun t ht => ⟨hlexed.spelled t ht, hlexed.one_le_line t ht⟩
  · exact absurd h (Source.failure_tokens_ne_none (Option.some_ne_none text))

/-- Where reading fails, what is left of the tokens stands at their end. -/
theorem Parsing.rest_suffix_of_error {ts : List Token} {e : Refusal} (h : program ts = .error e) :
    e.rest <:+ ts := by
  have hbehind : ∀ (before : List Token) (got : Token) (rest : List Token),
      rest <:+ before ++ got :: rest := fun before got rest =>
    (List.suffix_cons got rest).trans (List.suffix_append before _)
  cases program_refused h with
  | inside h =>
    cases h with
    | ended => exact List.nil_suffix
    | blamed => exact hbehind _ _ _
  | between d rest => exact hbehind _ _ _

/-- Reading leaves a rear part of the tokens, and what is behind them. -/
theorem Tokens.parse_left (ts : Tokens) :
    ts.parse.2.failure = ts.failure ∧ ts.parse.2.items <:+ ts.items := by
  unfold Tokens.parse
  split
  · split <;> exact ⟨rfl, List.nil_suffix⟩
  · next hprogram => exact ⟨rfl, rest_suffix_of_error hprogram⟩

/-- What can be left of the tokens `ts` after any number of readings, each of which goes on where
the one before has stopped. -/
inductive Tokens.LeftOf (ts : Tokens) : Tokens → Prop where
  | all : LeftOf ts ts
  | next {us : Tokens} (h : LeftOf ts us) : LeftOf ts us.parse.2

/-- What is left after readings ends as the tokens do and stands at their end. -/
theorem Tokens.LeftOf.kept {ts us : Tokens} (h : ts.LeftOf us) :
    us.failure = ts.failure ∧ us.items <:+ ts.items := by
  induction h with
  | all => exact ⟨rfl, List.suffix_rfl⟩
  | @next us _ ih =>
    obtain ⟨hfailure, hitems⟩ := us.parse_left
    exact ⟨hfailure.trans ih.1, hitems.trans ih.2⟩

/-- The program was read from some source, by its first reading or by a later one. -/
def Program.IsRead (p : Program) : Prop :=
  ∃ cs failure ts, (Source.ofChars cs failure).tokens.LeftOf ts ∧ ts.parse.1 = .ok p

/-- What the parser makes of a text was read. -/
theorem Program.isRead_of_parse {text : String} {p : Program}
    (h : (Source.ofString text).parse = .ok p) : p.IsRead :=
  ⟨text.toList, none, _, .all, h⟩

/-- A program that is read is what a derivation with sound tokens stands for. -/
theorem Program.IsRead.exists_tree {p : Program} (h : p.IsRead) :
    ∃ d : Grammar.Program, (∀ t ∈ d.tokens, t.Sound) ∧ d.value = p := by
  obtain ⟨cs, failure, ts, hleft, hparse⟩ := h
  obtain ⟨hend, hprogram⟩ := (ts.parse_eq_ok_iff p).mp hparse
  obtain ⟨hfailure, hitems⟩ := hleft.kept
  obtain ⟨d, hd, hvalue⟩ := exists_derivation hprogram
  refine ⟨d, fun t ht => ?_, hvalue⟩
  rw [hd] at ht
  exact Source.sound_of_mem_tokens (hfailure.symm.trans hend) t (hitems.subset ht)

/-- **Programs that are read are well-formed.** -/
theorem Program.IsRead.wellFormed {p : Program} (h : p.IsRead) : p.WellFormed := by
  obtain ⟨d, hsound, rfl⟩ := h.exists_tree
  exact Grammar.wellFormed_program d hsound

end Adventure
