import Adventure.Syntax
import Adventure.Token
import Adventure.Text.Numeral

/-!
# The grammar

The rules of the language, as types of derivation trees: a type for each notion of the grammar and
a constructor for each way to derive it. The leaves of a tree are tokens, so a tree has the tokens
it derives (`tokens`) and what it stands for (`value`).

    program     := (item | character | function | instruction)*
    item        := 'item' ID '{' ((health | attack | defence | value) ':' NUM | desc ':' STR)* '}'
    character   := 'character' ID '{' (attribute ':' stat | carried ':' stacks)* '}'
    stat        := NUM [('+=' | '*=') (NUM | DICE)]
    stacks      := stack ('&' stack)*                 stack := ID ['/' NUM]
    function    := 'function' ID '(' [ID (',' ID)*] ')' block
    block       := '{' instruction* '}'
    instruction := ID '=' assignable ';' | ID '(' [assignable (',' assignable)*] ')' ';'
                 | ID ID ';' | ID '>>' ID ';' | 'while' condition block
                 | 'if' condition block ['else' block] | '?' assignable ';'
                 | 'return' assignable ';'
    condition   := '(' assignable relation assignable ')'
    assignable  := STR | expression
    expression  := term (('+' | '-') term)*
    term        := primary (('*' | '/') primary)*
    primary     := '(' expression ')' | ID | ID '(' [assignable (',' assignable)*] ')'
                 | '^' (DICE | ID) | NUM | DICE

A repetition `X*` is a type of its own with an empty tree and a tree for one more, up to and with
the closing bracket where there is one. The trees say nothing about how they are found in a list of
tokens, and nothing that reads tokens is used here: which operator a sign stands for, which fields a
template has and what line a statement is on are told from the tree alone.
-/

namespace Adventure.Grammar

open Text

/-! ## Leaves -/

/-- A token of one of the kinds. -/
structure Leaf (kinds : List Kind) where
  token : Token
  mem : token.kind ∈ kinds

/-- A number that fits. -/
structure NumberLeaf where
  token : Token
  kind_eq : token.kind = .numberLiteral
  value : Int64
  fits : Numeral.decimal token.value = .ok value

/-- Dice are written as their count, a `d` and their faces. -/
def IsDiceText (text count faces : String) : Prop :=
  text = count ++ "d" ++ faces ∧ 'd' ∉ count.toList

/-- Dice whose two numbers fit. -/
structure DiceLeaf where
  token : Token
  kind_eq : token.kind = .diceLiteral
  value : Dice
  fits : ∃ count faces, IsDiceText token.value count faces ∧
    Numeral.decimal count = .ok value.count ∧ Numeral.decimal faces = .ok value.faces

/-- The line that a leaf stands on. -/
def Leaf.line {kinds : List Kind} (l : Leaf kinds) : Int :=
  l.token.position.line

/-- The operator that a sign between terms or factors stands for. -/
def arithOpOf : Kind → ArithOp
  | .plus => .add
  | .minus => .sub
  | .asterisk => .mul
  | _ => .div

/-- The signs of comparisons. -/
def relations : List Kind :=
  [.lessThan, .moreThan, .lessOrEqual, .moreOrEqual, .equals]

/-- The comparison that a sign stands for. -/
def relationOf : Kind → CompareOp
  | .lessThan => .less
  | .moreThan => .greater
  | .lessOrEqual => .lessEqual
  | .moreOrEqual => .greaterEqual
  | _ => .equal

/-- The growth that a sign stands for. -/
def increaseOf : Kind → Increase
  | .multipliesBy => .multiply
  | _ => .add

/-- An operand with further operands behind it, each behind its operator. They make one flat chain,
and an operand by itself is no chain. -/
def chained (first : Expr) (more : List (ArithOp × Expr)) : Expr :=
  if more.isEmpty then first else .chain (first :: more.map Prod.snd) (more.map Prod.fst)

@[simp] theorem chained_nil (first : Expr) : chained first [] = first := rfl

theorem chained_of_ne_nil (first : Expr) {more : List (ArithOp × Expr)} (h : more ≠ []) :
    chained first more = .chain (first :: more.map Prod.snd) (more.map Prod.fst) := by
  rw [chained, if_neg (mt List.isEmpty_iff.mp h)]

/-! ## Expressions -/

mutual

/-- A sum of terms. -/
inductive Expression where
  | mk (first : Term) (more : Terms)

/-- The terms of a sum after the first one. -/
inductive Terms where
  | nil
  | cons (sign : Leaf [.plus, .minus]) (first : Term) (more : Terms)

/-- A product of operands. -/
inductive Term where
  | mk (first : Primary) (more : Factors)

/-- The factors of a product after the first one. -/
inductive Factors where
  | nil
  | cons (sign : Leaf [.asterisk, .slash]) (first : Primary) (more : Factors)

/-- An operand. -/
inductive Primary where
  | nested (opening : Leaf [.roundOpen]) (inner : Expression) (closing : Leaf [.roundClose])
  | var (name : Leaf [.identifier])
  | call (name : Leaf [.identifier]) (opening : Leaf [.roundOpen]) (arguments : Arguments)
  | rollDice (caret : Leaf [.caret]) (dice : DiceLeaf)
  | rollVar (caret : Leaf [.caret]) (name : Leaf [.identifier])
  | number (number : NumberLeaf)
  | dice (dice : DiceLeaf)

/-- The arguments of a call, up to and with the closing parenthesis. -/
inductive Arguments where
  | none (closing : Leaf [.roundClose])
  | some (arguments : MoreArguments)

/-- At least one argument, up to and with the closing parenthesis. -/
inductive MoreArguments where
  | last (argument : Assignable) (closing : Leaf [.roundClose])
  | cons (argument : Assignable) (comma : Leaf [.comma]) (more : MoreArguments)

/-- A text or a sum. -/
inductive Assignable where
  | text (text : Leaf [.stringLiteral])
  | expression (expression : Expression)

end

mutual

/-- The tokens of a sum. -/
def Expression.tokens : Expression → List Token
  | .mk first more => first.tokens ++ more.tokens

/-- The tokens of further terms. -/
def Terms.tokens : Terms → List Token
  | .nil => []
  | .cons sign first more => sign.token :: (first.tokens ++ more.tokens)

/-- The tokens of a product. -/
def Term.tokens : Term → List Token
  | .mk first more => first.tokens ++ more.tokens

/-- The tokens of further factors. -/
def Factors.tokens : Factors → List Token
  | .nil => []
  | .cons sign first more => sign.token :: (first.tokens ++ more.tokens)

/-- The tokens of an operand. -/
def Primary.tokens : Primary → List Token
  | .nested opening inner closing => opening.token :: (inner.tokens ++ [closing.token])
  | .var name => [name.token]
  | .call name opening arguments => name.token :: opening.token :: arguments.tokens
  | .rollDice caret dice => [caret.token, dice.token]
  | .rollVar caret name => [caret.token, name.token]
  | .number number => [number.token]
  | .dice dice => [dice.token]

/-- The tokens of arguments. -/
def Arguments.tokens : Arguments → List Token
  | .none closing => [closing.token]
  | .some arguments => arguments.tokens

/-- The tokens of at least one argument. -/
def MoreArguments.tokens : MoreArguments → List Token
  | .last argument closing => argument.tokens ++ [closing.token]
  | .cons argument comma more => argument.tokens ++ comma.token :: more.tokens

/-- The tokens of a text or a sum. -/
def Assignable.tokens : Assignable → List Token
  | .text text => [text.token]
  | .expression expression => expression.tokens

end

mutual

/-- The expression that a sum stands for. -/
def Expression.value : Expression → Expr
  | .mk first more => chained first.value more.value

/-- The operators and operands of further terms. -/
def Terms.value : Terms → List (ArithOp × Expr)
  | .nil => []
  | .cons sign first more => (arithOpOf sign.token.kind, first.value) :: more.value

/-- The expression that a product stands for. -/
def Term.value : Term → Expr
  | .mk first more => chained first.value more.value

/-- The operators and operands of further factors. -/
def Factors.value : Factors → List (ArithOp × Expr)
  | .nil => []
  | .cons sign first more => (arithOpOf sign.token.kind, first.value) :: more.value

/-- The expression that an operand stands for. Parentheses leave no trace. -/
def Primary.value : Primary → Expr
  | .nested _ inner _ => inner.value
  | .var name => .var name.token.value
  | .call name _ arguments => .call name.token.value arguments.value
  | .rollDice _ dice => .roll (.dice dice.value)
  | .rollVar _ name => .roll (.var name.token.value)
  | .number number => .number number.value
  | .dice dice => .dice dice.value

/-- The expressions that arguments stand for. -/
def Arguments.value : Arguments → List Expr
  | .none _ => []
  | .some arguments => arguments.value

/-- The expressions that at least one argument stands for. -/
def MoreArguments.value : MoreArguments → List Expr
  | .last argument _ => [argument.value]
  | .cons argument _ more => argument.value :: more.value

/-- The expression that a text or a sum stands for. -/
def Assignable.value : Assignable → Expr
  | .text text => .text text.token.value
  | .expression expression => expression.value

end

/-! ## Instructions and functions -/

/-- A comparison in its parentheses. -/
structure Condition where
  opening : Leaf [.roundOpen]
  left : Assignable
  sign : Leaf relations
  right : Assignable
  closing : Leaf [.roundClose]

mutual

/-- An instruction. -/
inductive Instruction where
  | assign (target : Leaf [.identifier]) (sign : Leaf [.assign]) (value : Assignable)
      (semicolon : Leaf [.semicolon])
  | call (name : Leaf [.identifier]) (opening : Leaf [.roundOpen]) (arguments : Arguments)
      (semicolon : Leaf [.semicolon])
  | declare (type name : Leaf [.identifier]) (semicolon : Leaf [.semicolon])
  | attack (attacker : Leaf [.identifier]) (sign : Leaf [.attackMove])
      (defender : Leaf [.identifier]) (semicolon : Leaf [.semicolon])
  | loop (word : Leaf [.whileWord]) (condition : Condition) (body : Block)
  | branch (word : Leaf [.ifWord]) (condition : Condition) (body : Block)
      (alternative : Alternative)
  | log (mark : Leaf [.questionMark]) (value : Assignable) (semicolon : Leaf [.semicolon])
  | give (word : Leaf [.returnWord]) (value : Assignable) (semicolon : Leaf [.semicolon])

/-- The alternative of a branch. -/
inductive Alternative where
  | none
  | some (word : Leaf [.elseWord]) (body : Block)

/-- A block in its braces. -/
inductive Block where
  | mk (opening : Leaf [.curlyOpen]) (statements : Statements)

/-- The instructions of a block, up to and with the closing brace. -/
inductive Statements where
  | nil (closing : Leaf [.curlyClose])
  | cons (first : Instruction) (more : Statements)

end

/-- At least one parameter, up to and with the closing parenthesis. -/
inductive MoreParameters where
  | last (name : Leaf [.identifier]) (closing : Leaf [.roundClose])
  | cons (name : Leaf [.identifier]) (comma : Leaf [.comma]) (more : MoreParameters)

/-- The parameters of a function, up to and with the closing parenthesis. -/
inductive Parameters where
  | none (closing : Leaf [.roundClose])
  | some (parameters : MoreParameters)

/-- A function. -/
structure Function where
  word : Leaf [.function]
  name : Leaf [.identifier]
  opening : Leaf [.roundOpen]
  parameters : Parameters
  body : Block

/-- The tokens of a condition. -/
def Condition.tokens (c : Condition) : List Token :=
  c.opening.token :: (c.left.tokens ++ c.sign.token :: (c.right.tokens ++ [c.closing.token]))

mutual

/-- The tokens of an instruction. -/
def Instruction.tokens : Instruction → List Token
  | .assign target sign value semicolon =>
    target.token :: sign.token :: (value.tokens ++ [semicolon.token])
  | .call name opening arguments semicolon =>
    name.token :: opening.token :: (arguments.tokens ++ [semicolon.token])
  | .declare type name semicolon => [type.token, name.token, semicolon.token]
  | .attack attacker sign defender semicolon =>
    [attacker.token, sign.token, defender.token, semicolon.token]
  | .loop word condition body => word.token :: (condition.tokens ++ body.tokens)
  | .branch word condition body alternative =>
    word.token :: (condition.tokens ++ (body.tokens ++ alternative.tokens))
  | .log mark value semicolon => mark.token :: (value.tokens ++ [semicolon.token])
  | .give word value semicolon => word.token :: (value.tokens ++ [semicolon.token])

/-- The tokens of an alternative. -/
def Alternative.tokens : Alternative → List Token
  | .none => []
  | .some word body => word.token :: body.tokens

/-- The tokens of a block. -/
def Block.tokens : Block → List Token
  | .mk opening statements => opening.token :: statements.tokens

/-- The tokens of the instructions of a block. -/
def Statements.tokens : Statements → List Token
  | .nil closing => [closing.token]
  | .cons first more => first.tokens ++ more.tokens

end

/-- The tokens of at least one parameter. -/
def MoreParameters.tokens : MoreParameters → List Token
  | .last name closing => [name.token, closing.token]
  | .cons name comma more => name.token :: comma.token :: more.tokens

/-- The tokens of parameters. -/
def Parameters.tokens : Parameters → List Token
  | .none closing => [closing.token]
  | .some parameters => parameters.tokens

/-- The tokens of a function. -/
def Function.tokens (f : Function) : List Token :=
  f.word.token :: f.name.token :: f.opening.token :: (f.parameters.tokens ++ f.body.tokens)

/-- The comparison that a condition stands for. -/
def Condition.value (c : Condition) : Adventure.Condition :=
  ⟨c.left.value, relationOf c.sign.token.kind, c.right.value⟩

mutual

/-- The statement that an instruction stands for. -/
def Instruction.value : Instruction → Statement
  | .assign target _ value _ => .assign target.line target.token.value value.value
  | .call name _ arguments _ => .call name.line name.token.value arguments.value
  | .declare type name _ => .declare type.line type.token.value name.token.value
  | .attack attacker _ defender _ =>
    .attack attacker.line attacker.token.value defender.token.value
  | .loop word condition body => .loop word.line condition.value (some body.value)
  | .branch word condition body alternative =>
    .branch word.line condition.value (some body.value) alternative.value
  | .log mark value _ => .log mark.line value.value
  | .give word value _ => .give word.line value.value

/-- The statements of an alternative, if there is one. -/
def Alternative.value : Alternative → Option (List Statement)
  | .none => none
  | .some _ body => some body.value

/-- The statements of a block. -/
def Block.value : Block → List Statement
  | .mk _ statements => statements.value

/-- The statements that the instructions of a block stand for. -/
def Statements.value : Statements → List Statement
  | .nil _ => []
  | .cons first more => first.value :: more.value

end

/-- The names of at least one parameter. -/
def MoreParameters.value : MoreParameters → List String
  | .last name _ => [name.token.value]
  | .cons name _ more => name.token.value :: more.value

/-- The names of parameters. -/
def Parameters.value : Parameters → List String
  | .none _ => []
  | .some parameters => parameters.value

/-- The function that is defined. -/
def Function.value (f : Function) : Adventure.Function :=
  ⟨f.word.line, f.name.token.value, f.parameters.value, some f.body.value⟩

/-! ## Templates -/

/-- The fields of an item, up to and with the closing brace. -/
inductive ItemFields where
  | nil (closing : Leaf [.curlyClose])
  | number (field : Leaf [.health, .attack, .defence, .value]) (colon : Leaf [.colon])
      (number : NumberLeaf) (more : ItemFields)
  | desc (field : Leaf [.desc]) (colon : Leaf [.colon]) (text : Leaf [.stringLiteral])
      (more : ItemFields)

/-- A template for items. -/
structure Item where
  word : Leaf [.item]
  name : Leaf [.identifier]
  opening : Leaf [.curlyOpen]
  fields : ItemFields

/-- By how much an attribute grows. -/
inductive Amount where
  | number (number : NumberLeaf)
  | dice (dice : DiceLeaf)

/-- How an attribute grows. -/
inductive Growth where
  | none
  | some (sign : Leaf [.increasesBy, .multipliesBy]) (amount : Amount)

/-- An attribute of a character. -/
structure Stat where
  base : NumberLeaf
  growth : Growth

/-- How many items are in a stack. -/
inductive Quantity where
  | one
  | many (slash : Leaf [.slash]) (number : NumberLeaf)

/-- Stacks of items. -/
inductive Stacks where
  | last (name : Leaf [.identifier]) (quantity : Quantity)
  | cons (name : Leaf [.identifier]) (quantity : Quantity) (and : Leaf [.and]) (more : Stacks)

/-- The fields of a character, up to and with the closing brace. -/
inductive CharacterFields where
  | nil (closing : Leaf [.curlyClose])
  | stat (field : Leaf [.health, .attack, .defence, .level, .reqexp, .exp])
      (colon : Leaf [.colon]) (stat : Stat) (more : CharacterFields)
  | carried (field : Leaf [.equipped, .inventory, .reward]) (colon : Leaf [.colon])
      (content : Stacks) (more : CharacterFields)

/-- A template for characters. -/
structure Character where
  word : Leaf [.character]
  name : Leaf [.identifier]
  opening : Leaf [.curlyOpen]
  fields : CharacterFields

/-- The tokens of fields. -/
def ItemFields.tokens : ItemFields → List Token
  | .nil closing => [closing.token]
  | .number field colon n more => field.token :: colon.token :: n.token :: more.tokens
  | .desc field colon text more => field.token :: colon.token :: text.token :: more.tokens

/-- The tokens of an item. -/
def Item.tokens (i : Item) : List Token :=
  i.word.token :: i.name.token :: i.opening.token :: i.fields.tokens

/-- The token of an amount. -/
def Amount.token : Amount → Token
  | .number n => n.token
  | .dice d => d.token

/-- The tokens of a growth rule. -/
def Growth.tokens : Growth → List Token
  | .none => []
  | .some sign amount => [sign.token, amount.token]

/-- The tokens of an attribute. -/
def Stat.tokens (s : Stat) : List Token :=
  s.base.token :: s.growth.tokens

/-- The tokens of a quantity. -/
def Quantity.tokens : Quantity → List Token
  | .one => []
  | .many slash number => [slash.token, number.token]

/-- The tokens of stacks. -/
def Stacks.tokens : Stacks → List Token
  | .last name quantity => name.token :: quantity.tokens
  | .cons name quantity and more => name.token :: (quantity.tokens ++ and.token :: more.tokens)

/-- The tokens of fields. -/
def CharacterFields.tokens : CharacterFields → List Token
  | .nil closing => [closing.token]
  | .stat field colon s more => field.token :: colon.token :: (s.tokens ++ more.tokens)
  | .carried field colon s more => field.token :: colon.token :: (s.tokens ++ more.tokens)

/-- The tokens of a character. -/
def Character.tokens (c : Character) : List Token :=
  c.word.token :: c.name.token :: c.opening.token :: c.fields.tokens

/-- The number that is written for a field, if there is one; of several the last counts. -/
def ItemFields.number? (kind : Kind) : ItemFields → Option Int64
  | .nil _ => none
  | .number field _ n more =>
    (more.number? kind).or (if field.token.kind = kind then some n.value else none)
  | .desc _ _ _ more => more.number? kind

/-- The description that is written, if there is one; of several the last counts. -/
def ItemFields.desc? : ItemFields → Option String
  | .nil _ => none
  | .number _ _ _ more => more.desc?
  | .desc _ _ text more => more.desc?.or (some text.token.value)

/-- The template that an item stands for. -/
def Item.value (i : Item) : Adventure.Item where
  line := i.word.line
  name := i.name.token.value
  desc := i.fields.desc?
  value := i.fields.number? .value
  health := i.fields.number? .health
  attack := i.fields.number? .attack
  defence := i.fields.number? .defence

/-- The expression that an amount stands for. -/
def Amount.value : Amount → Expr
  | .number n => .number n.value
  | .dice d => .dice d.value

/-- The attribute that starts at `base` and grows like this. -/
def Growth.value (base : Int64) : Growth → Attribute
  | .none => ⟨base, .none, .hole⟩
  | .some sign amount => ⟨base, increaseOf sign.token.kind, amount.value⟩

/-- The attribute that is written. -/
def Stat.value (s : Stat) : Attribute :=
  s.growth.value s.base.value

/-- The quantity that is written; it is one if nothing is. -/
def Quantity.value : Quantity → Int64
  | .one => 1
  | .many _ number => number.value

/-- The stacks that are written. -/
def Stacks.value : Stacks → List Stack
  | .last name quantity => [⟨name.token.value, quantity.value⟩]
  | .cons name quantity _ more => ⟨name.token.value, quantity.value⟩ :: more.value

/-- The attribute that is written for a field, if there is one; of several the last counts. -/
def CharacterFields.stat? (kind : Kind) : CharacterFields → Option Attribute
  | .nil _ => none
  | .stat field _ s more =>
    (more.stat? kind).or (if field.token.kind = kind then some s.value else none)
  | .carried _ _ _ more => more.stat? kind

/-- The stacks that are written for a field, if there are any; of several the last count. -/
def CharacterFields.stacks? (kind : Kind) : CharacterFields → Option (List Stack)
  | .nil _ => none
  | .stat _ _ _ more => more.stacks? kind
  | .carried field _ s more =>
    (more.stacks? kind).or (if field.token.kind = kind then some s.value else none)

/-- The template that a character stands for. It carries nothing where nothing is written. -/
def Character.value (c : Character) : Adventure.Character where
  line := c.word.line
  name := c.name.token.value
  level := c.fields.stat? .level
  reqexp := c.fields.stat? .reqexp
  exp := c.fields.stat? .exp
  health := c.fields.stat? .health
  attack := c.fields.stat? .attack
  defence := c.fields.stat? .defence
  equipped := (c.fields.stacks? .equipped).getD []
  inventory := (c.fields.stacks? .inventory).getD []
  reward := (c.fields.stacks? .reward).getD []

/-! ## Programs -/

/-- A part of a program. -/
inductive Part where
  | item (item : Item)
  | character (character : Character)
  | function (function : Function)
  | instruction (instruction : Instruction)

/-- The tokens of a part. -/
def Part.tokens : Part → List Token
  | .item i => i.tokens
  | .character c => c.tokens
  | .function f => f.tokens
  | .instruction i => i.tokens

/-- The program with one more part in front. -/
def Part.addTo (p : Adventure.Program) : Part → Adventure.Program
  | .item i => { p with templates := .item i.value :: p.templates }
  | .character c => { p with templates := .character c.value :: p.templates }
  | .function f => { p with functions := f.value :: p.functions }
  | .instruction i => { p with instructions := i.value :: p.instructions }

/-- A program is any number of parts. -/
abbrev Program : Type :=
  List Part

/-- The tokens of a program. -/
def Program.tokens (d : Program) : List Token :=
  d.flatMap Part.tokens

/-- The program that is written: its templates, functions and instructions, each in their order. -/
def Program.value (d : Program) : Adventure.Program :=
  d.foldr (fun part p => part.addTo p) ⟨[], [], []⟩

end Adventure.Grammar
