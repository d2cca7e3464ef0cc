import Adventure.Proofs.Reading.Expression

/-!
# Reading instructions and functions exactly

Instructions hold blocks and blocks hold instructions, so their readers are exact together
(`StatementsExact`), on top of the readers of expressions. Only an instruction cares about what
follows it: an `else` behind a branch belongs to it.
-/

namespace Adventure.Parsing

open Text Grammar

/-! ## The readers as forms -/

/-- The signs that are read as comparisons are those of the grammar. -/
theorem comparisons_eq_relations : comparisons = relations := rfl

/-- A sign is read as the comparison that it stands for. -/
theorem compareOpOf_eq_relationOf (kind : Kind) : compareOpOf kind = relationOf kind := by
  cases kind <;> rfl

/-- A condition compares two values in parentheses. -/
theorem reads_condition :
    reads condition = (reads (accept [.roundOpen])).bind fun _ =>
      (reads assignable).bind fun left =>
        (reads (accept relations)).bind fun op => (reads assignable).bind fun right =>
        (reads (accept [.roundClose])).bind fun _ =>
          Reader.give ⟨left, relationOf op.kind, right⟩ := by
  funext ts
  rw [reads, condition]
  simp only [comparisons_eq_relations, compareOpOf_eq_relationOf]
  exact forget_bind rfl fun _ _ => forget_bind rfl fun _ _ => forget_bind rfl fun _ _ =>
    forget_bind rfl fun _ _ => forget_bind rfl fun _ _ => rfl

/-- What follows the name at the start of an instruction and the token `t` after it. -/
def afterName (line : Int) (first : String) (t : Token) : Reader Statement :=
  if t.kind = .assign then
    (reads assignable).bind fun value => Reader.give (.assign line first value)
  else if t.kind = .roundOpen then
    (reads arguments).bind fun args => Reader.give (.call line first args)
  else if t.kind = .identifier then Reader.give (.declare line first t.value)
  else (reads (accept [.identifier])).bind fun d => Reader.give (.attack line first d.value)

/-- What an instruction does that begins with a name shows in the token behind the name. -/
theorem reads_namedInstruction (line : Int) (first : String) :
    reads (namedInstruction line first) =
      Reader.take afterIdentifier literalOf fun t _ => afterName line first t := by
  funext ts
  rw [reads, namedInstruction]
  refine forget_accept_of_plain (by decide) fun t r ht => ?_
  simp only [afterIdentifier, List.mem_cons, List.not_mem_nil, or_false] at ht
  rcases ht with hk | hk | hk | hk <;>
    simp only [afterName, hk, reduceCtorEq, if_true, if_false]
  · exact forget_bind rfl fun _ _ => rfl
  · exact forget_bind rfl fun _ _ => rfl
  · rfl
  · exact forget_bind rfl fun _ _ => rfl

section Instruction

variable {t : Token}

/-- An instruction that begins with a name ends with a semicolon. -/
theorem reads_instruction_of_name (hk : t.kind = .identifier) :
    reads (instruction t) = (reads (namedInstruction (lineOf t) t.value)).bind fun s =>
      (reads (accept [.semicolon])).bind fun _ => Reader.give s := by
  funext ts
  rw [reads, instruction]
  simp only [hk]
  exact forget_bind rfl fun _ _ => forget_bind rfl fun _ _ => rfl

/-- A loop has a condition and a body. -/
theorem reads_instruction_of_while (hk : t.kind = .whileWord) :
    reads (instruction t) = (reads condition).bind fun c => (reads block).bind fun body =>
      Reader.give (.loop (lineOf t) c (some body)) := by
  funext ts
  rw [reads, instruction]
  simp only [hk]
  exact forget_bind rfl fun _ _ => forget_bind rfl fun _ _ => rfl

/-- A branch has a condition, a body and perhaps an alternative. -/
theorem reads_instruction_of_if (hk : t.kind = .ifWord) :
    reads (instruction t) = (reads condition).bind fun c => (reads block).bind fun body =>
      (mayRead alternative).bind fun other =>
        Reader.give (.branch (lineOf t) c (some body) other) := by
  funext ts
  rw [reads, instruction]
  simp only [hk]
  exact forget_bind rfl fun _ _ => forget_bind rfl fun _ _ => forget_bind rfl fun _ _ => rfl

/-- A question mark shows a value. -/
theorem reads_instruction_of_mark (hk : t.kind = .questionMark) :
    reads (instruction t) = (reads assignable).bind fun value =>
      (reads (accept [.semicolon])).bind fun _ => Reader.give (.log (lineOf t) value) := by
  funext ts
  rw [reads, instruction]
  simp only [hk]
  exact forget_bind rfl fun _ _ => forget_bind rfl fun _ _ => rfl

/-- A return gives a value. -/
theorem reads_instruction_of_return (hk : t.kind = .returnWord) :
    reads (instruction t) = (reads assignable).bind fun value =>
      (reads (accept [.semicolon])).bind fun _ => Reader.give (.give (lineOf t) value) := by
  funext ts
  rw [reads, instruction]
  simp only [hk]
  exact forget_bind rfl fun _ _ => forget_bind rfl fun _ _ => rfl

end Instruction

/-- Reads an instruction with its first token. -/
def anyInstruction : Reader Statement :=
  Reader.take instructionStart literalOf fun t _ => reads (instruction t)

/-- There is an alternative if the word for it comes next. -/
theorem mayRead_alternative :
    mayRead alternative = Reader.choose [.elseWord]
      ((reads (accept [.elseWord])).bind fun _ => (reads block).bind fun body =>
        Reader.give (some body))
      (Reader.give none) := by
  funext ts
  rcases ts with - | ⟨t, ts⟩
  · rw [choose_nil (by decide), mayRead, alternative]
    rfl
  rw [choose_accept_cons, mayRead, alternative]
  simp only [List.mem_singleton]
  split
  · exact forget_bind rfl fun _ _ => rfl
  · rfl

/-- A block is statements between braces. -/
theorem reads_block :
    reads block = (reads (accept [.curlyOpen])).bind fun _ => (reads statements).bind fun s =>
      Reader.give s := by
  funext ts
  rw [reads, block]
  exact forget_bind rfl fun _ _ => forget_bind rfl fun _ _ => rfl

/-- The statements of a block end with a brace, or there is an instruction and then the others. -/
theorem reads_statements :
    reads statements = Reader.choose [.curlyClose]
      ((reads (accept [.curlyClose])).bind fun _ => Reader.give [])
      (anyInstruction.bind fun s => (reads statements).bind fun more =>
        Reader.give (s :: more)) := by
  funext ts
  rcases ts with - | ⟨t, ts⟩
  · rw [choose_nil (by decide), reads, statements]
    rfl
  rw [choose_accept_cons, reads, statements]
  simp only [List.mem_singleton]
  split
  · rfl
  · split
    · next hk =>
      have hplain : Plain instructionStart := by decide
      rw [anyInstruction, Reader.take_bind_of_ok ts hk (hplain.literalOf hk)]
      exact forget_bind rfl fun _ _ => forget_bind rfl fun _ _ => rfl
    · next hk =>
      rw [anyInstruction, Reader.bind_of_error (Reader.take_of_not_mem ts hk)]
      rfl

/-- A parameter is followed by the end of the list or by more. -/
theorem reads_moreParameters :
    reads moreParameters = (reads (accept [.identifier])).bind fun p =>
      afterElement (reads moreParameters) p.value := by
  funext ts
  rw [reads, moreParameters]
  refine forget_bind rfl fun p r => ?_
  refine forget_accept_of_plain (by decide) fun t r' _ => ?_
  simp only
  split
  · rfl
  · exact forget_bind rfl fun _ _ => rfl

/-- The parameters of a function end at once, or there is a first one. -/
theorem reads_parameters :
    reads parameters = Reader.choose [.roundClose]
      ((reads (accept [.roundClose])).bind fun _ => Reader.give []) (reads moreParameters) := by
  funext ts
  rcases ts with - | ⟨t, ts⟩
  · rw [choose_nil (by decide), reads, parameters]
    rfl
  rw [choose_accept_cons, reads, parameters]
  simp only [List.mem_singleton]
  split <;> rfl

/-- A function has a name, parameters and a body. -/
theorem reads_function (line : Int) :
    reads (function line) = (reads (accept [.identifier])).bind fun name =>
      (reads (accept [.roundOpen])).bind fun _ => (reads parameters).bind fun params =>
        (reads block).bind fun body =>
          Reader.give ⟨line, name.value, params, some body⟩ := by
  funext ts
  rw [reads, function]
  exact forget_bind rfl fun _ _ => forget_bind rfl fun _ _ => forget_bind rfl fun _ _ =>
    forget_bind rfl fun _ _ => rfl

/-! ## Conditions -/

theorem spare_condition : Spare Condition.tokens := by
  have hpair := (spare_leaf (show Plain [.roundOpen] by decide)).pair (spare_assignable.pair
    ((spare_leaf (show Plain relations by decide)).pair (spare_assignable.pair
      (spare_leaf (show Plain [.roundClose] by decide)))))
  exact hpair.map (fun x => ⟨x.1, x.2.1, x.2.2.1, x.2.2.2.1, x.2.2.2.2⟩) fun _ => rfl

/-- **Conditions are read exactly.** -/
theorem exact_condition (n : Nat) :
    Exact n (reads condition) [] Condition.tokens Condition.value := by
  rw [reads_condition]
  have hright := fun (left : Expr) (op : Token) (m : Nat) =>
    (expressionsExact m).assignable.bind_accept (show Plain [.roundClose] by decide) (by decide)
      fun right => Adventure.Condition.mk left (relationOf op.kind) right
  have hspare := spare_assignable.pair (spare_leaf (show Plain [.roundClose] by decide))
  have hop := fun (left : Expr) (m : Nat) =>
    exact_accept_bind (n := m) (show Plain relations by decide)
      (fun op k _ => hright left op k) hspare
  have hspare' := (spare_leaf (show Plain relations by decide)).pair hspare
  have hleft := fun m => (expressionsExact m).assignable.bind 0 (fun left k _ => hop left k)
    (fun _ => Nat.zero_le _) (fun x _ _ => leaf_not_mem (by decide) x.1) hspare'
  have hbind := exact_accept_bind (n := n) (show Plain [.roundOpen] by decide)
    (fun _ m _ => hleft m) (spare_assignable.pair hspare')
  refine hbind.map (fun x => ⟨x.1, x.2.1, x.2.2.1, x.2.2.2.1, x.2.2.2.2⟩) ?_ (fun _ => rfl)
    fun _ => rfl
  rintro ⟨opening, left, sign, right, closing⟩
  exact ⟨(opening, left, sign, right, closing), rfl⟩

/-! ## Instructions that begin with a name -/

/-- What an instruction does to what it names first, up to its semicolon. -/
inductive Deed where
  | assign (sign : Leaf [.assign]) (value : Assignable)
  | call (opening : Leaf [.roundOpen]) (arguments : Arguments)
  | declare (name : Leaf [.identifier])
  | attack (sign : Leaf [.attackMove]) (defender : Leaf [.identifier])

namespace Deed

/-- The first token. -/
def head : Deed → Token
  | assign l _ | call l _ | declare l | attack l _ => l.token

/-- The kind of the first token. -/
def headKind : Deed → Kind
  | assign .. => .assign
  | call .. => .roundOpen
  | declare .. => .identifier
  | attack .. => .attackMove

/-- The tokens after the first one. -/
def tail : Deed → List Token
  | assign _ value => value.tokens
  | call _ arguments => arguments.tokens
  | declare _ => []
  | attack _ defender => [defender.token]

/-- All tokens. -/
def tokens (d : Deed) : List Token :=
  d.head :: d.tail

/-- The statement about `first` that stands on `line`. -/
def value (line : Int) (first : String) : Deed → Statement
  | assign _ value => .assign line first value.value
  | call _ arguments => .call line first arguments.value
  | declare name => .declare line first name.token.value
  | attack _ defender => .attack line first defender.token.value

theorem kind_head (d : Deed) : d.head.kind = d.headKind := by
  cases d with
  | assign l | call l | declare l | attack l => exact kind_of_leaf l

end Deed

/-- Each kind that may follow a name does so in some instruction that can be written. -/
theorem viable_deed : Viable Deed.tokens [] afterIdentifier := by
  refine ⟨by decide, fun kind hkind => ?_⟩
  simp only [afterIdentifier, List.mem_cons, List.not_mem_nil, or_false] at hkind
  rcases hkind with rfl | rfl | rfl | rfl
  · exact exists_writes_cons (by decide) spare_assignable (fun x => .assign x.1 x.2) fun _ => rfl
  · exact exists_writes_cons (by decide) spare_arguments (fun x => .call x.1 x.2) fun _ => rfl
  · exact exists_writes_leaf (by decide) .declare fun _ => rfl
  · exact exists_writes_cons (by decide) (spare_leaf (show Plain [.identifier] by decide))
      (fun x => .attack x.1 x.2) fun _ => rfl

/-- What follows a name is read exactly, once its first token is known. -/
theorem exact_afterName (n : Nat) (line : Int) (first : String) (t : Token)
    (ht : t.kind ∈ afterIdentifier) :
    Exact n (afterName line first t) sumGoesOn (fun d : { d : Deed // d.head = t } => d.1.tail)
      (fun d => d.1.value line first) := by
  simp only [afterIdentifier, List.mem_cons, List.not_mem_nil, or_false] at ht
  -- each of the four tokens begins one kind of deed, and no other deed begins with it
  rcases ht with hk | hk | hk | hk <;>
    simp only [afterName, hk, reduceCtorEq, if_true, if_false]
  · refine ((expressionsExact n).assignable.bind_give
        fun value => Statement.assign line first value).map
      (fun x => ⟨.assign ⟨t, List.mem_singleton.mpr hk⟩ x, rfl⟩) ?_ (fun _ => rfl) fun _ => rfl
    rintro ⟨d, rfl⟩
    rw [Deed.kind_head] at hk
    cases d with
    | assign sign x => exact ⟨x, rfl⟩
    | call | declare | attack => cases hk
  · refine (((expressionsExact n).arguments.bind_give fun args =>
      Statement.call line first args).mono_stop (List.nil_subset _)).map
      (fun x => ⟨.call ⟨t, List.mem_singleton.mpr hk⟩ x, rfl⟩) ?_ (fun _ => rfl) fun _ => rfl
    rintro ⟨d, rfl⟩
    rw [Deed.kind_head] at hk
    cases d with
    | call opening x => exact ⟨x, rfl⟩
    | assign | declare | attack => cases hk
  · refine ((Exact.give _).mono_stop (List.nil_subset _)).map
      (fun _ => ⟨.declare ⟨t, List.mem_singleton.mpr hk⟩, rfl⟩) ?_ (fun _ => rfl) fun _ => rfl
    rintro ⟨d, rfl⟩
    rw [Deed.kind_head] at hk
    cases d with
    | declare name => exact ⟨(), rfl⟩
    | assign | call | attack => cases hk
  · refine (((exact_accept (by decide)).bind_give fun d =>
      Statement.attack line first d.value).mono_stop (List.nil_subset _)).map
      (fun x => ⟨.attack ⟨t, List.mem_singleton.mpr hk⟩ x, rfl⟩) ?_ (fun _ => rfl) fun _ => rfl
    rintro ⟨d, rfl⟩
    rw [Deed.kind_head] at hk
    cases d with
    | attack sign x => exact ⟨x, rfl⟩
    | assign | call | declare => cases hk

/-- What an instruction does that begins with a name is read exactly. -/
theorem exact_namedInstruction (n : Nat) (line : Int) (first : String) :
    Exact n (reads (namedInstruction line first)) sumGoesOn Deed.tokens
      (Deed.value line first) := by
  have hplain : Plain afterIdentifier := by decide
  rw [reads_namedInstruction]
  refine Exact.take Deed.head Deed.tail (fun _ => rfl) ?_ (blames_of_literalOf _)
    hplain.endOfFile_not_mem viable_deed
    fun t _ ht _ m _ => exact_afterName m line first t ht
  intro d
  have hmem : d.head.kind ∈ afterIdentifier := by
    rw [Deed.kind_head]
    cases d <;> simp [Deed.headKind, afterIdentifier]
  exact ⟨hmem, _, hplain.literalOf hmem⟩

/-! ## Instructions and blocks -/

/-- The readers of instructions and blocks are exact on at most `n` tokens. -/
structure StatementsExact (n : Nat) : Prop where
  instruction : Exact n anyInstruction [.elseWord] Instruction.tokens Instruction.value
  alternative : Exact n (mayRead alternative) [.elseWord] Alternative.tokens Alternative.value
  block : Exact n (reads block) [] Block.tokens Block.value
  statements : Exact n (reads statements) [] Statements.tokens Statements.value

/-- The first token of an instruction. -/
def instructionHead : Instruction → Token
  | .assign l _ _ _ | .call l _ _ _ | .declare l _ _ | .attack l _ _ _ => l.token
  | .loop l _ _ => l.token
  | .branch l _ _ _ => l.token
  | .log l _ _ => l.token
  | .give l _ _ => l.token

/-- The kind of the first token of an instruction. -/
def instructionKind : Instruction → Kind
  | .assign .. | .call .. | .declare .. | .attack .. => .identifier
  | .loop .. => .whileWord
  | .branch .. => .ifWord
  | .log .. => .questionMark
  | .give .. => .returnWord

/-- The tokens of an instruction after the first one. -/
def instructionTail : Instruction → List Token
  | .assign _ sign value semicolon => sign.token :: (value.tokens ++ [semicolon.token])
  | .call _ opening arguments semicolon =>
    opening.token :: (arguments.tokens ++ [semicolon.token])
  | .declare _ name semicolon => [name.token, semicolon.token]
  | .attack _ sign defender semicolon => [sign.token, defender.token, semicolon.token]
  | .loop _ condition body => condition.tokens ++ body.tokens
  | .branch _ condition body alternative =>
    condition.tokens ++ (body.tokens ++ alternative.tokens)
  | .log _ value semicolon => value.tokens ++ [semicolon.token]
  | .give _ value semicolon => value.tokens ++ [semicolon.token]

/-- An instruction is its first token and the tail. -/
theorem tokens_instruction (x : Instruction) :
    x.tokens = instructionHead x :: instructionTail x := by
  cases x <;> rw [Instruction.tokens] <;> rfl

/-- The first token of an instruction has the kind that goes with its form. -/
theorem kind_instructionHead (x : Instruction) : (instructionHead x).kind = instructionKind x := by
  cases x with
  | assign l | call l | declare l | attack l | loop l | branch l | log l | give l =>
    exact kind_of_leaf l

theorem instructionHead_mem (x : Instruction) : (instructionHead x).kind ∈ instructionStart := by
  rw [kind_instructionHead]
  cases x <;> simp [instructionKind, instructionStart]

/-- An instruction begins with a token that instructions begin with. -/
theorem front_instruction (x : Instruction) (rest : List Token) :
    frontKind (x.tokens ++ rest) ∈ instructionStart := by
  rw [tokens_instruction]
  exact instructionHead_mem x

/-- Statements do not begin with the word for an alternative. -/
theorem front_statements (x : Statements) (rest : List Token) :
    frontKind (x.tokens ++ rest) ∉ [Kind.elseWord] := by
  cases x with
  | nil closing =>
    rw [Statements.tokens]
    exact leaf_not_mem (by decide) closing
  | cons first more =>
    rw [Statements.tokens, List.append_assoc]
    intro hmem
    have hfront := front_instruction first (more.tokens ++ rest)
    rw [List.mem_singleton.mp hmem] at hfront
    exact absurd hfront (by decide)

theorem spare_statements : Spare Statements.tokens :=
  (spare_leaf (by decide)).map .nil fun _ => by rw [Statements.tokens]

theorem spare_block : Spare Block.tokens :=
  ((spare_leaf (by decide)).pair spare_statements).map (fun x => .mk x.1 x.2) fun _ => by
    rw [Block.tokens]; rfl

theorem spare_alternative : Spare Alternative.tokens :=
  .of_nil .none (by rw [Alternative.tokens])

/-- Each kind that instructions begin with does begin one that can be written. -/
theorem viable_instruction : Viable Instruction.tokens [] instructionStart := by
  have hvalue := spare_assignable.pair (spare_leaf (show Plain [.semicolon] by decide))
  refine ⟨by decide, fun kind hkind => ?_⟩
  simp only [instructionStart, List.mem_cons, List.not_mem_nil, or_false] at hkind
  rcases hkind with rfl | rfl | rfl | rfl | rfl
  · exact exists_writes_cons (by decide) ((spare_leaf (show Plain [.identifier] by decide)).pair
      (spare_leaf (show Plain [.semicolon] by decide)))
      (fun x => .declare x.1 x.2.1 x.2.2) fun _ => tokens_instruction _
  · exact exists_writes_cons (by decide) (spare_condition.pair spare_block)
      (fun x => .loop x.1 x.2.1 x.2.2) fun _ => tokens_instruction _
  · exact exists_writes_cons (by decide)
      (spare_condition.pair (spare_block.pair spare_alternative))
      (fun x => .branch x.1 x.2.1 x.2.2.1 x.2.2.2) fun _ => tokens_instruction _
  · exact exists_writes_cons (by decide) hvalue (fun x => .log x.1 x.2.1 x.2.2)
      fun _ => tokens_instruction _
  · exact exists_writes_cons (by decide) hvalue (fun x => .give x.1 x.2.1 x.2.2)
      fun _ => tokens_instruction _

section Step

variable {n : Nat} {t : Token}

/-- An assignment, a declaration, a call or an attack move is read exactly. -/
theorem exact_instruction_of_name (hk : t.kind = .identifier) :
    Exact n (reads (instruction t)) [.elseWord]
      (fun x : { x // instructionHead x = t } => instructionTail x) (fun x => x.1.value) := by
  have hname : t.kind ∈ [Kind.identifier] := List.mem_singleton.mpr hk
  rw [reads_instruction_of_name hk]
  have hbind := (exact_namedInstruction n (lineOf t) t.value).bind_accept
    (show Plain [.semicolon] by decide) (by decide) fun s => s
  refine (hbind.mono_stop (List.nil_subset _)).map
    (fun x => match x.1 with
      | .assign sign value => ⟨.assign ⟨t, hname⟩ sign value x.2, rfl⟩
      | .call opening arguments => ⟨.call ⟨t, hname⟩ opening arguments x.2, rfl⟩
      | .declare name => ⟨.declare ⟨t, hname⟩ name x.2, rfl⟩
      | .attack sign defender => ⟨.attack ⟨t, hname⟩ sign defender x.2, rfl⟩) ?_ ?_ ?_
  · rintro ⟨x, rfl⟩
    rw [kind_instructionHead] at hk
    cases x with
    | assign target sign value semicolon => exact ⟨(.assign sign value, semicolon), rfl⟩
    | call name opening arguments semicolon => exact ⟨(.call opening arguments, semicolon), rfl⟩
    | declare type name semicolon => exact ⟨(.declare name, semicolon), rfl⟩
    | attack attacker sign defender semicolon =>
      exact ⟨(.attack sign defender, semicolon), rfl⟩
    | loop | branch | log | give => cases hk
  · rintro ⟨_ | _ | _ | _, semicolon⟩ <;> rfl
  · rintro ⟨_ | _ | _ | _, semicolon⟩ <;> simp [Instruction.value, Deed.value, line_eq_lineOf]

/-- An instruction that shows a value is read exactly. -/
theorem exact_instruction_of_mark (hk : t.kind = .questionMark) :
    Exact n (reads (instruction t)) [.elseWord]
      (fun x : { x // instructionHead x = t } => instructionTail x) (fun x => x.1.value) := by
  rw [reads_instruction_of_mark hk]
  have hbind := (expressionsExact n).assignable.bind_accept (show Plain [.semicolon] by decide)
    (by decide) fun value => Statement.log (lineOf t) value
  refine (hbind.mono_stop (List.nil_subset _)).map
    (fun x => ⟨.log ⟨t, List.mem_singleton.mpr hk⟩ x.1 x.2, rfl⟩) ?_ (fun _ => rfl)
    fun _ => by rw [Instruction.value, line_eq_lineOf]
  rintro ⟨x, rfl⟩
  rw [kind_instructionHead] at hk
  cases x with
  | log mark value semicolon => exact ⟨(value, semicolon), rfl⟩
  | assign | call | declare | attack | loop | branch | give => cases hk

/-- An instruction that gives a value is read exactly. -/
theorem exact_instruction_of_return (hk : t.kind = .returnWord) :
    Exact n (reads (instruction t)) [.elseWord]
      (fun x : { x // instructionHead x = t } => instructionTail x) (fun x => x.1.value) := by
  rw [reads_instruction_of_return hk]
  have hbind := (expressionsExact n).assignable.bind_accept (show Plain [.semicolon] by decide)
    (by decide) fun value => Statement.give (lineOf t) value
  refine (hbind.mono_stop (List.nil_subset _)).map
    (fun x => ⟨.give ⟨t, List.mem_singleton.mpr hk⟩ x.1 x.2, rfl⟩) ?_ (fun _ => rfl)
    fun _ => by rw [Instruction.value, line_eq_lineOf]
  rintro ⟨x, rfl⟩
  rw [kind_instructionHead] at hk
  cases x with
  | give word value semicolon => exact ⟨(value, semicolon), rfl⟩
  | assign | call | declare | attack | loop | branch | log => cases hk

/-- A loop is read exactly if its body is. -/
theorem exact_instruction_of_while (ih : ∀ m ≤ n, StatementsExact m) (hk : t.kind = .whileWord) :
    Exact n (reads (instruction t)) [.elseWord]
      (fun x : { x // instructionHead x = t } => instructionTail x) (fun x => x.1.value) := by
  rw [reads_instruction_of_while hk]
  have hbind := (exact_condition n).bind 0
    (fun c m hm => (ih m hm).block.bind_give fun body => Statement.loop (lineOf t) c (some body))
    (fun _ => Nat.zero_le _) (fun _ _ _ => List.not_mem_nil) spare_block
  refine (hbind.mono_stop (List.nil_subset _)).map
    (fun x => ⟨.loop ⟨t, List.mem_singleton.mpr hk⟩ x.1 x.2, rfl⟩) ?_ (fun _ => rfl)
    fun _ => by rw [Instruction.value, line_eq_lineOf]
  rintro ⟨x, rfl⟩
  rw [kind_instructionHead] at hk
  cases x with
  | loop word condition body => exact ⟨(condition, body), rfl⟩
  | assign | call | declare | attack | branch | log | give => cases hk

/-- A branch is read exactly if its blocks are, and as far as no other alternative follows. -/
theorem exact_instruction_of_if (ih : ∀ m ≤ n, StatementsExact m) (hk : t.kind = .ifWord) :
    Exact n (reads (instruction t)) [.elseWord]
      (fun x : { x // instructionHead x = t } => instructionTail x) (fun x => x.1.value) := by
  rw [reads_instruction_of_if hk]
  have hbody := fun (c : Adventure.Condition) (m : Nat) (hm : m ≤ n) => (ih m hm).block.bind 0
    (fun body k hk => (ih k (Nat.le_trans hk hm)).alternative.bind_give fun other =>
      Statement.branch (lineOf t) c (some body) other)
    (fun _ => Nat.zero_le _) (fun _ _ _ => List.not_mem_nil) spare_alternative
  have hbind := (exact_condition n).bind 0 hbody (fun _ => Nat.zero_le _)
    (fun _ _ _ => List.not_mem_nil) (spare_block.pair spare_alternative)
  refine hbind.map (fun x => ⟨.branch ⟨t, List.mem_singleton.mpr hk⟩ x.1 x.2.1 x.2.2, rfl⟩) ?_
    (fun _ => rfl) fun _ => by rw [Instruction.value, line_eq_lineOf]
  rintro ⟨x, rfl⟩
  rw [kind_instructionHead] at hk
  cases x with
  | branch word condition body alternative => exact ⟨(condition, body, alternative), rfl⟩
  | assign | call | declare | attack | loop | log | give => cases hk

/-- Instructions are read exactly if everything is on fewer tokens. -/
theorem exact_anyInstruction (ih : ∀ m < n, StatementsExact m) :
    Exact n anyInstruction [.elseWord] Instruction.tokens Instruction.value := by
  have hplain : Plain instructionStart := by decide
  refine Exact.take instructionHead instructionTail tokens_instruction
    (fun x => ⟨instructionHead_mem x, _, hplain.literalOf (instructionHead_mem x)⟩)
    (blames_of_literalOf _) hplain.endOfFile_not_mem viable_instruction ?_
  intro t _ ht _ m hm
  have ih' : ∀ k ≤ m, StatementsExact k := fun k hk => ih k (by omega)
  simp only [instructionStart, List.mem_cons, List.not_mem_nil, or_false] at ht
  rcases ht with hk | hk | hk | hk | hk
  · exact exact_instruction_of_name hk
  · exact exact_instruction_of_while ih' hk
  · exact exact_instruction_of_if ih' hk
  · exact exact_instruction_of_mark hk
  · exact exact_instruction_of_return hk

/-- An alternative is read exactly, also if there is none. -/
theorem exact_alternative (ih : ∀ m < n, StatementsExact m) :
    Exact n (mayRead alternative) [.elseWord] Alternative.tokens Alternative.value := by
  rw [mayRead_alternative]
  have hsome := exact_accept_bind (show Plain [.elseWord] by decide)
    (fun _ m hm => (ih m hm).block.bind_give fun body => some body) spare_block
  have hnone : Exact n (Reader.give (none : Option (List Statement))) [.elseWord]
      (fun _ : Unit => []) (fun _ => none) :=
    (Exact.give none).mono_stop (List.nil_subset _)
  have hchoose := (hsome.mono_stop (List.nil_subset _)).choose hnone (fun x _ => x.1.mem)
    fun _ _ hrest => hrest
  refine hchoose.map (Sum.elim (fun x => .some x.1 x.2) fun _ => .none) ?_ ?_ ?_
  · rintro (_ | ⟨word, body⟩)
    · exact ⟨.inr (), rfl⟩
    · exact ⟨.inl (word, body), rfl⟩
  · rintro (x | _) <;> simp [Alternative.tokens]
  · rintro (x | _) <;> simp [Alternative.value]

/-- Blocks are read exactly if statements are. -/
theorem exact_block (ih : ∀ m < n, StatementsExact m) :
    Exact n (reads block) [] Block.tokens Block.value := by
  rw [reads_block]
  have hbind := exact_accept_bind (show Plain [.curlyOpen] by decide)
    (fun _ m hm => (ih m hm).statements.bind_give fun s => s) spare_statements
  refine hbind.map (fun x => .mk x.1 x.2) ?_ (fun _ => by rw [Block.tokens])
    fun _ => by rw [Block.value]
  rintro ⟨opening, statements⟩
  exact ⟨(opening, statements), rfl⟩

/-- The statements of a block are read exactly if instructions are. -/
theorem exact_statements (ih : ∀ m < n, StatementsExact m)
    (hinstruction : Exact n anyInstruction [.elseWord] Instruction.tokens Instruction.value) :
    Exact n (reads statements) [] Statements.tokens Statements.value := by
  rw [reads_statements]
  have hnil := (exact_accept (n := n) (show Plain [.curlyClose] by decide)).bind_give
    fun _ => ([] : List Statement)
  have hcons := hinstruction.bind 1
    (fun s m hm => (ih m hm).statements.bind_give fun more => s :: more)
    (fun x => by rw [tokens_instruction]; exact Nat.succ_pos _)
    (fun x rest _ => front_statements x rest) spare_statements
  have hchoose := hnil.choose hcons (fun l _ => l.mem) fun x rest _ hmem => by
    have hfront := front_instruction x.1 (x.2.tokens ++ rest)
    rw [← List.append_assoc, List.mem_singleton.mp hmem] at hfront
    exact absurd hfront (by decide)
  refine hchoose.map (Sum.elim .nil fun x => .cons x.1 x.2) ?_ ?_ ?_
  · rintro (closing | ⟨first, more⟩)
    · exact ⟨.inl closing, rfl⟩
    · exact ⟨.inr (first, more), rfl⟩
  · rintro (l | x) <;> simp [Statements.tokens]
  · rintro (l | x) <;> simp [Statements.value]

end Step

/-- **Instructions and blocks are read exactly.** -/
theorem statementsExact (n : Nat) : StatementsExact n := by
  induction n using Nat.strong_induction_on with
  | _ n ih =>
    have hinstruction := exact_anyInstruction ih
    exact {
      instruction := hinstruction
      alternative := exact_alternative ih
      block := exact_block ih
      statements := exact_statements ih hinstruction }

/-! ## Functions -/

theorem spare_moreParameters : Spare MoreParameters.tokens :=
  ((spare_leaf (by decide)).pair (spare_leaf (by decide))).map (fun x => .last x.1 x.2)
    fun _ => rfl

theorem spare_parameters : Spare Parameters.tokens :=
  (spare_leaf (by decide)).map .none fun _ => rfl

/-- Parameters are read exactly, whatever follows the end of their list. -/
theorem exact_moreParameters (n : Nat) :
    Exact n (reads moreParameters) [] MoreParameters.tokens MoreParameters.value := by
  induction n using Nat.strong_induction_on with
  | _ n ih =>
    rw [reads_moreParameters]
    have hbind := exact_accept_bind (show Plain [.identifier] by decide)
      (fun p m hm => exact_afterElement (fun k hk => ih k (Nat.lt_trans hk hm))
        spare_moreParameters p.value)
      ((spare_leaf (show Plain [.roundClose] by decide)).map .inl fun _ => rfl)
    refine hbind.map
      (fun x => x.2.elim (fun closing => .last x.1 closing) fun y => .cons x.1 y.1 y.2) ?_ ?_ ?_
    · rintro (⟨name, closing⟩ | ⟨name, comma, more⟩)
      · exact ⟨(name, .inl closing), rfl⟩
      · exact ⟨(name, .inr (comma, more)), rfl⟩
    · rintro ⟨name, closing | ⟨comma, more⟩⟩ <;> rfl
    · rintro ⟨name, closing | ⟨comma, more⟩⟩ <;> rfl

/-- Parameters in parentheses are read exactly, also if there are none. -/
theorem exact_parameters (n : Nat) :
    Exact n (reads parameters) [] Parameters.tokens Parameters.value := by
  rw [reads_parameters]
  have hnone := (exact_accept (n := n) (show Plain [.roundClose] by decide)).bind_give
    fun _ => ([] : List String)
  have hchoose := hnone.choose (exact_moreParameters n) (fun l _ => l.mem) fun x _ _ => by
    cases x with
    | last name | cons name => exact leaf_not_mem (by decide) name
  refine hchoose.map (Sum.elim .none .some) ?_ ?_ ?_
  · rintro (l | x)
    · exact ⟨.inl l, rfl⟩
    · exact ⟨.inr x, rfl⟩
  · rintro (l | x) <;> rfl
  · rintro (l | x) <;> rfl

theorem spare_function :
    Spare fun x : Leaf [.identifier] × Leaf [.roundOpen] × Parameters × Grammar.Block =>
      x.1.token :: x.2.1.token :: (x.2.2.1.tokens ++ x.2.2.2.tokens) :=
  (spare_leaf (show Plain [.identifier] by decide)).pair
    ((spare_leaf (show Plain [.roundOpen] by decide)).pair (spare_parameters.pair spare_block))

/-- **Functions are read exactly**, behind their reserved word. -/
theorem exact_function (n : Nat) (line : Int) :
    Exact n (reads (function line)) []
      (fun x : Leaf [.identifier] × Leaf [.roundOpen] × Parameters × Grammar.Block =>
        x.1.token :: x.2.1.token :: (x.2.2.1.tokens ++ x.2.2.2.tokens))
      (fun x => ⟨line, x.1.token.value, x.2.2.1.value, some x.2.2.2.value⟩) := by
  rw [reads_function]
  have hbody := fun (name : Token) (m : Nat) => (exact_parameters m).bind 0
    (fun params k _ => (statementsExact k).block.bind_give fun body =>
      Adventure.Function.mk line name.value params (some body))
    (fun _ => Nat.zero_le _) (fun _ _ _ => List.not_mem_nil) spare_block
  have hopen := fun (name : Token) (m : Nat) => exact_accept_bind (n := m)
    (show Plain [.roundOpen] by decide) (fun _ k _ => hbody name k)
    (spare_parameters.pair spare_block)
  exact exact_accept_bind (show Plain [.identifier] by decide) (fun name m _ => hopen name m)
    ((spare_leaf (show Plain [.roundOpen] by decide)).pair (spare_parameters.pair spare_block))

end Adventure.Parsing
