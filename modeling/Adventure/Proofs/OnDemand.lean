import Adventure.Proofs.Asking

/-!
# Reading token by token comes to an end

Each reader that asks for its tokens comes to the same as the reader of lists of the same name, if
it may go deep enough: eight levels for each token, and a few more (`Parser.Follows`). So reading a
program ends whatever the source holds, and it has the outcome of `Tokens.parse`.
-/

namespace Adventure

/-! ## What readings leave -/

theorem Tokens.left_eq (ts : Tokens) (k : Nat) :
    { ts with items := (ts.left k).items } = ts.left k := by
  rw [← (ts.leftOf_left k).kept.1, ← ts.stop_left k]

/-- Readings leave no more tokens than there are characters. -/
theorem Source.length_left_le (s : Source) (k : Nat) :
    (s.tokens.left k).items.length ≤ s.rest.length := by
  have hsuffix := (s.tokens.leftOf_left k).kept.2
  exact Nat.le_trans hsuffix.length_le s.length_items_tokens_le

namespace Parser

open Parsing

variable {α : Type} {depth : Nat}

/-- The reading `m`, which may go `depth` levels deep, comes to the same as the reader `f` of lists
of tokens, if there are eight levels for each token and `c` more. -/
def Follows (c depth : Nat) (m : Reading (Counted Source) α)
    (f : (items : List Token) → Reads α items) : Prop :=
  ∀ ⦃ts items limit p⦄, p.Awaits ts items limit → 8 * items.length + c ≤ depth →
    Tracks ts limit Shorter.rest (f items) (m p)

/-- The same for a reader that may take no token. -/
def MayFollow (c depth : Nat) (m : Reading (Counted Source) α)
    (f : (items : List Token) → MayRead α items) : Prop :=
  ∀ ⦃ts items limit p⦄, p.Awaits ts items limit → 8 * items.length + c ≤ depth →
    Tracks ts limit NoLonger.rest (f items) (m p)

/-- No reading may stay on the level zero. -/
theorem follows_zero {c : Nat} {m : Reading (Counted Source) α}
    {f : (items : List Token) → Reads α items} (hc : 0 < c) : Follows c 0 m f := by
  intro ts items limit p _ hdepth
  omega

/-- A reader that may not go deeper gives no answer. -/
theorem mayFollow_zero {c : Nat} {m : Reading (Counted Source) α}
    {f : (items : List Token) → MayRead α items} (hc : 0 < c) : MayFollow c 0 m f := by
  intro ts items limit p _ hdepth
  omega

/-! ## Expressions -/

theorem operatorOf_eq (kind : Kind) : Reading.operatorOf kind = Grammar.arithOpOf kind := by
  cases kind <;> rfl

/-- The readers of expressions follow those of lists, down to a depth. -/
structure ExpressionsFollow (depth : Nat) : Prop where
  expression : Follows 3 depth (Reading.expression depth) expression
  terms : MayFollow 1 depth (Reading.terms depth) terms
  term : Follows 2 depth (Reading.term depth) term
  factors : MayFollow 1 depth (Reading.factors depth) factors
  primary : Follows 1 depth (Reading.primary depth) primary
  assignable : Follows 4 depth (Reading.assignable depth) assignable
  arguments : Follows 6 depth (Reading.arguments depth) arguments
  moreArguments : Follows 5 depth (Reading.moreArguments depth) moreArguments

section Expressions

variable (ih : ExpressionsFollow depth)

include ih

/-- Expressions are read on demand. -/
theorem follows_expression : Follows 3 (depth + 1) (Reading.expression (depth + 1)) expression := by
  intro ts items limit p hp hdepth
  rw [Reading.expression, expression]
  refine (ih.term hp (by omega)).bind fun first r q hq => ?_
  have hless := r.lt
  exact (ih.terms hq (by omega)).bind fun more r' q' hq' => .ok hq'

/-- The terms behind a term are read on demand. -/
theorem mayFollow_terms : MayFollow 1 (depth + 1) (Reading.terms (depth + 1)) terms := by
  intro ts items limit p hp hdepth
  rw [Reading.terms]
  cases items with
  | nil =>
    rw [terms]
    exact .look_nil hp (by decide) fun q hq => .ok hq
  | cons t tail =>
    rw [terms]
    rw [List.length_cons] at hdepth
    refine .look hp (fun ht q hq _ => ?_) fun ht q hq => ?_
    · simp only [additive?_eq, if_pos ht, operatorOf_eq]
      refine (ih.term hq (by omega)).bind fun operand r q' hq' => ?_
      have hless := r.lt
      exact (ih.terms hq' (by omega)).bind fun more r' q'' hq'' => .ok hq''
    · simp only [additive?_eq, if_neg ht]
      exact .ok hq

/-- Terms are read on demand. -/
theorem follows_term : Follows 2 (depth + 1) (Reading.term (depth + 1)) term := by
  intro ts items limit p hp hdepth
  rw [Reading.term, term]
  refine (ih.primary hp (by omega)).bind fun first r q hq => ?_
  have hless := r.lt
  exact (ih.factors hq (by omega)).bind fun more r' q' hq' => .ok hq'

/-- The factors behind a primary are read on demand. -/
theorem mayFollow_factors : MayFollow 1 (depth + 1) (Reading.factors (depth + 1)) factors := by
  intro ts items limit p hp hdepth
  rw [Reading.factors]
  cases items with
  | nil =>
    rw [factors]
    exact .look_nil hp (by decide) fun q hq => .ok hq
  | cons t tail =>
    rw [factors]
    rw [List.length_cons] at hdepth
    refine .look hp (fun ht q hq _ => ?_) fun ht q hq => ?_
    · simp only [multiplicative?_eq, if_pos ht, operatorOf_eq]
      refine (ih.primary hq (by omega)).bind fun operand r q' hq' => ?_
      have hless := r.lt
      exact (ih.factors hq' (by omega)).bind fun more r' q'' hq'' => .ok hq''
    · simp only [multiplicative?_eq, if_neg ht]
      exact .ok hq

/-- A name, and the arguments behind it if it is called. -/
theorem tracks_callOrVar {ts : Tokens} {items : List Token} {limit : Nat}
    {p : Parser (Counted Source)} (hp : p.Awaits ts items limit) (hdepth : 8 * items.length ≤ depth)
    (name : String) :
    Tracks ts limit NoLonger.rest (callOrVar name items) ((do
      if ← Reading.peek [.roundOpen] then
        let _ ← Reading.accept [.roundOpen]
        let args ← Reading.arguments depth
        return .call name args
      else return .var name : Reading (Counted Source) Expr) p) := by
  cases items with
  | nil =>
    rw [callOrVar]
    exact .look_nil hp (by decide) fun q hq => .ok hq
  | cons t tail =>
    rw [callOrVar]
    rw [List.length_cons] at hdepth
    refine .look hp (fun ht q hq _ => ?_) fun ht q hq => ?_
    · rw [if_pos (List.mem_singleton.mp ht)]
      exact (ih.arguments hq (by omega)).bind fun args r q' hq' => .ok hq'
    · rw [if_neg (mt List.mem_singleton.mpr ht)]
      exact .ok hq

/-- Primaries are read on demand. -/
theorem follows_primary : Follows 1 (depth + 1) (Reading.primary (depth + 1)) primary := by
  intro ts items limit p hp hdepth
  rw [Reading.primary, primary]
  refine .accept_bind hp (by decide) fun t r q ht hq hnothing => ?_
  have hless := r.lt
  simp only [primaryStart, List.mem_cons, List.not_mem_nil, or_false] at ht
  rcases ht with hk | hk | hk | hk | hk
  · -- parentheses
    simp only [hk]
    refine (ih.expression hq (by omega)).bind fun e r' q' hq' => ?_
    exact .accept_bind hq' (by decide) fun _ r'' q'' _ hq'' _ => .ok hq''
  · -- a name, which may be that of a function
    simp only [hk]
    exact (tracks_callOrVar ih hq (by omega) t.value).bind_pure fun _ _ => ⟨_, rfl, rfl⟩
  · -- a roll, where a second token is checked
    simp only [hk]
    refine .accept_bind hq (by decide) fun operand r' q' _ hq' hnothing' => ?_
    by_cases hname : operand.kind = .identifier
    · simp only [if_pos hname]
      exact .ok hq'
    · simp only [if_neg hname]
      exact .diceOf_bind (hq'.halted hnothing') fun d => .ok hq'
  · -- literals are checked while nothing is ahead
    simp only [hk]
    exact .numberOf_bind (hq.halted hnothing) fun n => .ok hq
  · simp only [hk]
    exact .diceOf_bind (hq.halted hnothing) fun d => .ok hq

/-- What can be assigned is read on demand. -/
theorem follows_assignable :
    Follows 4 (depth + 1) (Reading.assignable (depth + 1)) assignable := by
  intro ts items limit p hp hdepth
  rw [Reading.assignable]
  refine .either (by decide) (by rw [assignable]) (fun t tail => by rw [assignable]; rfl) hp ?_
  exact fun q hq => ih.expression hq (by omega)

/-- Arguments are read on demand. -/
theorem follows_arguments : Follows 6 (depth + 1) (Reading.arguments (depth + 1)) arguments := by
  intro ts items limit p hp hdepth
  rw [Reading.arguments]
  refine .either (by decide) (by rw [arguments]) (fun t tail => by rw [arguments]; rfl) hp ?_
  exact fun q hq => ih.moreArguments hq (by omega)

theorem follows_moreArguments :
    Follows 5 (depth + 1) (Reading.moreArguments (depth + 1)) moreArguments := by
  intro ts items limit p hp hdepth
  rw [Reading.moreArguments, moreArguments]
  refine (ih.assignable hp (by omega)).bind fun arg r q hq => ?_
  refine .accept_bind hq (by decide) fun separator r' q' _ hq' _ => ?_
  have hless := r.lt
  have hless' := r'.lt
  by_cases hlast : separator.kind = .roundClose
  · simp only [if_pos hlast]
    exact .ok hq'
  · simp only [if_neg hlast]
    exact (ih.moreArguments hq' (by omega)).bind fun args r'' q'' hq'' => .ok hq''

end Expressions

/-- **The readers of expressions follow those of lists**, by induction on the depth. -/
theorem expressionsFollow (depth : Nat) : ExpressionsFollow depth := by
  induction depth with
  | zero =>
    exact ⟨follows_zero (by decide), mayFollow_zero (by decide), follows_zero (by decide),
      mayFollow_zero (by decide), follows_zero (by decide), follows_zero (by decide),
      follows_zero (by decide), follows_zero (by decide)⟩
  | succ depth ih =>
    exact ⟨follows_expression ih, mayFollow_terms ih, follows_term ih, mayFollow_factors ih,
      follows_primary ih, follows_assignable ih, follows_arguments ih, follows_moreArguments ih⟩

/-! ## Instructions and functions -/

/-- Conditions are read on demand. -/
theorem follows_condition : Follows 0 depth (Reading.condition depth) condition := by
  have hassignable := (expressionsFollow depth).assignable
  intro ts items limit p hp hdepth
  rw [Reading.condition, condition]
  refine .accept_bind hp (by decide) fun _ r₁ q₁ _ hq₁ _ => ?_
  have hless₁ := r₁.lt
  refine (hassignable hq₁ (by omega)).bind fun left r₂ q₂ hq₂ => ?_
  refine .accept_bind hq₂ (by decide) fun op r₃ q₃ _ hq₃ _ => ?_
  have hless₂ := r₂.lt
  have hless₃ := r₃.lt
  refine (hassignable hq₃ (by omega)).bind fun right r₄ q₄ hq₄ => ?_
  exact .accept_bind hq₄ (by decide) fun _ r₅ q₅ _ hq₅ _ => .ok hq₅

/-- Instructions that begin with a name are read on demand. -/
theorem follows_namedInstruction (line : Int) (first : String) :
    Follows 0 depth (Reading.namedInstruction depth line first) (namedInstruction line first) := by
  intro ts items limit p hp hdepth
  rw [Reading.namedInstruction, namedInstruction]
  refine .accept_bind hp (by decide) fun t r q ht hq _ => ?_
  have hless := r.lt
  simp only [afterIdentifier, List.mem_cons, List.not_mem_nil, or_false] at ht
  rcases ht with hk | hk | hk | hk
  · simp only [hk]
    exact ((expressionsFollow depth).assignable hq (by omega)).bind fun value r' q' hq' => .ok hq'
  · simp only [hk]
    exact ((expressionsFollow depth).arguments hq (by omega)).bind fun args r' q' hq' => .ok hq'
  · simp only [hk]
    exact .ok hq
  · simp only [hk]
    exact .accept_bind hq (by decide) fun defender r' q' _ hq' _ => .ok hq'

/-- The readers of instructions follow those of lists, down to a depth. -/
structure StatementsFollow (depth : Nat) : Prop where
  instruction : ∀ t : Token, t.kind ∈ instructionStart →
    Follows 5 depth (Reading.instruction depth t) (instruction t)
  block : Follows 1 depth (Reading.block depth) block
  statements : Follows 1 depth (Reading.statements depth) statements

section Statements

variable (ih : StatementsFollow depth)

include ih

/-- What follows the block of a branch; `k` says how much is left of the whole branch. -/
theorem tracks_alternative {ts : Tokens} {items whole : List Token} {limit : Nat}
    {p : Parser (Counted Source)} (hp : p.Awaits ts items limit) (hdepth : 8 * items.length ≤ depth)
    (line : Int) (c : Condition) (body : List Statement) (k : NoLonger items → Shorter whole)
    (hk : ∀ r, (k r).rest = r.rest) :
    Tracks ts limit Shorter.rest
      (do
        let (other, r) ← alternative items
        return (Statement.branch line c (some body) other, k r))
      ((do
        if ← Reading.peek [.elseWord] then
          let _ ← Reading.accept [.elseWord]
          let other ← Reading.block depth
          return .branch line c (some body) (some other)
        else return .branch line c (some body) none : Reading (Counted Source) Statement) p) := by
  cases items with
  | nil =>
    rw [alternative]
    exact .look_nil hp (by decide) fun q hq => .ok (by rwa [hk])
  | cons t tail =>
    rw [alternative]
    rw [List.length_cons] at hdepth
    refine .look hp (fun ht q hq _ => ?_) fun ht q hq => ?_
    · rw [if_pos (List.mem_singleton.mp ht), bind_assoc]
      exact (ih.block hq (by omega)).bind fun other r q' hq' => .ok (by rwa [hk])
    · rw [if_neg (mt List.mem_singleton.mpr ht)]
      exact .ok (by rwa [hk])

/-- An instruction is told by its first token. -/
theorem follows_instruction (t : Token) (ht : t.kind ∈ instructionStart) :
    Follows 5 (depth + 1) (Reading.instruction (depth + 1) t) (instruction t) := by
  have hassignable := (expressionsFollow depth).assignable
  intro ts items limit p hp hdepth
  rw [Reading.instruction, instruction]
  simp only [instructionStart, List.mem_cons, List.not_mem_nil, or_false] at ht
  rcases ht with hk | hk | hk | hk | hk
  · simp only [hk]
    refine (follows_namedInstruction _ _ hp (by omega)).bind fun s r q hq => ?_
    exact .accept_bind hq (by decide) fun _ r' q' _ hq' _ => .ok hq'
  · simp only [hk]
    refine (follows_condition hp (by omega)).bind fun c r q hq => ?_
    have hless := r.lt
    exact (ih.block hq (by omega)).bind fun body r' q' hq' => .ok hq'
  · simp only [hk]
    refine (follows_condition hp (by omega)).bind fun c r q hq => ?_
    have hless := r.lt
    refine (ih.block hq (by omega)).bind fun body r' q' hq' => ?_
    have hless' := r'.lt
    -- the branch is put together only once the alternative was looked for
    exact tracks_alternative ih hq' (by omega) _ c body (fun r'' => r.trans (r'.extend r''))
      fun _ => rfl
  · simp only [hk]
    refine (hassignable hp (by omega)).bind fun value r q hq => ?_
    exact .accept_bind hq (by decide) fun _ r' q' _ hq' _ => .ok hq'
  · simp only [hk]
    refine (hassignable hp (by omega)).bind fun value r q hq => ?_
    exact .accept_bind hq (by decide) fun _ r' q' _ hq' _ => .ok hq'

/-- Blocks are read on demand. -/
theorem follows_block : Follows 1 (depth + 1) (Reading.block (depth + 1)) block := by
  intro ts items limit p hp hdepth
  rw [Reading.block, block]
  refine .accept_bind hp (by decide) fun _ r q _ hq _ => ?_
  have hless := r.lt
  exact (ih.statements hq (by omega)).bind_pure fun _ _ => ⟨_, rfl, rfl⟩

/-- Statements are read on demand. -/
theorem follows_statements :
    Follows 1 (depth + 1) (Reading.statements (depth + 1)) statements := by
  intro ts items limit p hp hdepth
  rw [Reading.statements]
  cases items with
  | nil =>
    rw [statements]
    exact .look_nil hp (by decide) fun q hq => .ended hq (by decide)
  | cons t tail =>
    rw [statements]
    rw [List.length_cons] at hdepth
    refine .look hp (fun ht q hq _ => ?_) fun ht q hq => ?_
    · rw [if_pos (List.mem_singleton.mp ht)]
      exact .ok hq
    · rw [if_neg (mt List.mem_singleton.mpr ht)]
      by_cases hstart : t.kind ∈ instructionStart
      · rw [if_pos hstart]
        refine .taken hq hstart fun q' hq' _ => ?_
        refine (ih.instruction t hstart hq' (by omega)).bind fun s r q'' hq'' => ?_
        have hless := r.lt
        exact (ih.statements hq'' (by omega)).bind fun more r' _ hrest => .ok hrest
      · rw [if_neg hstart]
        exact .unexpected hq hstart

end Statements

/-- **The readers of instructions follow those of lists**, by induction on the depth. -/
theorem statementsFollow (depth : Nat) : StatementsFollow depth := by
  induction depth with
  | zero =>
    exact ⟨fun _ _ => follows_zero (by decide), follows_zero (by decide), follows_zero (by decide)⟩
  | succ depth ih => exact ⟨follows_instruction ih, follows_block ih, follows_statements ih⟩

/-- Parameters are read on demand. -/
theorem follows_moreParameters :
    Follows 1 depth (Reading.moreParameters depth) moreParameters := by
  induction depth with
  | zero => exact follows_zero (by decide)
  | succ depth ih =>
    intro ts items limit p hp hdepth
    rw [Reading.moreParameters, moreParameters]
    refine .accept_bind hp (by decide) fun name r q _ hq _ => ?_
    refine .accept_bind hq (by decide) fun separator r' q' _ hq' _ => ?_
    have hless := r.lt
    have hless' := r'.lt
    by_cases hlast : separator.kind = .roundClose
    · simp only [if_pos hlast]
      exact .ok hq'
    · simp only [if_neg hlast]
      exact (ih hq' (by omega)).bind fun more r'' q'' hq'' => .ok hq''

theorem follows_parameters : Follows 1 depth (Reading.parameters depth) parameters := by
  intro ts items limit p hp hdepth
  rw [Reading.parameters]
  refine .either (by decide) (by rw [parameters]) (fun t tail => by rw [parameters]; rfl) hp ?_
  exact fun q hq => follows_moreParameters hq hdepth

/-- Functions are read on demand. -/
theorem follows_function (line : Int) :
    Follows 0 depth (Reading.function depth line) (function line) := by
  intro ts items limit p hp hdepth
  rw [Reading.function, function]
  refine .accept_bind hp (by decide) fun name r₁ q₁ _ hq₁ _ => ?_
  refine .accept_bind hq₁ (by decide) fun _ r₂ q₂ _ hq₂ _ => ?_
  have hless₁ := r₁.lt
  have hless₂ := r₂.lt
  refine (follows_parameters hq₂ (by omega)).bind fun params r₃ q₃ hq₃ => ?_
  have hless₃ := r₃.lt
  exact ((statementsFollow depth).block hq₃ (by omega)).bind fun body r₄ q₄ hq₄ => .ok hq₄

/-! ## Templates -/

section Templates

variable {ts : Tokens} {items : List Token} {limit : Nat} {p : Parser (Counted Source)}

/-- Numbers are read on demand. -/
theorem tracks_number (hp : p.Awaits ts items limit) :
    Tracks ts limit Shorter.rest (number items) (Reading.number p) := by
  rw [Reading.number, number]
  refine .accept_bind hp (by decide) fun t r q _ hq hnothing => ?_
  rw [← bind_pure (Reading.numberOf t)]
  exact .numberOf_bind (hq.halted hnothing) fun n => .ok hq

/-- Attributes are read on demand. -/
theorem tracks_stat (hp : p.Awaits ts items limit) :
    Tracks ts limit Shorter.rest (stat items) (Reading.stat p) := by
  rw [Reading.stat, stat]
  refine (tracks_number hp).bind fun base r q hq => ?_
  -- what is left is looked at in the list, so it has to be a variable
  obtain ⟨rest, hless⟩ := r
  dsimp only at hq ⊢
  cases rest with
  | nil => exact .look_nil hq (by decide) fun q' hq' => .ok hq'
  | cons t tail =>
    have hgrows : (nextIs .increasesBy (t :: tail) || nextIs .multipliesBy (t :: tail)) = true ↔
        t.kind ∈ [Kind.increasesBy, .multipliesBy] := by
      simp [nextIs]
    refine .look hq (fun ht q' hq' _ => ?_) fun ht q' hq' => ?_
    · rw [if_pos (hgrows.mpr ht), Parsing.accept, if_pos ht]
      refine .accept_bind hq' (by decide) fun amount r' q'' _ hq'' hnothing => ?_
      by_cases hdice : amount.kind = .diceLiteral
      · simp only [if_pos hdice]
        exact .diceOf_bind (hq''.halted hnothing) fun d => .ok hq''
      · simp only [if_neg hdice]
        exact .numberOf_bind (hq''.halted hnothing) fun n => .ok hq''
    · rw [if_neg (mt hgrows.mp ht)]
      exact .ok hq'

/-- Quantities are read on demand. -/
theorem tracks_quantity (hp : p.Awaits ts items limit) :
    Tracks ts limit NoLonger.rest (quantity items) (Reading.quantity p) := by
  rw [Reading.quantity]
  cases items with
  | nil => exact .look_nil hp (by decide) fun q hq => .ok hq
  | cons t tail =>
    rw [quantity]
    refine .look hp (fun ht q hq _ => ?_) fun ht q hq => ?_
    · rw [if_pos (List.mem_singleton.mp ht)]
      exact (tracks_number hq).bind_pure fun _ _ => ⟨_, rfl, rfl⟩
    · rw [if_neg (mt List.mem_singleton.mpr ht)]
      exact .ok hq

end Templates

/-- Stacks are read on demand. -/
theorem follows_stackSet : Follows 1 depth (Reading.stackSet depth) stackSet := by
  induction depth with
  | zero => exact follows_zero (by decide)
  | succ depth ih =>
    intro ts items limit p hp hdepth
    rw [Reading.stackSet, stackSet]
    refine .accept_bind hp (by decide) fun name r q _ hq _ => ?_
    have hless := r.lt
    refine (tracks_quantity hq).bind fun n r' q' hq' => ?_
    obtain ⟨rest, hle⟩ := r'
    dsimp only at hq' ⊢
    cases rest with
    | nil => exact .look_nil hq' (by decide) fun q'' hq'' => .ok hq''
    | cons t tail =>
      rw [List.length_cons] at hle
      have hmore : nextIs .and (t :: tail) = true ↔ t.kind ∈ [Kind.and] := by simp [nextIs]
      refine .look hq' (fun ht q'' hq'' _ => ?_) fun ht q'' hq'' => ?_
      · rw [if_pos (hmore.mpr ht), Parsing.accept, if_pos ht]
        exact (ih hq'' (by omega)).bind fun more r'' _ hrest => .ok hrest
      · rw [if_neg (mt hmore.mp ht)]
        exact .ok hq''

/-- The fields of an item are read on demand. -/
theorem follows_itemBody (i : Item) : Follows 1 depth (Reading.itemBody depth i) (itemBody i) := by
  induction depth generalizing i with
  | zero => exact follows_zero (by decide)
  | succ depth ih =>
    intro ts items limit p hp hdepth
    rw [Reading.itemBody]
    cases items with
    | nil =>
      rw [itemBody]
      exact .look_nil hp (by decide) fun q hq => .ended hq (by decide)
    | cons t tail =>
      rw [itemBody]
      rw [List.length_cons] at hdepth
      refine .look hp (fun ht q hq _ => ?_) fun ht q hq => ?_
      · rw [if_pos ht]
        refine .accept_bind hq (by decide) fun _ r q' _ hq' _ => ?_
        have hless := r.lt
        by_cases hdesc : t.kind = .desc
        · simp only [if_pos hdesc]
          refine .accept_bind hq' (by decide) fun text r' q'' _ hq'' _ => ?_
          have hless' := r'.lt
          exact (ih _ hq'' (by omega)).bind_pure fun _ _ => ⟨_, rfl, rfl⟩
        · simp only [if_neg hdesc]
          refine (tracks_number hq').bind fun n r' q'' hq'' => ?_
          have hless' := r'.lt
          exact (ih _ hq'' (by omega)).bind_pure fun _ _ => ⟨_, rfl, rfl⟩
      · rw [if_neg ht]
        exact .accept_bind hq (by decide) fun _ r q' _ hq' _ => .ok hq'

/-- Items are read on demand. -/
theorem follows_item (line : Int) : Follows 0 depth (Reading.item depth line) (item line) := by
  intro ts items limit p hp hdepth
  rw [Reading.item, item]
  refine .accept_bind hp (by decide) fun name r q _ hq _ => ?_
  refine .accept_bind hq (by decide) fun _ r' q' _ hq' _ => ?_
  have hless := r.lt
  have hless' := r'.lt
  exact (follows_itemBody _ hq' (by omega)).bind_pure fun _ _ => ⟨_, rfl, rfl⟩

/-- The fields of a character are read on demand. -/
theorem follows_characterBody (c : Character) :
    Follows 1 depth (Reading.characterBody depth c) (characterBody c) := by
  induction depth generalizing c with
  | zero => exact follows_zero (by decide)
  | succ depth ih =>
    intro ts items limit p hp hdepth
    rw [Reading.characterBody]
    cases items with
    | nil =>
      rw [characterBody]
      exact .look_nil hp (by decide) fun q hq => .ended hq (by decide)
    | cons t tail =>
      rw [characterBody]
      rw [List.length_cons] at hdepth
      refine .look hp (fun ht q hq _ => ?_) fun ht q hq => ?_
      · rw [if_pos ht]
        refine .accept_bind hq (by decide) fun _ r q' _ hq' _ => ?_
        have hless := r.lt
        by_cases hstacks : t.kind ∈ [Kind.equipped, .inventory, .reward]
        · simp only [if_pos hstacks]
          refine (follows_stackSet hq' (by omega)).bind fun carried r' q'' hq'' => ?_
          have hless' := r'.lt
          exact (ih _ hq'' (by omega)).bind_pure fun _ _ => ⟨_, rfl, rfl⟩
        · simp only [if_neg hstacks]
          refine (tracks_stat hq').bind fun a r' q'' hq'' => ?_
          have hless' := r'.lt
          exact (ih _ hq'' (by omega)).bind_pure fun _ _ => ⟨_, rfl, rfl⟩
      · rw [if_neg ht]
        exact .accept_bind hq (by decide) fun _ r q' _ hq' _ => .ok hq'

/-- Characters are read on demand. -/
theorem follows_character (line : Int) :
    Follows 0 depth (Reading.character depth line) (character line) := by
  intro ts items limit p hp hdepth
  rw [Reading.character, character]
  refine .accept_bind hp (by decide) fun name r q _ hq _ => ?_
  refine .accept_bind hq (by decide) fun _ r' q' _ hq' _ => ?_
  have hless := r.lt
  have hless' := r'.lt
  exact (follows_characterBody _ hq' (by omega)).bind_pure fun _ _ => ⟨_, rfl, rfl⟩

/-! ## Programs -/

/-- Reading a program comes to the same as the reader of lists of tokens, where it has to do with
the end of the source as well. -/
inductive Ends (ts : Tokens) (limit : Nat) : Except Refusal Program →
    Option (Except ParseError Program × Parser (Counted Source)) → Prop where
  | done {program : Program} {q : Parser (Counted Source)} (hend : ts.failure = none)
      (hq : q.Halted ts [] limit) : Ends ts limit (.ok program) (some (.ok program, q))
  | broken {program : Program} {e : LexicalError} {q : Parser (Counted Source)}
      (he : ts.failure = some e) (hq : q.Halted ts [] limit) :
      Ends ts limit (.ok program) (some (.error (.lexical e), q))
  | refused {reason : Rejection} {items : List Token} {q : Parser (Counted Source)}
      (hq : q.Halted ts items limit) :
      Ends ts limit (.error ⟨reason, items⟩) (some (.error (reason.toError ts), q))

section Programs

variable {ts : Tokens} {items : List Token} {limit : Nat} {p : Parser (Counted Source)}

/-- A part of a program, and then the rest of it. -/
theorem Tracks.ends {ρ : Type} {rest : ρ → List Token} {x : Except Refusal (α × ρ)}
    {m : Reading (Counted Source) α} {f : α × ρ → Except Refusal Program}
    {g : α → Reading (Counted Source) Program} (hm : Tracks ts limit rest x (m p))
    (hg : ∀ a r q, q.Awaits ts (rest r) limit → Ends ts limit (f (a, r)) (g a q)) :
    Ends ts limit (x >>= f) ((m >>= g) p) := by
  generalize ho : m p = o at hm
  cases hm with
  | ok hq =>
    rw [Reading.bind_of_ok ho]
    exact hg _ _ _ hq
  | refused hq =>
    rw [Reading.bind_of_error ho]
    exact .refused hq

/-- A part is put in front of the rest. -/
theorem Ends.map {x : Except Refusal Program} {m : Reading (Counted Source) Program}
    (h : Ends ts limit x (m p)) (add : Program → Program) :
    Ends ts limit (x >>= fun program => pure (add program))
      ((m >>= fun program => pure (add program)) p) := by
  generalize ho : m p = o at h
  cases h with
  | done hend hq =>
    rw [Reading.bind_of_ok ho]
    exact .done hend hq
  | broken he hq =>
    rw [Reading.bind_of_error ho]
    exact .broken he hq
  | refused hq =>
    rw [Reading.bind_of_error ho]
    exact .refused hq

/-- **Reading a program follows the reader of lists**, by induction on the depth. -/
theorem ends_program (hp : p.Awaits ts items limit) (hdepth : 8 * items.length < depth) :
    Ends ts limit (program items) (Reading.program depth p) := by
  induction depth generalizing items p with
  | zero => omega
  | succ depth ih =>
    rw [Reading.program]
    cases items with
    | nil =>
      rw [program]
      rcases hfailure : ts.failure with - | e
      · obtain ⟨q, haccept, hq⟩ := hp.accept_of_end hfailure statementStart
        rw [if_pos (by decide)] at haccept
        rw [Reading.bind_of_ok (congrArg some haccept)]
        exact .done hfailure hq
      · obtain ⟨q, haccept, hq⟩ := hp.accept_of_failure hfailure statementStart
        rw [Reading.bind_of_error (congrArg some haccept)]
        exact .broken hfailure hq
    | cons t tail =>
      rw [program]
      rw [List.length_cons] at hdepth
      obtain ⟨q, haccept, hq, hnothing⟩ := hp.accept_cons statementStart
      by_cases hstart : t.kind ∈ statementStart
      · rw [if_pos hstart] at haccept
        rw [Reading.bind_of_ok (congrArg some haccept)]
        simp only [if_pos hstart]
        -- whatever part comes first, it takes at least its first token
        have hrest : ∀ (r : Shorter tail) q, q.Awaits ts r.rest limit →
            Ends ts limit (program r.rest) (Reading.program depth q) := by
          intro r q' hq'
          have hless := r.lt
          exact ih hq' (by omega)
        have hinstruction := (statementsFollow depth).instruction t
        simp only [statementStart, List.mem_cons, List.not_mem_nil, or_false, hp.kind_ne] at hstart
        rcases hstart with hk | hk | hk | hk | hk | hk | hk | hk
        · simp only [hk]
          exact (follows_item _ hq (by omega)).ends fun _ r q' hq' => (hrest r q' hq').map _
        · simp only [hk]
          exact (follows_character _ hq (by omega)).ends fun _ r q' hq' => (hrest r q' hq').map _
        · simp only [hk]
          exact (follows_function _ hq (by omega)).ends fun _ r q' hq' => (hrest r q' hq').map _
        -- all others begin an instruction
        all_goals
          simp only [hk]
          exact (hinstruction (by simp [hk, instructionStart]) hq (by omega)).ends
            fun _ r q' hq' => (hrest r q' hq').map _
      · rw [if_neg hstart] at haccept
        rw [Reading.bind_of_error (congrArg some haccept), if_neg hstart]
        exact .refused (hq.halted hnothing)

/-- **Reading token by token has the outcome of reading the list of all tokens.** -/
theorem parse_of_awaits (hp : p.Awaits ts items limit) (hnothing : p.buffered = none)
    (hdepth : 8 * items.length < depth) :
    ∃ q, p.parse depth = some (({ ts with items := items } : Tokens).parse.1, q) ∧
      q.Halted ts ({ ts with items := items } : Tokens).parse.2.items limit := by
  have hdropped : p.dropped = p := by rw [dropped, ← hnothing]
  have hends := ends_program hp hdepth
  rw [parse, hdropped, Tokens.parse]
  generalize hx : program items = x at hends
  generalize ho : Reading.program depth p = o at hends
  cases hends with
  | done hend hq =>
    simp only [hend]
    exact ⟨_, rfl, hq⟩
  | broken he hq =>
    simp only [he]
    exact ⟨_, rfl, hq⟩
  | @refused reason left q hq =>
    have herror : reason.toError { ts with items := items } = reason.toError ts := by
      cases reason <;> rfl
    simp only [herror]
    exact ⟨q, rfl, hq⟩

end Programs

/-! ## Readings one after the other -/

/-- The parser after a number of readings, each of which goes on where the last one stopped. -/
def again {σ : Type} [Lexer σ] (depth : Nat) (p : Parser σ) : (readings : Nat) → Option (Parser σ)
  | 0 => some p
  | k + 1 => (p.again depth k).bind fun q => (q.parse depth).map Prod.snd

/-- What may still be asked for is at most one token more than there are characters. -/
theorem Awaits.limit_le {ts : Tokens} {items : List Token} {limit : Nat}
    {p : Parser (Counted Source)} (h : p.Awaits ts items limit) (hnothing : p.buffered = none) :
    limit ≤ p.lexer.asked + p.lexer.inner.rest.length + 1 := by
  cases h with
  | @free s _ n hs =>
    have hle := s.length_items_tokens_le
    rw [hs] at hle
    dsimp only at hle ⊢
    omega
  | ahead => cases hnothing
  | atEnd => cases hnothing
  | failed s n => exact Nat.le_succ_of_le (Nat.le_add_right _ _)

/-- **Any number of readings come to an end**, where the readings of lists of tokens do. -/
theorem exists_again (s : Source) (hdepth : 8 * s.rest.length < depth) (k : Nat) :
    ∃ p, (ofLexer (⟨s, 0⟩ : Counted Source)).again depth k = some p ∧
      ∃ limit, p.Halted s.tokens (s.tokens.left k).items limit := by
  induction k with
  | zero => exact ⟨_, rfl, _, (Awaits.free 0 rfl).halted rfl⟩
  | succ k ih =>
    obtain ⟨p, hagain, limit, hnothing, -, limit', hp⟩ := ih
    have hle := s.length_left_le k
    obtain ⟨q, hparse, hq⟩ := parse_of_awaits hp hnothing (by omega : _ < depth)
    rw [Tokens.left_eq] at hq
    refine ⟨q, ?_, limit', hq⟩
    rw [again, hagain, Option.bind_some, hparse]
    rfl

/-- **Reading ends on every source.** Whatever the source holds and however it ends, and after any
number of readings, the next one comes to an end if it may go eight levels deep for each character:
it has the outcome of reading the tokens that are left, and until then the source was asked for at
most one token more than it had characters to be read. Each answer that is neither the end nor a
failure of the stream takes at least one of them. -/
theorem reading_ends (s : Source) :
    (∀ depth k, 8 * s.rest.length < depth →
      ∃ p q, (ofLexer (⟨s, 0⟩ : Counted Source)).again depth k = some p ∧
        p.parse depth = some ((s.tokens.left k).parse.1, q) ∧
        q.lexer.asked ≤ p.lexer.asked + p.lexer.inner.rest.length + 1) ∧
    ((∃ t, s.token.1 = .ok t ∧ t.kind = .endOfFile) ∨
      (∃ text position, s.token.1 = .error (.unreadable text position)) ∨
      s.token.2.rest.length < s.rest.length) := by
  refine ⟨fun depth k hdepth => ?_, ?_⟩
  · obtain ⟨p, hagain, -, hnothing, -, limit, hp⟩ := exists_again s hdepth k
    have hle := s.length_left_le k
    obtain ⟨q, hparse, hq⟩ := parse_of_awaits hp hnothing (by omega : _ < depth)
    rw [Tokens.left_eq] at hparse
    exact ⟨p, q, hagain, hparse, Nat.le_trans hq.asked_le (hp.limit_le hnothing)⟩
  · rcases htoken : s.token with ⟨answer, s'⟩
    cases Source.asked_of_token htoken with
    | taken _ hless => exact .inr (.inr hless)
    | ended => exact .inl ⟨_, rfl, rfl⟩
    | malformed hless => exact .inr (.inr hless)
    | unreadable text position => exact .inr (.inl ⟨text, position, rfl⟩)

end Parser

end Adventure
