import Adventure.Proofs.Reading.Leaf

/-!
# Reading expressions exactly

The readers of expressions call each other, so they are exact together: at each number of tokens
each of them is exact if all are on fewer tokens (`ExpressionsExact`).
-/

namespace Adventure.Parsing

open Text Grammar

/-! ## The readers as forms -/

/-- What the reader makes of operands in a row is what the grammar says of them. -/
theorem chainOf_eq_chained (first : Expr) (more : List (ArithOp × Expr)) :
    chainOf first more = chained first more := by
  cases more <;> rfl

/-- An expression is a term and the terms behind it. -/
theorem reads_expression :
    reads expression = (reads term).bind fun first => (mayRead terms).bind fun more =>
      Reader.give (chained first more) := by
  funext ts
  rw [reads, expression]
  simp only [chainOf_eq_chained]
  exact forget_bind rfl fun first r => forget_bind rfl fun more r' => rfl

/-- A term is a primary and the factors behind it. -/
theorem reads_term :
    reads term = (reads primary).bind fun first => (mayRead factors).bind fun more =>
      Reader.give (chained first more) := by
  funext ts
  rw [reads, term]
  simp only [chainOf_eq_chained]
  exact forget_bind rfl fun first r => forget_bind rfl fun more r' => rfl

theorem additive?_eq (kind : Kind) :
    additive? kind = if kind ∈ [.plus, .minus] then some (arithOpOf kind) else none := by
  cases kind <;> rfl

theorem multiplicative?_eq (kind : Kind) :
    multiplicative? kind = if kind ∈ [.asterisk, .slash] then some (arithOpOf kind) else none := by
  cases kind <;> rfl

/-- Terms go on as long as there is a sign between them. -/
theorem mayRead_terms :
    mayRead terms = Reader.choose [.plus, .minus]
      ((reads (accept [.plus, .minus])).bind fun sign => (reads term).bind fun operand =>
        (mayRead terms).bind fun more => Reader.give ((arithOpOf sign.kind, operand) :: more))
      (Reader.give []) := by
  funext ts
  rcases ts with - | ⟨t, ts⟩
  · rw [choose_nil (by decide), mayRead, terms]
    rfl
  rw [choose_accept_cons, mayRead, terms, additive?_eq]
  by_cases hk : t.kind ∈ [Kind.plus, .minus]
  · simp only [if_pos hk]
    exact forget_bind rfl fun operand r => forget_bind rfl fun more r' => rfl
  · simp only [if_neg hk]
    rfl

/-- Factors go on as long as there is an operator of products between them. -/
theorem mayRead_factors :
    mayRead factors = Reader.choose [.asterisk, .slash]
      ((reads (accept [.asterisk, .slash])).bind fun sign => (reads primary).bind fun operand =>
        (mayRead factors).bind fun more => Reader.give ((arithOpOf sign.kind, operand) :: more))
      (Reader.give []) := by
  funext ts
  rcases ts with - | ⟨t, ts⟩
  · rw [choose_nil (by decide), mayRead, factors]
    rfl
  rw [choose_accept_cons, mayRead, factors, multiplicative?_eq]
  by_cases hk : t.kind ∈ [Kind.asterisk, .slash]
  · simp only [if_pos hk]
    exact forget_bind rfl fun operand r => forget_bind rfl fun more r' => rfl
  · simp only [if_neg hk]
    rfl

/-- A name is a call if a parenthesis follows, and a variable otherwise. -/
theorem mayRead_callOrVar (name : String) :
    mayRead (callOrVar name) = Reader.choose [.roundOpen]
      ((reads (accept [.roundOpen])).bind fun _ => (reads arguments).bind fun args =>
        Reader.give (.call name args))
      (Reader.give (.var name)) := by
  funext ts
  rcases ts with - | ⟨t, ts⟩
  · rw [choose_nil (by decide), mayRead, callOrVar]
    rfl
  rw [choose_accept_cons, mayRead, callOrVar]
  simp only [List.mem_singleton]
  split
  · exact forget_bind rfl fun args r => rfl
  · rfl

/-- What can be assigned is a text or an expression. -/
theorem reads_assignable :
    reads assignable = Reader.choose [.stringLiteral]
      ((reads (accept [.stringLiteral])).bind fun t => Reader.give (.text t.value))
      (reads expression) := by
  funext ts
  rcases ts with - | ⟨t, ts⟩
  · rw [choose_nil (by decide), reads, assignable]
    rfl
  rw [choose_accept_cons, reads, assignable]
  simp only [List.mem_singleton]
  split <;> rfl

/-- The arguments of a call end at once, or there is a first one. -/
theorem reads_arguments :
    reads arguments = Reader.choose [.roundClose]
      ((reads (accept [.roundClose])).bind fun _ => Reader.give []) (reads moreArguments) := by
  funext ts
  rcases ts with - | ⟨t, ts⟩
  · rw [choose_nil (by decide), reads, arguments]
    rfl
  rw [choose_accept_cons, reads, arguments]
  simp only [List.mem_singleton]
  split <;> rfl

/-- What follows an element of a list in parentheses: the end of the list, or more elements. -/
def afterElement {α : Type} (more : Reader (List α)) (element : α) : Reader (List α) :=
  Reader.take [.comma, .roundClose] literalOf fun t _ =>
    if t.kind = .roundClose then Reader.give [element]
    else more.bind fun elements => Reader.give (element :: elements)

/-- An argument is followed by the end of the list or by more. -/
theorem reads_moreArguments :
    reads moreArguments =
      (reads assignable).bind fun argument => afterElement (reads moreArguments) argument := by
  funext ts
  rw [reads, moreArguments]
  refine forget_bind rfl fun argument r => ?_
  refine forget_accept_of_plain (by decide) fun t r' _ => ?_
  simp only
  split
  · rfl
  · exact forget_bind rfl fun more r'' => rfl

/-- What follows the first token of an operand. -/
def afterPrimaryStart (t : Token) : Literal → Reader Expr
  | .number n => Reader.give (.number n)
  | .dice d => Reader.give (.dice d)
  | .plain =>
    if t.kind = .roundOpen then
      (reads expression).bind fun e => (reads (accept [.roundClose])).bind fun _ => Reader.give e
    else if t.kind = .identifier then mayRead (callOrVar t.value)
    else
      Reader.take [.diceLiteral, .identifier] literalOf fun operand lit =>
        match lit with
        | .dice d => Reader.give (.roll (.dice d))
        | _ => Reader.give (.roll (.var operand.value))

/-- Which primary it is shows in its first token. -/
theorem reads_primary :
    reads primary = Reader.take primaryStart literalOf afterPrimaryStart := by
  funext ts
  rw [reads, primary]
  refine forget_accept (fun t lit r ht hlit => ?_) fun t reason r ht hlit => ?_
  · simp only [primaryStart, List.mem_cons, List.not_mem_nil, or_false] at ht
    rcases ht with hk | hk | hk | hk | hk
    · -- parentheses
      rw [literalOf_of_ne (by simp [hk])] at hlit
      obtain rfl := Except.ok.inj hlit
      simp only [hk, afterPrimaryStart, if_pos]
      exact forget_bind rfl fun e r' => forget_bind rfl fun t' r'' => rfl
    · -- a name, which may be that of a function
      rw [literalOf_of_ne (by simp [hk])] at hlit
      obtain rfl := Except.ok.inj hlit
      simp only [hk, afterPrimaryStart, reduceCtorEq, if_false, if_true]
      exact forget_bind_pure fun _ _ => rfl
    · -- a roll, where a second token is checked
      rw [literalOf_of_ne (by simp [hk])] at hlit
      obtain rfl := Except.ok.inj hlit
      simp only [hk, afterPrimaryStart, reduceCtorEq, if_false]
      refine forget_accept (fun t' lit' r' ht' hlit' => ?_) fun t' reason r' ht' hlit' => ?_
      · simp only [List.mem_cons, List.not_mem_nil, or_false] at ht'
        rcases ht' with hk' | hk'
        · obtain ⟨l, rfl, rfl⟩ := exists_diceLeaf hk' hlit'
          simp only [hk', diceOf_token, reduceCtorEq, if_false]
          rfl
        · rw [literalOf_of_ne (by simp [hk'])] at hlit'
          obtain rfl := Except.ok.inj hlit'
          simp only [hk', if_true]
          rfl
      · have hk' : t'.kind = .diceLiteral := by
          have hne := kind_of_literalOf_error hlit'
          simp only [List.mem_cons, List.not_mem_nil, or_false] at ht'
          rcases ht' with hk' | hk' <;> simp [hk'] at hne ⊢
        simp only [hk', diceOf_of_error hk' hlit', reduceCtorEq, if_false]
        rfl
    · obtain ⟨l, rfl, rfl⟩ := exists_numberLeaf hk hlit
      simp only [hk, numberOf_token]
      rfl
    · obtain ⟨l, rfl, rfl⟩ := exists_diceLeaf hk hlit
      simp only [hk, diceOf_token]
      rfl
  · rcases kind_of_literalOf_error hlit with hk | hk
    · simp only [hk, numberOf_of_error hk hlit]
      rfl
    · simp only [hk, diceOf_of_error hk hlit]
      rfl

/-! ## What is left of a tree -/

theorem spare_primary : Spare Primary.tokens :=
  spare_number.map .number fun _ => by rw [Primary.tokens]

theorem spare_factors : Spare Factors.tokens :=
  .of_nil .nil (by rw [Factors.tokens])

theorem spare_term : Spare Term.tokens :=
  (spare_primary.pair spare_factors).map (fun x => .mk x.1 x.2) fun _ => by rw [Term.tokens]

theorem spare_terms : Spare Terms.tokens :=
  .of_nil .nil (by rw [Terms.tokens])

theorem spare_expression : Spare Expression.tokens :=
  (spare_term.pair spare_terms).map (fun x => .mk x.1 x.2) fun _ => by rw [Expression.tokens]

theorem spare_assignable : Spare Assignable.tokens :=
  spare_expression.map .expression fun _ => by rw [Assignable.tokens]

theorem spare_arguments : Spare Arguments.tokens :=
  (spare_leaf (by decide)).map .none fun _ => by rw [Arguments.tokens]

theorem spare_moreArguments : Spare MoreArguments.tokens :=
  (spare_assignable.pair (spare_leaf (by decide))).map (fun x => .last x.1 x.2) fun _ => by
    rw [MoreArguments.tokens]

/-! ## Fronts -/

/-- What would go on with an operand. -/
def operandGoesOn : List Kind :=
  [.roundOpen]

/-- What would go on with a product. -/
def productGoesOn : List Kind :=
  [.asterisk, .slash, .roundOpen]

/-- What would go on with a sum. -/
def sumGoesOn : List Kind :=
  [.plus, .minus, .asterisk, .slash, .roundOpen]

/-- A primary has a token. -/
theorem length_primary_pos (x : Primary) : 1 ≤ x.tokens.length := by
  cases x <;> simp [Primary.tokens]

/-- A term begins with a primary, so it has a token. -/
theorem length_term_pos (x : Term) : 1 ≤ x.tokens.length := by
  obtain ⟨first, more⟩ := x
  have hfirst := length_primary_pos first
  rw [Term.tokens, List.length_append]
  omega

/-- An expression begins with a term, so it has a token. -/
theorem length_expression_pos (x : Expression) : 1 ≤ x.tokens.length := by
  obtain ⟨first, more⟩ := x
  have hfirst := length_term_pos first
  rw [Expression.tokens, List.length_append]
  omega

/-- What can be assigned has a token. -/
theorem length_assignable_pos (x : Assignable) : 1 ≤ x.tokens.length := by
  cases x with
  | text => simp [Assignable.tokens]
  | expression e =>
    rw [Assignable.tokens]
    exact length_expression_pos e

theorem operandGoesOn_subset : operandGoesOn ⊆ productGoesOn := by decide

theorem productGoesOn_subset : productGoesOn ⊆ sumGoesOn := by decide

/-- What cannot go on a product cannot go on an operand of it, also behind more factors. -/
theorem front_factors (x : Factors) (rest : List Token) (h : frontKind rest ∉ productGoesOn) :
    frontKind (x.tokens ++ rest) ∉ operandGoesOn := by
  cases x with
  | nil =>
    rw [Factors.tokens]
    exact fun hmem => h (operandGoesOn_subset hmem)
  | cons sign first more =>
    rw [Factors.tokens]
    exact leaf_not_mem (by decide) sign

/-- What cannot go on a sum cannot go on a term of it, also behind more terms. -/
theorem front_terms (x : Terms) (rest : List Token) (h : frontKind rest ∉ sumGoesOn) :
    frontKind (x.tokens ++ rest) ∉ productGoesOn := by
  cases x with
  | nil =>
    rw [Terms.tokens]
    exact fun hmem => h (productGoesOn_subset hmem)
  | cons sign first more =>
    rw [Terms.tokens]
    exact leaf_not_mem (by decide) sign

/-- A primary begins with a token that primaries begin with. -/
theorem front_primary (x : Primary) (rest : List Token) :
    frontKind (x.tokens ++ rest) ∈ primaryStart := by
  cases x with
  | nested l | var l | call l | rollDice l | rollVar l =>
    simp [Primary.tokens, kind_of_leaf l, primaryStart]
  | number l | dice l => simp [Primary.tokens, l.kind_eq, primaryStart]

/-- An expression begins with a primary. -/
theorem front_expression (x : Expression) (rest : List Token) :
    frontKind (x.tokens ++ rest) ∈ primaryStart := by
  obtain ⟨⟨first, factors⟩, terms⟩ := x
  rw [Expression.tokens, Term.tokens, List.append_assoc, List.append_assoc]
  exact front_primary first _

/-- What can be assigned begins with a text or a primary. -/
theorem front_assignable (x : Assignable) (rest : List Token) :
    frontKind (x.tokens ++ rest) ∈ Kind.stringLiteral :: primaryStart := by
  cases x with
  | text l =>
    rw [Assignable.tokens]
    exact List.mem_cons.mpr (.inl (kind_of_leaf l))
  | expression e =>
    rw [Assignable.tokens]
    exact List.mem_cons_of_mem _ (front_expression e rest)

/-- A list of arguments begins with the first of them. -/
theorem front_moreArguments (x : MoreArguments) (rest : List Token) :
    frontKind (x.tokens ++ rest) ∈ Kind.stringLiteral :: primaryStart := by
  cases x with
  | last argument closing =>
    rw [MoreArguments.tokens, List.append_assoc]
    exact front_assignable argument _
  | cons argument comma more =>
    rw [MoreArguments.tokens, List.append_assoc]
    exact front_assignable argument _

/-! ## Exactness -/

/-- The readers of expressions are exact on at most `n` tokens. -/
structure ExpressionsExact (n : Nat) : Prop where
  expression : Exact n (reads expression) sumGoesOn Expression.tokens Expression.value
  terms : Exact n (mayRead terms) sumGoesOn Terms.tokens Terms.value
  term : Exact n (reads term) productGoesOn Term.tokens Term.value
  factors : Exact n (mayRead factors) productGoesOn Factors.tokens Factors.value
  primary : Exact n (reads primary) operandGoesOn Primary.tokens Primary.value
  assignable : Exact n (reads assignable) sumGoesOn Assignable.tokens Assignable.value
  arguments : Exact n (reads arguments) [] Arguments.tokens Arguments.value
  moreArguments : Exact n (reads moreArguments) [] MoreArguments.tokens MoreArguments.value

section Step

variable {n : Nat} (ih : ∀ m < n, ExpressionsExact m)

include ih

/-- Terms are read exactly if primaries are, and as far as no operator of products follows. -/
theorem exact_term
    (hprimary : Exact n (reads primary) operandGoesOn Primary.tokens Primary.value) :
    Exact n (reads term) productGoesOn Term.tokens Term.value := by
  rw [reads_term]
  have hbind := hprimary.bind 1
    (fun first m hm => (ih m (by omega)).factors.bind_give fun more => chained first more)
    length_primary_pos front_factors spare_factors
  refine hbind.map (fun x => .mk x.1 x.2) ?_ (fun _ => by rw [Term.tokens])
    fun _ => by rw [Term.value]
  rintro ⟨first, more⟩
  exact ⟨(first, more), rfl⟩

/-- Expressions are read exactly if terms are, and as far as no operator follows. -/
theorem exact_expression
    (hterm : Exact n (reads term) productGoesOn Term.tokens Term.value) :
    Exact n (reads expression) sumGoesOn Expression.tokens Expression.value := by
  rw [reads_expression]
  have hbind := hterm.bind 1
    (fun first m hm => (ih m (by omega)).terms.bind_give fun more => chained first more)
    length_term_pos front_terms spare_terms
  refine hbind.map (fun x => .mk x.1 x.2) ?_ (fun _ => by rw [Expression.tokens])
    fun _ => by rw [Expression.value]
  rintro ⟨first, more⟩
  exact ⟨(first, more), rfl⟩

omit ih in
/-- Signs and operands in a row, for whatever signs and operands. -/
theorem exact_more {X Y : Type} {kinds stop stop' : List Kind} {f : Reader Expr}
    {g : Reader (List (ArithOp × Expr))} {tokens : X → List Token} {value : X → Expr}
    {tokens' : Y → List Token} {value' : Y → List (ArithOp × Expr)} (hkinds : Plain kinds)
    (hstop : kinds ⊆ stop') (hf : ∀ m < n, Exact m f stop tokens value)
    (hg : ∀ m < n, Exact m g stop' tokens' value') (hlength : ∀ x, 1 ≤ (tokens x).length)
    (hfront : ∀ y rest, frontKind rest ∉ stop' → frontKind (tokens' y ++ rest) ∉ stop)
    (hspare : Spare tokens) (hspare' : Spare tokens') :
    Exact n (Reader.choose kinds ((reads (accept kinds)).bind fun sign => f.bind fun operand =>
        g.bind fun more => Reader.give ((arithOpOf sign.kind, operand) :: more)) (Reader.give []))
      stop'
      (Sum.elim (fun x : Leaf kinds × X × Y => [x.1.token] ++ (tokens x.2.1 ++ tokens' x.2.2))
        fun _ : Unit => [])
      (Sum.elim (fun x => (arithOpOf x.1.token.kind, value x.2.1) :: value' x.2.2)
        fun _ => []) := by
  have hpair : ∀ (sign : Token) (m : Nat), m + 1 ≤ n →
      Exact m (f.bind fun operand => g.bind fun more =>
          Reader.give ((arithOpOf sign.kind, operand) :: more)) stop'
        (fun x : X × Y => tokens x.1 ++ tokens' x.2)
        (fun x => (arithOpOf sign.kind, value x.1) :: value' x.2) := by
    intro sign m hm
    exact (hf m (by omega)).bind 1
      (fun operand k hk => (hg k (by omega)).bind_give fun more =>
        (arithOpOf sign.kind, operand) :: more)
      hlength hfront hspare'
  -- the sign takes a token, so the induction hypotheses reach what is behind it
  have hcons := (exact_accept hkinds).bind 1 hpair (fun _ => Nat.le_refl _)
    (fun _ _ _ => List.not_mem_nil) (hspare.pair hspare')
  have hnil : Exact n (Reader.give ([] : List (ArithOp × Expr))) stop' (fun _ : Unit => [])
      (fun _ => []) :=
    (Exact.give []).mono_stop (List.nil_subset _)
  exact hcons.choose hnil (fun x _ => x.1.mem) fun _ rest hrest hmem => hrest (hstop hmem)

/-- The factors behind a primary are read exactly. -/
theorem exact_factors : Exact n (mayRead factors) productGoesOn Factors.tokens Factors.value := by
  rw [mayRead_factors]
  have hmore := exact_more (show Plain [.asterisk, .slash] by decide) (by decide)
    (fun m hm => (ih m hm).primary) (fun m hm => (ih m hm).factors)
    length_primary_pos front_factors spare_primary spare_factors
  refine hmore.map (Sum.elim (fun x => .cons x.1 x.2.1 x.2.2) fun _ => .nil) ?_ ?_ ?_
  · rintro (_ | ⟨sign, first, more⟩)
    · exact ⟨.inr (), rfl⟩
    · exact ⟨.inl (sign, first, more), rfl⟩
  · rintro (x | _) <;> simp [Factors.tokens]
  · rintro (x | _) <;> simp [Factors.value]

/-- The terms behind a term are read exactly. -/
theorem exact_terms : Exact n (mayRead terms) sumGoesOn Terms.tokens Terms.value := by
  rw [mayRead_terms]
  have hmore := exact_more (show Plain [.plus, .minus] by decide) (by decide)
    (fun m hm => (ih m hm).term) (fun m hm => (ih m hm).terms) length_term_pos front_terms
    spare_term spare_terms
  refine hmore.map (Sum.elim (fun x => .cons x.1 x.2.1 x.2.2) fun _ => .nil) ?_ ?_ ?_
  · rintro (_ | ⟨sign, first, more⟩)
    · exact ⟨.inr (), rfl⟩
    · exact ⟨.inl (sign, first, more), rfl⟩
  · rintro (x | _) <;> simp [Terms.tokens]
  · rintro (x | _) <;> simp [Terms.value]

omit ih in
/-- What can be assigned is read exactly if expressions are. -/
theorem exact_assignable
    (hexpression : Exact n (reads expression) sumGoesOn Expression.tokens Expression.value) :
    Exact n (reads assignable) sumGoesOn Assignable.tokens Assignable.value := by
  rw [reads_assignable]
  have htext : Exact n ((reads (accept [.stringLiteral])).bind fun t =>
      Reader.give (Expr.text t.value)) sumGoesOn (fun l : Leaf [.stringLiteral] => [l.token])
      (fun l => .text l.token.value) :=
    ((exact_accept (by decide)).bind_give fun t => Expr.text t.value).mono_stop
      (List.nil_subset _)
  have hchoose := htext.choose hexpression (fun l _ => l.mem) fun x rest _ hmem => by
    have hfront := front_expression x rest
    rw [List.mem_singleton.mp hmem] at hfront
    exact absurd hfront (by decide)
  refine hchoose.map (Sum.elim .text .expression) ?_ ?_ ?_
  · rintro (l | x)
    · exact ⟨.inl l, rfl⟩
    · exact ⟨.inr x, rfl⟩
  · rintro (l | x) <;> simp [Assignable.tokens]
  · rintro (l | x) <;> simp [Assignable.value]

omit ih in
/-- A separator and what follows it, for whatever elements. -/
theorem exact_afterElement {α Y : Type} {more : Reader (List α)} {tokens : Y → List Token}
    {value : Y → List α} (hmore : ∀ m < n, Exact m more [] tokens value) (hspare : Spare tokens)
    (element : α) :
    Exact n (afterElement more element) []
      (Sum.elim (fun l : Leaf [.roundClose] => [l.token])
        fun x : Leaf [.comma] × Y => x.1.token :: tokens x.2)
      (Sum.elim (fun _ => [element]) fun x => element :: value x.2) := by
  have hplain : Plain [.comma, .roundClose] := by decide
  refine Exact.take (Sum.elim (fun l => l.token) fun x => x.1.token)
    (Sum.elim (fun _ => []) fun x => tokens x.2) ?_ ?_ (blames_of_literalOf _)
    hplain.endOfFile_not_mem ⟨hplain.1, ?_⟩ ?_
  · rintro (l | x) <;> rfl
  · rintro (l | ⟨l, x⟩)
    · have hmem : l.token.kind ∈ [Kind.comma, .roundClose] := by simp [kind_of_leaf l]
      exact ⟨hmem, _, hplain.literalOf hmem⟩
    · have hmem : l.token.kind ∈ [Kind.comma, .roundClose] := by simp [kind_of_leaf l]
      exact ⟨hmem, _, hplain.literalOf hmem⟩
  · intro kind hkind
    simp only [List.mem_cons, List.not_mem_nil, or_false] at hkind
    rcases hkind with rfl | rfl
    · exact exists_writes_cons (by decide) hspare .inr fun _ => rfl
    · exact exists_writes_leaf (by decide) .inl fun _ => rfl
  -- a parenthesis ends the elements and a comma goes on with them, so the token tells which it is
  · intro t lit ht _ m hm
    by_cases hk : t.kind = .roundClose
    · rw [if_pos hk]
      refine (Exact.give [element]).map
        (fun _ => ⟨.inl ⟨t, List.mem_singleton.mpr hk⟩, rfl⟩) ?_ (fun _ => rfl) fun _ => rfl
      rintro ⟨l | ⟨l, x⟩, hl⟩
      · obtain rfl : l.token = t := hl
        exact ⟨(), rfl⟩
      · have hcomma := kind_of_leaf l
        obtain rfl : l.token = t := hl
        rw [hcomma] at hk
        cases hk
    · have hcomma : t.kind = .comma := by simpa [hk] using ht
      rw [if_neg hk]
      refine ((hmore m (by omega)).bind_give fun elements => element :: elements).map
        (fun x => ⟨.inr (⟨t, List.mem_singleton.mpr hcomma⟩, x), rfl⟩) ?_ (fun _ => rfl)
        fun _ => rfl
      rintro ⟨l | ⟨l, x⟩, hl⟩
      · have hclose := kind_of_leaf l
        obtain rfl : l.token = t := hl
        exact absurd hclose hk
      · obtain rfl : l.token = t := hl
        exact ⟨x, rfl⟩

/-- Arguments are read exactly, and as the list is closed it does not matter what follows. -/
theorem exact_moreArguments
    (hassignable : Exact n (reads assignable) sumGoesOn Assignable.tokens Assignable.value) :
    Exact n (reads moreArguments) [] MoreArguments.tokens MoreArguments.value := by
  rw [reads_moreArguments]
  have hbind := hassignable.bind 1
    (fun argument m hm => exact_afterElement (fun k hk => (ih k (by omega)).moreArguments)
      spare_moreArguments argument)
    length_assignable_pos ?_ ?_
  · refine hbind.map
      (fun x => x.2.elim (fun closing => .last x.1 closing) fun y => .cons x.1 y.1 y.2) ?_ ?_ ?_
    · rintro (⟨argument, closing⟩ | ⟨argument, comma, more⟩)
      · exact ⟨(argument, .inl closing), rfl⟩
      · exact ⟨(argument, .inr (comma, more)), rfl⟩
    · rintro ⟨argument, closing | ⟨comma, more⟩⟩ <;> simp [MoreArguments.tokens]
    · rintro ⟨argument, closing | ⟨comma, more⟩⟩ <;> simp [MoreArguments.value]
  · rintro (closing | ⟨comma, more⟩) rest -
    · exact leaf_not_mem (by decide) closing
    · exact leaf_not_mem (by decide) comma
  · exact (spare_leaf (by decide)).map .inl fun _ => rfl

omit ih in
/-- Arguments in parentheses are read exactly, also if there are none. -/
theorem exact_arguments
    (hmore : Exact n (reads moreArguments) [] MoreArguments.tokens MoreArguments.value) :
    Exact n (reads arguments) [] Arguments.tokens Arguments.value := by
  rw [reads_arguments]
  have hnone := (exact_accept (n := n) (show Plain [.roundClose] by decide)).bind_give
    fun _ => ([] : List Expr)
  have hchoose := hnone.choose hmore (fun l _ => l.mem) fun x rest _ hmem => by
    have hfront := front_moreArguments x rest
    rw [List.mem_singleton.mp hmem] at hfront
    exact absurd hfront (by decide)
  refine hchoose.map (Sum.elim .none .some) ?_ ?_ ?_
  · rintro (l | x)
    · exact ⟨.inl l, rfl⟩
    · exact ⟨.inr x, rfl⟩
  · rintro (l | x) <;> simp [Arguments.tokens]
  · rintro (l | x) <;> simp [Arguments.value]

/-- What follows a name is read exactly. -/
theorem exact_callOrVar {m : Nat} (hm : m < n) (name : String) :
    Exact m (mayRead (callOrVar name)) operandGoesOn
      (Sum.elim (fun x : Leaf [.roundOpen] × Arguments => [x.1.token] ++ x.2.tokens)
        fun _ : Unit => [])
      (Sum.elim (fun x => .call name x.2.value) fun _ => .var name) := by
  rw [mayRead_callOrVar]
  have hcall := (exact_accept (n := m) (show Plain [.roundOpen] by decide)).bind 1
    (fun _ k hk => (ih k (by omega)).arguments.bind_give fun args => Expr.call name args)
    (fun _ => Nat.le_refl _) (fun _ _ _ => List.not_mem_nil) spare_arguments
  have hvar : Exact m (Reader.give (Expr.var name)) operandGoesOn (fun _ : Unit => [])
      (fun _ => .var name) :=
    (Exact.give _).mono_stop (List.nil_subset _)
  exact (hcall.mono_stop (List.nil_subset _)).choose hvar (fun x _ => x.1.mem)
    fun _ rest hrest => hrest

omit ih in
/-- What is rolled: dice, or a variable. -/
theorem exact_rollOperand :
    Exact n (Reader.take [.diceLiteral, .identifier] literalOf fun operand lit =>
        match lit with
        | .dice d => Reader.give (.roll (.dice d))
        | _ => Reader.give (.roll (.var operand.value)))
      []
      (Sum.elim (fun l : DiceLeaf => [l.token]) fun l : Leaf [.identifier] => [l.token])
      (Sum.elim (fun l => Expr.roll (.dice l.value)) fun l => .roll (.var l.token.value)) := by
  refine Exact.take (Sum.elim (fun l => l.token) fun l => l.token) (fun _ => []) ?_ ?_
    (blames_of_literalOf _) (by decide) ⟨by decide, ?_⟩ ?_
  · rintro (l | l) <;> rfl
  · rintro (l | l)
    · exact ⟨by simp [l.kind_eq], _, literalOf_dice l⟩
    · have hk := kind_of_leaf l
      exact ⟨by simp [hk], _, literalOf_of_ne (by simp [hk])⟩
  · intro kind hkind
    simp only [List.mem_cons, List.not_mem_nil, or_false] at hkind
    rcases hkind with rfl | rfl
    · exact ⟨_, _, writes_dice.map .inl fun _ => rfl⟩
    · exact exists_writes_leaf (by decide) .inr fun _ => rfl
  · intro t lit ht hlit m hm
    simp only [List.mem_cons, List.not_mem_nil, or_false] at ht
    rcases ht with hk | hk
    · obtain ⟨l, rfl, rfl⟩ := exists_diceLeaf hk hlit
      refine (Exact.give _).map (fun _ => ⟨.inl l, rfl⟩) ?_ (fun _ => rfl) fun _ => rfl
      -- the token tells whether the tree is dice or a name
      rintro ⟨l' | l', hl'⟩
      · obtain rfl := diceLeaf_eq_of_token hl'
        exact ⟨(), rfl⟩
      · have hk' := kind_of_leaf l'
        rw [show l'.token = l.token from hl', hk] at hk'
        cases hk'
    · rw [literalOf_of_ne (by simp [hk])] at hlit
      obtain rfl := Except.ok.inj hlit
      refine (Exact.give _).map (fun _ => ⟨.inr ⟨t, List.mem_singleton.mpr hk⟩, rfl⟩) ?_
        (fun _ => rfl) fun _ => rfl
      rintro ⟨l' | l', hl'⟩
      · have hk' := l'.kind_eq
        rw [show l'.token = t from hl', hk] at hk'
        cases hk'
      · obtain rfl : l'.token = t := hl'
        exact ⟨(), rfl⟩

end Step

/-- The first token of an operand. -/
def primaryHead : Primary → Token
  | .nested l _ _ | .var l | .call l _ _ | .rollDice l _ | .rollVar l _ => l.token
  | .number l => l.token
  | .dice l => l.token

/-- The kind of the first token of an operand. -/
def primaryKind : Primary → Kind
  | .nested .. => .roundOpen
  | .var _ | .call .. => .identifier
  | .rollDice .. | .rollVar .. => .caret
  | .number _ => .numberLiteral
  | .dice _ => .diceLiteral

/-- The first token of a primary has the kind that goes with its form. -/
theorem kind_primaryHead (x : Primary) : (primaryHead x).kind = primaryKind x := by
  cases x with
  | nested l | var l | call l | rollDice l | rollVar l => exact kind_of_leaf l
  | number l | dice l => exact l.kind_eq

/-- The tokens of an operand after the first one. -/
def primaryTail : Primary → List Token
  | .nested _ inner closing => inner.tokens ++ [closing.token]
  | .call _ opening arguments => opening.token :: arguments.tokens
  | .rollDice _ dice => [dice.token]
  | .rollVar _ name => [name.token]
  | .var _ | .number _ | .dice _ => []

/-- A primary is its first token and the tail. -/
theorem tokens_primary (x : Primary) : x.tokens = primaryHead x :: primaryTail x := by
  cases x <;> rw [Primary.tokens] <;> rfl

/-- The first token of a primary is a good literal, if it is one. -/
theorem exists_literalOf_primaryHead (x : Primary) :
    ∃ lit, literalOf (primaryHead x) = .ok lit := by
  cases x with
  | nested l | var l | call l | rollDice l | rollVar l =>
    exact ⟨_, literalOf_of_ne (by simp [primaryHead, kind_of_leaf l])⟩
  | number l => exact ⟨_, literalOf_number l⟩
  | dice l => exact ⟨_, literalOf_dice l⟩

/-- Each kind that primaries begin with does begin one that can be written. -/
theorem viable_primary : Viable Primary.tokens [] primaryStart := by
  refine ⟨by decide, fun kind hkind => ?_⟩
  simp only [primaryStart, List.mem_cons, List.not_mem_nil, or_false] at hkind
  rcases hkind with rfl | rfl | rfl | rfl | rfl
  · exact exists_writes_cons (by decide)
      (spare_expression.pair (spare_leaf (show Plain [.roundClose] by decide)))
      (fun x => .nested x.1 x.2.1 x.2.2) fun _ => by rw [Primary.tokens]
  · exact exists_writes_leaf (by decide) .var fun _ => by rw [Primary.tokens]
  · exact exists_writes_cons (by decide) (spare_leaf (show Plain [.identifier] by decide))
      (fun x => .rollVar x.1 x.2) fun _ => by rw [Primary.tokens]
  · exact ⟨_, _, writes_number.map .number fun _ => by rw [Primary.tokens]⟩
  · exact ⟨_, _, writes_dice.map .dice fun _ => by rw [Primary.tokens]⟩

section Primary

variable {n : Nat} (ih : ∀ m < n, ExpressionsExact m) {t : Token} {m : Nat}

include ih

/-- A primary in parentheses is read exactly. -/
theorem exact_nested (hk : t.kind = .roundOpen) (hm : m < n) :
    Exact m (afterPrimaryStart t .plain) operandGoesOn
      (fun x : { x // primaryHead x = t } => primaryTail x) (fun x => x.1.value) := by
  have hbind := (ih m hm).expression.bind 0
    (fun e k _ => (exact_accept (n := k) (show Plain [.roundClose] by decide)).bind_give fun _ => e)
    (fun _ => Nat.zero_le _) (fun l _ _ => leaf_not_mem (by decide) l) (spare_leaf (by decide))
  rw [afterPrimaryStart, if_pos hk]
  refine (hbind.mono_stop (List.nil_subset _)).map
    (fun x => ⟨.nested ⟨t, List.mem_singleton.mpr hk⟩ x.1 x.2, rfl⟩) ?_ (fun _ => rfl)
    fun _ => by rw [Primary.value]
  rintro ⟨x, rfl⟩
  rw [kind_primaryHead] at hk
  cases x with
  | nested opening inner closing => exact ⟨(inner, closing), rfl⟩
  | var | call | rollDice | rollVar | number | dice => cases hk

/-- A call or a variable is read exactly. -/
theorem exact_named (hk : t.kind = .identifier) (hm : m < n) :
    Exact m (afterPrimaryStart t .plain) operandGoesOn
      (fun x : { x // primaryHead x = t } => primaryTail x) (fun x => x.1.value) := by
  rw [afterPrimaryStart, if_neg (by simp [hk]), if_pos hk]
  refine (exact_callOrVar ih hm t.value).map
    (Sum.elim (fun x => ⟨.call ⟨t, List.mem_singleton.mpr hk⟩ x.1 x.2, rfl⟩)
      fun _ => ⟨.var ⟨t, List.mem_singleton.mpr hk⟩, rfl⟩) ?_ ?_ ?_
  · rintro ⟨x, rfl⟩
    rw [kind_primaryHead] at hk
    cases x with
    | var name => exact ⟨.inr (), rfl⟩
    | call name opening arguments => exact ⟨.inl (opening, arguments), rfl⟩
    | nested | rollDice | rollVar | number | dice => cases hk
  · rintro (x | _) <;> rfl
  · rintro (x | _) <;> simp [Primary.value]

omit ih in
/-- A roll is read exactly. -/
theorem exact_roll (hk : t.kind = .caret) :
    Exact m (afterPrimaryStart t .plain) operandGoesOn
      (fun x : { x // primaryHead x = t } => primaryTail x) (fun x => x.1.value) := by
  rw [afterPrimaryStart, if_neg (by simp [hk]), if_neg (by simp [hk])]
  refine (exact_rollOperand.mono_stop (List.nil_subset _)).map
    (Sum.elim (fun l => ⟨.rollDice ⟨t, List.mem_singleton.mpr hk⟩ l, rfl⟩)
      fun l => ⟨.rollVar ⟨t, List.mem_singleton.mpr hk⟩ l, rfl⟩) ?_ ?_ ?_
  · rintro ⟨x, rfl⟩
    rw [kind_primaryHead] at hk
    cases x with
    | rollDice caret dice => exact ⟨.inl dice, rfl⟩
    | rollVar caret name => exact ⟨.inr name, rfl⟩
    | nested | var | call | number | dice => cases hk
  · rintro (l | l) <;> rfl
  · rintro (l | l) <;> simp [Primary.value]

omit ih in
/-- A literal is read exactly: nothing follows it. -/
theorem exact_literal {lit : Literal} (hk : t.kind = .numberLiteral ∨ t.kind = .diceLiteral)
    (hlit : literalOf t = .ok lit) :
    Exact m (afterPrimaryStart t lit) operandGoesOn
      (fun x : { x // primaryHead x = t } => primaryTail x) (fun x => x.1.value) := by
  rcases hk with hk | hk
  · obtain ⟨l, rfl, rfl⟩ := exists_numberLeaf hk hlit
    refine ((Exact.give _).mono_stop (List.nil_subset _)).map (fun _ => ⟨.number l, rfl⟩) ?_
      (fun _ => rfl) fun _ => by rw [Primary.value]
    rintro ⟨x, hx⟩
    rw [← hx, kind_primaryHead] at hk
    cases x with
    | number l' =>
      obtain rfl := numberLeaf_eq_of_token hx
      exact ⟨(), rfl⟩
    | nested | var | call | rollDice | rollVar | dice => cases hk
  · obtain ⟨l, rfl, rfl⟩ := exists_diceLeaf hk hlit
    refine ((Exact.give _).mono_stop (List.nil_subset _)).map (fun _ => ⟨.dice l, rfl⟩) ?_
      (fun _ => rfl) fun _ => by rw [Primary.value]
    rintro ⟨x, hx⟩
    rw [← hx, kind_primaryHead] at hk
    cases x with
    | dice l' =>
      obtain rfl := diceLeaf_eq_of_token hx
      exact ⟨(), rfl⟩
    | nested | var | call | rollDice | rollVar | number => cases hk

/-- Primaries are read exactly if everything is on fewer tokens. -/
theorem exact_primary :
    Exact n (reads primary) operandGoesOn Primary.tokens Primary.value := by
  rw [reads_primary]
  refine Exact.take primaryHead primaryTail tokens_primary ?_ (blames_of_literalOf _) (by decide)
    viable_primary ?_
  · intro x
    refine ⟨?_, exists_literalOf_primaryHead x⟩
    have hfront := front_primary x []
    rwa [tokens_primary] at hfront
  · intro t lit ht hlit m hm
    have hplain : t.kind ≠ .numberLiteral ∧ t.kind ≠ .diceLiteral → lit = .plain := by
      intro hne
      rw [literalOf_of_ne hne] at hlit
      exact (Except.ok.inj hlit).symm
    simp only [primaryStart, List.mem_cons, List.not_mem_nil, or_false] at ht
    rcases ht with hk | hk | hk | hk
    · obtain rfl := hplain (by simp [hk])
      exact exact_nested ih hk hm
    · obtain rfl := hplain (by simp [hk])
      exact exact_named ih hk hm
    · obtain rfl := hplain (by simp [hk])
      exact exact_roll hk
    · exact exact_literal hk hlit

end Primary

/-- **Expressions are read exactly.** -/
theorem expressionsExact (n : Nat) : ExpressionsExact n := by
  induction n using Nat.strong_induction_on with
  | _ n ih =>
    have hprimary := exact_primary ih
    have hterm := exact_term ih hprimary
    have hexpression := exact_expression ih hterm
    have hassignable := exact_assignable hexpression
    have hmoreArguments := exact_moreArguments ih hassignable
    exact {
      expression := hexpression
      terms := exact_terms ih
      term := hterm
      factors := exact_factors ih
      primary := hprimary
      assignable := hassignable
      arguments := exact_arguments hmoreArguments
      moreArguments := hmoreArguments }

end Adventure.Parsing
