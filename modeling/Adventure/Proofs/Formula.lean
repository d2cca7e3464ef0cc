import Adventure.ProgramFile
import Adventure.Proofs.RoundTrip
import Adventure.Proofs.WholeNumbers

/-!
# Formulas

A formula is made of natural numbers by sums, differences and products. It is worth a whole number,
and it can be written down: operators stand between their operands, and parentheses stand at least
where the formula would otherwise be taken for another one, because products bind more tightly and
operators of one sort are grouped from the left (`Formula.Written`).

Logging what is written shows what the formula is worth, as long as nothing in it exceeds 64 bits
(`Machine.log_formula`). Reading makes a flat chain of a formula that leans to the left, and keeps
no trace of parentheses; evaluating runs along the chain. So the text of a sum is followed as a
first operand and the operands behind it (`ReadAsChain`), and a formula written behind an operator
adds one more to them (`ReadAsChain.snoc`).
-/

namespace Adventure

open Text Parsing

/-! ## Formulas and their texts -/

/-- A calculation with natural numbers. -/
inductive Formula where
  /-- a number -/
  | literal (n : Nat)
  /-- the first formula plus the second -/
  | sum (a b : Formula)
  /-- the first formula minus the second -/
  | difference (a b : Formula)
  /-- the first formula times the second -/
  | product (a b : Formula)
  deriving DecidableEq, Repr

namespace Formula

/-- What the formula is worth, in whole numbers of any size. -/
def value : Formula → Int
  | literal n => n
  | sum a b => a.value + b.value
  | difference a b => a.value - b.value
  | product a b => a.value * b.value

/-- The formula itself and all formulas in it. -/
def subformulas : Formula → List Formula
  | literal n => [literal n]
  | sum a b => sum a b :: (a.subformulas ++ b.subformulas)
  | difference a b => difference a b :: (a.subformulas ++ b.subformulas)
  | product a b => product a b :: (a.subformulas ++ b.subformulas)

/-- The formula and all formulas in it are worth numbers of 64 bits. -/
def Fits (f : Formula) : Prop :=
  ∀ g ∈ f.subformulas, FitsWord g.value

instance (f : Formula) : Decidable f.Fits :=
  inferInstanceAs (Decidable (∀ g ∈ f.subformulas, FitsWord g.value))

theorem fits_sum_iff {a b : Formula} :
    (sum a b).Fits ↔ FitsWord (a.value + b.value) ∧ a.Fits ∧ b.Fits := by
  simp [Fits, subformulas, value, or_imp, forall_and]

theorem fits_difference_iff {a b : Formula} :
    (difference a b).Fits ↔ FitsWord (a.value - b.value) ∧ a.Fits ∧ b.Fits := by
  simp [Fits, subformulas, value, or_imp, forall_and]

theorem fits_product_iff {a b : Formula} :
    (product a b).Fits ↔ FitsWord (a.value * b.value) ∧ a.Fits ∧ b.Fits := by
  simp [Fits, subformulas, value, or_imp, forall_and]

/-- A formula that fits has a value that does. -/
theorem Fits.value {f : Formula} (h : f.Fits) : FitsWord f.value :=
  h f (by cases f <;> simp [subformulas])

/-- The sort of place that a formula is written in. -/
inductive Tier where
  /-- where sums and differences need no parentheses: alone, inside parentheses, or before a plus
  or minus -/
  | sum
  /-- where products need no parentheses: also behind a plus or minus, and before an asterisk -/
  | product
  /-- where only numbers need no parentheses: behind an asterisk -/
  | operand
  deriving DecidableEq, Repr

/-- `Written tier f cs`: in a place of the given sort, the characters `cs` write the formula `f`.
There may be blanks before every symbol and number, zeros before every number, and more parentheses
than are needed. -/
inductive Written : Tier → Formula → List Char → Prop where
  /-- digits -/
  | literal {gap cs : List Char} (hgap : ∀ c ∈ gap, isBlank c = true) (hne : cs ≠ [])
      (hcs : ∀ c ∈ cs, isDigit c = true) :
      Written .operand (.literal (Numeral.natural cs)) (gap ++ cs)
  /-- any formula in parentheses -/
  | enclosed {f : Formula} {gap cs gap' : List Char} (hgap : ∀ c ∈ gap, isBlank c = true)
      (h : Written .sum f cs) (hgap' : ∀ c ∈ gap', isBlank c = true) :
      Written .operand f (gap ++ '(' :: (cs ++ (gap' ++ [')'])))
  /-- an operand, where products may stand -/
  | operand {f : Formula} {cs : List Char} (h : Written .operand f cs) : Written .product f cs
  /-- a product -/
  | product {a b : Formula} {cs gap ds : List Char} (ha : Written .product a cs)
      (hgap : ∀ c ∈ gap, isBlank c = true) (hb : Written .operand b ds) :
      Written .product (.product a b) (cs ++ (gap ++ '*' :: ds))
  /-- a product, where sums may stand -/
  | term {f : Formula} {cs : List Char} (h : Written .product f cs) : Written .sum f cs
  /-- a sum -/
  | sum {a b : Formula} {cs gap ds : List Char} (ha : Written .sum a cs)
      (hgap : ∀ c ∈ gap, isBlank c = true) (hb : Written .product b ds) :
      Written .sum (.sum a b) (cs ++ (gap ++ '+' :: ds))
  /-- a difference -/
  | difference {a b : Formula} {cs gap ds : List Char} (ha : Written .sum a cs)
      (hgap : ∀ c ∈ gap, isBlank c = true) (hb : Written .product b ds) :
      Written .sum (.difference a b) (cs ++ (gap ++ '-' :: ds))

/-- The text in parentheses, if they are needed. -/
def enclosedIf (needed : Bool) (cs : List Char) : List Char :=
  if needed then '(' :: (cs ++ [')']) else cs

/-- The formula with no parentheses but those that are needed, and with no blanks. -/
def render (tier : Tier) : Formula → List Char
  | literal n => Nat.toDigits 10 n
  | sum a b => enclosedIf (tier ≠ .sum) (a.render .sum ++ '+' :: b.render .product)
  | difference a b => enclosedIf (tier ≠ .sum) (a.render .sum ++ '-' :: b.render .product)
  | product a b => enclosedIf (tier = .operand) (a.render .product ++ '*' :: b.render .operand)

/-- An operand can stand anywhere. -/
theorem Written.anywhere {f : Formula} {cs : List Char} (h : Written .operand f cs) (tier : Tier) :
    Written tier f cs := by
  cases tier with
  | sum => exact .term (.operand h)
  | product => exact .operand h
  | operand => exact h

/-- A formula in parentheses is an operand; without them it has its own tier. -/
theorem Written.enclosedIf {f : Formula} {cs : List Char} {needed : Bool} {tier : Tier}
    (h : Written .sum f cs) (hfree : needed = false → Written tier f cs) :
    Written tier f (Formula.enclosedIf needed cs) := by
  cases needed with
  | false => exact hfree rfl
  | true => exact (enclosed (List.forall_mem_nil _) h (List.forall_mem_nil _)).anywhere tier

/-- **Every formula can be written** in every place, with the parentheses that are needed there. -/
theorem written_render (f : Formula) (tier : Tier) : f.Written tier (f.render tier) := by
  induction f generalizing tier with
  | literal n =>
    have hdigits : ∀ c ∈ Nat.toDigits 10 n, isDigit c = true :=
      fun c => Numeral.isDigit_of_mem_toDigits
    have hwritten := Written.literal (List.forall_mem_nil _) Nat.toDigits_ne_nil hdigits
    rw [Numeral.natural, Nat.ofDigitChars_ten_toDigits] at hwritten
    exact hwritten.anywhere tier
  | sum a b iha ihb =>
    have hsum := Written.sum (iha .sum) (List.forall_mem_nil _) (ihb .product)
    refine hsum.enclosedIf fun hfree => ?_
    obtain rfl : tier = .sum := by simpa using hfree
    exact hsum
  | difference a b iha ihb =>
    have hdifference := Written.difference (iha .sum) (List.forall_mem_nil _) (ihb .product)
    refine hdifference.enclosedIf fun hfree => ?_
    obtain rfl : tier = .sum := by simpa using hfree
    exact hdifference
  | product a b iha ihb =>
    have hproduct := Written.product (iha .product) (List.forall_mem_nil _) (ihb .operand)
    refine hproduct.term.enclosedIf fun hfree => ?_
    cases tier with
    | sum => exact .term hproduct
    | product => exact hproduct
    | operand => simp at hfree

end Formula

/-! ## What chains evaluate to -/

/-- From some number of steps on, the expression is worth the number `x` in every scope, and changes
nothing. -/
def Expr.Denotes (e : Expr) (x : Int64) : Prop :=
  ∃ least, ∀ n, least ≤ n → ∀ (r : Rules) (scope : Scope) (w : World),
    r.eval n scope e w = .done (.int x) w

/-- A number denotes itself. -/
theorem Expr.denotes_number (x : Int64) : (Expr.number x).Denotes x := by
  refine ⟨1, fun n hn r scope w => ?_⟩
  obtain ⟨n, rfl⟩ : ∃ k, n = k + 1 := ⟨n - 1, by omega⟩
  rw [Rules.eval]

/-- `FoldsTo x more z`: taking in the operands `more` one after the other leads from the number `x`
to the number `z`. -/
inductive FoldsTo : Int64 → List (ArithOp × Expr) → Int64 → Prop where
  | nil (x : Int64) : FoldsTo x [] x
  | cons {op : ArithOp} {e : Expr} {more : List (ArithOp × Expr)} {x y x' z : Int64}
      (he : e.Denotes y) (happly : op.apply (.int x) (.int y) = .ok (.int x'))
      (h : FoldsTo x' more z) : FoldsTo x ((op, e) :: more) z

namespace FoldsTo

variable {first e : Expr} {op : ArithOp} {more : List (ArithOp × Expr)} {x y z z' : Int64}

/-- One more operand is taken in last. -/
theorem snoc (h : FoldsTo x more z) (he : e.Denotes y)
    (happly : op.apply (.int z) (.int y) = .ok (.int z')) : FoldsTo x (more ++ [(op, e)]) z' := by
  induction h with
  | nil x => exact .cons he happly (.nil z')
  | cons he' happly' _ ih => exact .cons he' happly' (ih happly)

/-- What is folded is what a chain of operands comes to. -/
theorem chain (h : FoldsTo x more z) :
    ∃ least, ∀ n, least ≤ n → ∀ (r : Rules) (scope : Scope) (w : World),
      r.chain n scope (.int x) (more.map (·.2)) (more.map (·.1)) w = .done (.int z) w := by
  induction h with
  | nil x =>
    refine ⟨1, fun n hn r scope w => ?_⟩
    obtain ⟨n, rfl⟩ : ∃ k, n = k + 1 := ⟨n - 1, by omega⟩
    rfl
  | cons he happly _ ih =>
    obtain ⟨least, hleast⟩ := he
    obtain ⟨least', hleast'⟩ := ih
    refine ⟨max least least' + 1, fun n hn r scope w => ?_⟩
    obtain ⟨n, rfl⟩ : ∃ k, n = k + 1 := ⟨n - 1, by omega⟩
    simp only [List.map_cons, Rules.chain, hleast n (by omega), Outcome.bind_done, happly]
    exact hleast' n (by omega) r scope w

/-- **A chain is worth what its operands lead to**, from the first one on. -/
theorem denotes (h : FoldsTo x more z) (hfirst : first.Denotes x) :
    (Grammar.chained first more).Denotes z := by
  cases more with
  | nil =>
    cases h
    exact hfirst
  | cons operand more =>
    -- a number passes the check that is made of the first operand
    obtain ⟨least, hleast⟩ := hfirst
    obtain ⟨least', hleast'⟩ := h.chain
    refine ⟨max least least' + 1, fun n hn r scope w => ?_⟩
    obtain ⟨n, rfl⟩ : ∃ k, n = k + 1 := ⟨n - 1, by omega⟩
    simp only [Grammar.chained_of_ne_nil first (List.cons_ne_nil _ _), Rules.eval,
      hleast n (by omega), Outcome.bind_done, List.map_cons, Value.isNumeric, if_true]
    exact hleast' n (by omega) r scope w

end FoldsTo

/-! ## Trees with one more operand -/

namespace Grammar

/-- The factors with one more behind them. -/
def Factors.snoc : Factors → Leaf [.asterisk, .slash] → Primary → Factors
  | .nil, sign, x => .cons sign x .nil
  | .cons sign' first more, sign, x => .cons sign' first (more.snoc sign x)

theorem Factors.tokens_snoc : ∀ (xs : Factors) (sign : Leaf [.asterisk, .slash]) (x : Primary),
    (xs.snoc sign x).tokens = xs.tokens ++ sign.token :: x.tokens
  | .nil, sign, x => by simp [snoc, tokens]
  | .cons sign' first more, sign, x => by simp [snoc, tokens, tokens_snoc more]

theorem Factors.value_snoc : ∀ (xs : Factors) (sign : Leaf [.asterisk, .slash]) (x : Primary),
    (xs.snoc sign x).value = xs.value ++ [(arithOpOf sign.token.kind, x.value)]
  | .nil, sign, x => rfl
  | .cons sign' first more, sign, x => by simp [snoc, value, value_snoc more]

/-- The terms with one more behind them. -/
def Terms.snoc : Terms → Leaf [.plus, .minus] → Term → Terms
  | .nil, sign, x => .cons sign x .nil
  | .cons sign' first more, sign, x => .cons sign' first (more.snoc sign x)

theorem Terms.tokens_snoc : ∀ (xs : Terms) (sign : Leaf [.plus, .minus]) (x : Term),
    (xs.snoc sign x).tokens = xs.tokens ++ sign.token :: x.tokens
  | .nil, sign, x => by simp [snoc, tokens]
  | .cons sign' first more, sign, x => by simp [snoc, tokens, tokens_snoc more]

theorem Terms.value_snoc : ∀ (xs : Terms) (sign : Leaf [.plus, .minus]) (x : Term),
    (xs.snoc sign x).value = xs.value ++ [(arithOpOf sign.token.kind, x.value)]
  | .nil, sign, x => rfl
  | .cons sign' first more, sign, x => by simp [snoc, value, value_snoc more]

/-- The first operand of a product, and the others with their operators. -/
def Term.operands : Term → Expr × List (ArithOp × Expr)
  | .mk first more => (first.value, more.value)

/-- A term is the chain of its operands. -/
theorem Term.value_eq_chained (x : Term) : x.value = chained x.operands.1 x.operands.2 := by
  cases x
  rfl

/-- The product with one more factor. -/
def Term.snoc : Term → Leaf [.asterisk, .slash] → Primary → Term
  | .mk first more, sign, x => .mk first (more.snoc sign x)

theorem Term.tokens_snoc (t : Term) (sign : Leaf [.asterisk, .slash]) (x : Primary) :
    (t.snoc sign x).tokens = t.tokens ++ sign.token :: x.tokens := by
  cases t
  simp [snoc, tokens, Factors.tokens_snoc]

theorem Term.operands_snoc (t : Term) (sign : Leaf [.asterisk, .slash]) (x : Primary) :
    (t.snoc sign x).operands =
      (t.operands.1, t.operands.2 ++ [(arithOpOf sign.token.kind, x.value)]) := by
  cases t
  simp [snoc, operands, Factors.value_snoc]

/-- The first operand of a sum, and the others with their operators. -/
def Expression.operands : Expression → Expr × List (ArithOp × Expr)
  | .mk first more => (first.value, more.value)

/-- An expression is the chain of its operands. -/
theorem Expression.value_eq_chained (x : Expression) :
    x.value = chained x.operands.1 x.operands.2 := by
  cases x
  rfl

/-- The sum with one more term. -/
def Expression.snoc : Expression → Leaf [.plus, .minus] → Term → Expression
  | .mk first more, sign, x => .mk first (more.snoc sign x)

theorem Expression.tokens_snoc (s : Expression) (sign : Leaf [.plus, .minus]) (x : Term) :
    (s.snoc sign x).tokens = s.tokens ++ sign.token :: x.tokens := by
  cases s
  simp [snoc, tokens, Terms.tokens_snoc]

theorem Expression.operands_snoc (s : Expression) (sign : Leaf [.plus, .minus]) (x : Term) :
    (s.snoc sign x).operands =
      (s.operands.1, s.operands.2 ++ [(arithOpOf sign.token.kind, x.value)]) := by
  cases s
  simp [snoc, operands, Terms.value_snoc]

end Grammar

/-! ## Reading formulas -/

/-- The text is read as a tree that stands for an expression worth `x`. -/
def ReadAsWorth {X : Type} (tokens : X → List Token) (value : X → Expr) (cs : List Char)
    (x : Int64) : Prop :=
  ∃ e, ReadAs tokens value cs e ∧ e.Denotes x

/-- The text is read as a tree whose operands, taken in one after the other, are worth `x`. -/
def ReadAsChain {X : Type} (tokens : X → List Token)
    (operands : X → Expr × List (ArithOp × Expr)) (cs : List Char) (x : Int64) : Prop :=
  ∃ first more y, ReadAs tokens operands cs (first, more) ∧ first.Denotes y ∧ FoldsTo y more x

/-- The operators of formulas. -/
def formulaSigns : List (Char × Kind) :=
  [('+', .plus), ('-', .minus), ('*', .asterisk)]

/-- A sign closes what stands before it. -/
theorem closes_sign {c : Char} {kind : Kind} (h : (c, kind) ∈ formulaSigns) (cs : List Char) :
    Closes (c :: cs) := by
  have hsigns : ∀ entry ∈ formulaSigns, entry.1 ∈ boundaries := by decide
  exact closes_cons (hsigns _ h) cs

/-- The text begins with a character that is no equals sign, which no operator grows by. -/
def Opens (cs : List Char) : Prop :=
  ∃ c rest, cs = c :: rest ∧ c ≠ '='

/-- A text still opens so if more follows. -/
theorem opens_append {cs : List Char} (h : Opens cs) (ds : List Char) : Opens (cs ++ ds) := by
  obtain ⟨c, rest, rfl, hc⟩ := h
  exact ⟨c, rest ++ ds, rfl, hc⟩

/-- Blanks may stand before such a text. -/
theorem opens_blank {gap cs : List Char} (hgap : ∀ c ∈ gap, isBlank c = true) (h : Opens cs) :
    Opens (gap ++ cs) := by
  cases gap with
  | nil => exact h
  | cons c gap =>
    refine ⟨c, gap ++ cs, rfl, ?_⟩
    rintro rfl
    exact absurd (hgap '=' List.mem_cons_self) (by decide)

/-- A formula begins with no equals sign, so an operator before it does not grow. -/
theorem Formula.Written.opens {tier : Tier} {f : Formula} {cs : List Char}
    (h : f.Written tier cs) : Opens cs := by
  induction h with
  | @literal gap cs hgap hne hcs =>
    refine opens_blank hgap ?_
    cases cs with
    | nil => exact absurd rfl hne
    | cons c cs =>
      refine ⟨c, cs, rfl, ?_⟩
      rintro rfl
      exact absurd (hcs '=' List.mem_cons_self) (by decide)
  | enclosed hgap _ _ _ => exact opens_blank hgap ⟨'(', _, rfl, by decide⟩
  | operand _ ih => exact ih
  | product _ _ _ iha _ => exact opens_append iha _
  | term _ ih => exact ih
  | sum _ _ _ iha _ => exact opens_append iha _
  | difference _ _ _ iha _ => exact opens_append iha _

/-- No operator grows into a text that begins with something else than an equals sign. -/
theorem halts_sign {c : Char} {kind : Kind} (h : (c, kind) ∈ formulaSigns) {cs : List Char}
    (hcs : Opens cs) : Halts kind.growsBy cs := by
  obtain ⟨d, ds, rfl, hd⟩ := hcs
  rw [halts_cons]
  simp only [formulaSigns, List.mem_cons, Prod.mk.injEq, List.not_mem_nil, or_false] at h
  rcases h with ⟨-, rfl⟩ | ⟨-, rfl⟩ | ⟨-, rfl⟩
  all_goals simp [Kind.growsBy, hd]

/-- An operator and what stands behind it. -/
theorem ReadAs.behindSign {Y β : Type} {tokens : Y → List Token} {value : Y → β} {cs : List Char}
    {b : β} {c : Char} {kind : Kind} {kinds : List Kind} (hsign : (c, kind) ∈ formulaSigns)
    (hkind : kind ∈ kinds) (h : ReadAs tokens value cs b) (hopens : Opens cs) :
    ReadAs (fun x : Grammar.Leaf kinds × Y => x.1.token :: tokens x.2)
      (fun x => (Grammar.arithOpOf x.1.token.kind, value x.2)) (c :: cs)
      (Grammar.arithOpOf kind, b) := by
  have hsingles : formulaSigns ⊆ Kind.singles := by decide
  obtain ⟨faces, hspells, htree⟩ := h
  refine ⟨(kind, "") :: faces, fun rest hrest => ?_, fun us hus => ?_⟩
  · have hsymbol := Spells.cons (List.forall_mem_nil _) (.single (hsingles hsign))
      (halts_sign hsign (opens_append hopens rest)) (hspells rest hrest)
    exact hsymbol
  · obtain ⟨t, us, rfl, ht, hus⟩ := List.map_eq_cons_iff.mp hus
    obtain ⟨x, rfl, rfl⟩ := htree us hus
    obtain rfl : t.kind = kind := congrArg Prod.fst ht
    exact ⟨(⟨t, hkind⟩, x), rfl, rfl⟩

/-- **An operand behind an operator is one more operand of the chain.** Here `snoc` adds it to the
tree. -/
theorem ReadAsChain.snoc {X Y : Type} {kinds : List Kind} {tokens : X → List Token}
    {operands : X → Expr × List (ArithOp × Expr)} {tokens' : Y → List Token} {value' : Y → Expr}
    (snoc : X → Grammar.Leaf kinds → Y → X)
    (htokens : ∀ x l y, tokens (snoc x l y) = tokens x ++ l.token :: tokens' y)
    (hoperands : ∀ x l y, operands (snoc x l y) =
      ((operands x).1, (operands x).2 ++ [(Grammar.arithOpOf l.token.kind, value' y)]))
    {c : Char} {kind : Kind} (hsign : (c, kind) ∈ formulaSigns) (hkind : kind ∈ kinds)
    {cs gap ds : List Char} {x y z : Int64} (h : ReadAsChain tokens operands cs x)
    (hgap : ∀ c ∈ gap, isBlank c = true) (h' : ReadAsWorth tokens' value' ds y)
    (hopens : Opens ds)
    (happly : (Grammar.arithOpOf kind).apply (.int x) (.int y) = .ok (.int z)) :
    ReadAsChain tokens operands (cs ++ (gap ++ c :: ds)) z := by
  obtain ⟨first, more, start, hread, hfirst, hmore⟩ := h
  obtain ⟨e, hread', he⟩ := h'
  refine ⟨first, more ++ [(Grammar.arithOpOf kind, e)], start, ?_, hfirst, hmore.snoc he happly⟩
  have hbehind := (hread'.behindSign hsign hkind hopens).blank (by simp) hgap
  refine (hread.pair hbehind fun rest _ => ?_).map (fun x => snoc x.1 x.2.1 x.2.2)
    (fun x => htokens _ _ _) (fun a => (a.1.1, a.1.2 ++ [a.2])) fun x => hoperands _ _ _
  rw [List.append_assoc]
  exact closes_blank hgap (closes_sign hsign _)

/-- A single operand is a chain. -/
theorem ReadAsWorth.chain {X Y : Type} {tokens : X → List Token} {value : X → Expr}
    {tokens' : Y → List Token} {operands : Y → Expr × List (ArithOp × Expr)} (φ : X → Y)
    (htokens : ∀ x, tokens' (φ x) = tokens x) (hoperands : ∀ x, operands (φ x) = (value x, []))
    {cs : List Char} {x : Int64} (h : ReadAsWorth tokens value cs x) :
    ReadAsChain tokens' operands cs x := by
  obtain ⟨e, hread, he⟩ := h
  exact ⟨e, [], x, hread.map φ htokens (fun e => (e, [])) hoperands, he, .nil x⟩

/-- A chain is worth what its operands lead to. -/
theorem ReadAsChain.worth {X : Type} {tokens : X → List Token} {value : X → Expr}
    {operands : X → Expr × List (ArithOp × Expr)}
    (hvalue : ∀ x, value x = Grammar.chained (operands x).1 (operands x).2) {cs : List Char}
    {x : Int64} (h : ReadAsChain tokens operands cs x) : ReadAsWorth tokens value cs x := by
  obtain ⟨first, more, start, hread, hfirst, hmore⟩ := h
  have hchain := hread.map id (fun _ => rfl) (fun a => Grammar.chained a.1 a.2) hvalue
  exact ⟨Grammar.chained first more, hchain, hmore.denotes hfirst⟩

namespace Formula

/-- What it takes to read a text as worth `x` in a place of the given sort. -/
def Tier.Reads : Tier → List Char → Int64 → Prop
  | .sum => ReadAsChain Grammar.Expression.tokens Grammar.Expression.operands
  | .product => ReadAsChain Grammar.Term.tokens Grammar.Term.operands
  | .operand => ReadAsWorth Grammar.Primary.tokens Grammar.Primary.value

/-- A numeral is read as its number. -/
theorem reads_literal {gap cs : List Char} (hgap : ∀ c ∈ gap, isBlank c = true) (hne : cs ≠ [])
    (hcs : ∀ c ∈ cs, isDigit c = true) (hfits : FitsWord (Numeral.natural cs)) :
    Tier.operand.Reads (gap ++ cs) (.ofInt (Numeral.natural cs)) := by
  have hdecimal : Numeral.decimal (.ofList cs) = .ok (.ofInt (Numeral.natural cs)) := by
    rw [Numeral.decimal_digits_eq_ok_iff hne hcs, toInt_ofInt_of_fitsWord hfits]
  refine ⟨.number (.ofInt (Numeral.natural cs)), ?_, Expr.denotes_number _⟩
  refine ReadAs.blank (ReadAs.of_lexeme (.number hne hcs) fun t hkind hvalue => ?_)
    length_primary_pos hgap
  exact ⟨.number ⟨t, hkind, _, hvalue ▸ hdecimal⟩, rfl, rfl⟩

theorem Tier.Reads.worth {cs : List Char} {x : Int64} (h : Tier.sum.Reads cs x) :
    ReadAsWorth Grammar.Expression.tokens Grammar.Expression.value cs x :=
  ReadAsChain.worth Grammar.Expression.value_eq_chained h

/-- What is enclosed in parentheses is read as an operand. -/
theorem reads_enclosed {gap cs gap' : List Char} {x : Int64} (hgap : ∀ c ∈ gap, isBlank c = true)
    (h : Tier.sum.Reads cs x) (hgap' : ∀ c ∈ gap', isBlank c = true) :
    Tier.operand.Reads (gap ++ '(' :: (cs ++ (gap' ++ [')']))) x := by
  obtain ⟨e, hread, he⟩ := h.worth
  have hclosing := Grammar.readAs_closing.blank (fun _ => Nat.le_refl 1) hgap'
  have hinner := hread.pair hclosing fun rest _ => by
    rw [List.append_assoc]
    exact closes_blank hgap' (closes_cons (by decide) _)
  have hnested := hinner.behind Grammar.mem_singles_roundOpen fun _ => rfl
  have hprimary : ReadAs Grammar.Primary.tokens Grammar.Primary.value
      ('(' :: (cs ++ (gap' ++ [')']))) e :=
    hnested.map (fun x => .nested x.1 x.2.1 x.2.2) (fun _ => rfl) Prod.fst fun _ => rfl
  exact ⟨e, hprimary.blank length_primary_pos hgap, he⟩

/-- A term behind a plus or minus is one more term of the sum. -/
theorem reads_snoc_term {c : Char} {kind : Kind} (hsign : (c, kind) ∈ formulaSigns)
    (hkind : kind ∈ [Kind.plus, .minus]) {cs gap ds : List Char} {x y z : Int64}
    (h : Tier.sum.Reads cs x) (hgap : ∀ c ∈ gap, isBlank c = true) (h' : Tier.product.Reads ds y)
    (hopens : Opens ds)
    (happly : (Grammar.arithOpOf kind).apply (.int x) (.int y) = .ok (.int z)) :
    Tier.sum.Reads (cs ++ (gap ++ c :: ds)) z :=
  ReadAsChain.snoc Grammar.Expression.snoc Grammar.Expression.tokens_snoc
    Grammar.Expression.operands_snoc hsign hkind h hgap
    (ReadAsChain.worth Grammar.Term.value_eq_chained h') hopens happly

/-- **A text that writes a formula is read as worth what the formula is worth**, by induction on how
it is written. -/
theorem Written.reads {tier : Tier} {f : Formula} {cs : List Char} (h : f.Written tier cs)
    (hf : f.Fits) : tier.Reads cs (.ofInt f.value) := by
  induction h with
  | literal hgap hne hcs => exact reads_literal hgap hne hcs hf.value
  | enclosed hgap _ hgap' ih => exact reads_enclosed hgap (ih hf) hgap'
  -- a single operand starts a chain, and the operators below add to its end
  | operand _ ih =>
    exact ReadAsWorth.chain (fun x => .mk x .nil)
      (fun x => by simp [Grammar.Term.tokens, Grammar.Factors.tokens]) (fun _ => rfl) (ih hf)
  | product _ hgap hb iha ihb =>
    obtain ⟨hfits, hfa, hfb⟩ := fits_product_iff.mp hf
    have hsign : ('*', Kind.asterisk) ∈ formulaSigns := by decide
    exact ReadAsChain.snoc Grammar.Term.snoc Grammar.Term.tokens_snoc Grammar.Term.operands_snoc
      hsign (by decide) (iha hfa) hgap (ihb hfb) hb.opens
      (ArithOp.apply_ofInt (by decide) hfa.value hfb.value hfits)
  | term _ ih =>
    exact ReadAsWorth.chain (fun x => .mk x .nil)
      (fun x => by simp [Grammar.Expression.tokens, Grammar.Terms.tokens]) (fun _ => rfl)
      (ReadAsChain.worth Grammar.Term.value_eq_chained (ih hf))
  | sum _ hgap hb iha ihb =>
    obtain ⟨hfits, hfa, hfb⟩ := fits_sum_iff.mp hf
    have hsign : ('+', Kind.plus) ∈ formulaSigns := by decide
    exact reads_snoc_term hsign (by decide) (iha hfa) hgap (ihb hfb) hb.opens
      (ArithOp.apply_ofInt (by decide) hfa.value hfb.value hfits)
  | difference _ hgap hb iha ihb =>
    obtain ⟨hfits, hfa, hfb⟩ := fits_difference_iff.mp hf
    have hsign : ('-', Kind.minus) ∈ formulaSigns := by decide
    exact reads_snoc_term hsign (by decide) (iha hfa) hgap (ihb hfb) hb.opens
      (ArithOp.apply_ofInt (by decide) hfa.value hfb.value hfits)

end Formula

/-! ## Showing what a formula is worth -/

/-- A log of an expression that is worth a number shows this number, and does nothing else. -/
theorem Machine.run_log {e : Expr} {x : Int64} (he : e.Denotes x) (g : Generator) :
    ∃ least, ∀ steps, least ≤ steps → (blank [.log 1 e] g).run steps =
      .done () { blank [.log 1 e] g with world.outputs := #[⟨decimalText x, true⟩] } := by
  obtain ⟨least, hleast⟩ := he
  refine ⟨least + 2, fun steps hsteps => ?_⟩
  obtain ⟨n, rfl⟩ : ∃ k, steps = k + 2 := ⟨steps - 2, by omega⟩
  have heval := hleast n (by omega)
  simp [Machine.run, Machine.perform, Machine.quiet, Machine.blank, Rules.instructions,
    Rules.statement, Rules.action, heval, Outcome.mapState, Outcome.mapError, Value.format,
    World.display, World.asks, Machine.rules]

/-- **A program shows what a formula is worth.** Every formula can be written with the parentheses
that it needs and no others; and however it is written, the program that logs the text can be read
and loaded, and a run of it ends, has shown one line, with the worth of the formula in decimal, and
has changed nothing else. -/
theorem Machine.log_formula (f : Formula) (hf : f.Fits) (g : Generator) :
    f.Written .sum (f.render .sum) ∧
    ∀ text : String, f.Written .sum text.toList →
      ∃ m, ofSource (.ofString ("? " ++ text ++ ";")) g = .ok m ∧
        ∃ least, ∀ steps, least ≤ steps →
          m.run steps = .done () { m with world.outputs := #[⟨toString f.value, true⟩] } := by
  refine ⟨f.written_render .sum, fun text htext => ?_⟩
  obtain ⟨e, hread, he⟩ := (htext.reads hf).worth
  have hparse := Grammar.parse_log_of_readAs (hread.map Grammar.Assignable.expression
    (fun _ => rfl) id fun _ => rfl)
  have hload : ofSource (.ofString ("? " ++ text ++ ";")) g = .ok (blank [.log 1 e] g) := by
    simp [ofSource, hparse, ofProgram, load, clash, firstClash, blank]
  have hshown : decimalText (.ofInt f.value) = toString f.value := by
    rw [decimalText, toInt_ofInt_of_fitsWord hf.value]
  refine ⟨blank [.log 1 e] g, hload, ?_⟩
  rw [← hshown]
  exact run_log he g

/-- The lowest number of 64 bits as a product, and a difference that leans to the right. -/
def Formula.lowestAndSix : Formula :=
  .sum (.product (.difference (.literal 0) (.literal 4294967296)) (.literal 2147483648))
    (.difference (.literal 9) (.difference (.literal 5) (.literal 2)))

/-- A text for it, with blanks, a zero and parentheses that are not needed. -/
theorem Formula.written_lowestAndSix : lowestAndSix.Written .sum
    "((0) - 4294967296)*2147483648 + (9-(05-2 ))".toList := by
  have hnone : ∀ c ∈ ([] : List Char), isBlank c = true := List.forall_mem_nil _
  have hblank : ∀ c ∈ [' '], isBlank c = true := isBlank_of_mem_space
  have hzero := @Written.literal [] ['0'] hnone (List.cons_ne_nil _ _) (List.all_eq_true.mp rfl)
  have hpower := @Written.literal [' '] ['4', '2', '9', '4', '9', '6', '7', '2', '9', '6'] hblank
    (List.cons_ne_nil _ _) (List.all_eq_true.mp rfl)
  have hfactor := @Written.literal [] ['2', '1', '4', '7', '4', '8', '3', '6', '4', '8'] hnone
    (List.cons_ne_nil _ _) (List.all_eq_true.mp rfl)
  have hnine := @Written.literal [] ['9'] hnone (List.cons_ne_nil _ _) (List.all_eq_true.mp rfl)
  have hfive := @Written.literal [] ['0', '5'] hnone (List.cons_ne_nil _ _)
    (List.all_eq_true.mp rfl)
  have htwo := @Written.literal [] ['2'] hnone (List.cons_ne_nil _ _) (List.all_eq_true.mp rfl)
  have hnegative := (((hzero.anywhere .sum).enclosed hnone hnone).anywhere .sum).difference hblank
    hpower.operand
  have hlowest := (hnegative.enclosed hnone hnone).operand.product hnone hfactor
  have hthree := (hfive.anywhere .sum).difference hnone htwo.operand
  have hsix := (hnine.anywhere .sum).difference hnone (hthree.enclosed hnone hblank).operand
  have hall := hlowest.term.sum hblank (hsix.enclosed hblank hnone).operand
  have htext : "((0) - 4294967296)*2147483648 + (9-(05-2 ))".toList =
      ['(', '(', '0', ')', ' ', '-', ' ', '4', '2', '9', '4', '9', '6', '7', '2', '9', '6', ')',
        '*', '2', '1', '4', '7', '4', '8', '3', '6', '4', '8', ' ', '+', ' ', '(', '9', '-', '(',
        '0', '5', '-', '2', ' ', ')', ')'] := by
    decide +kernel
  rw [htext]
  exact hall

/-- The product is the lowest number there is, and is not taken for one that does not fit. -/
theorem Machine.log_lowestAndSix :
    Formula.lowestAndSix.Fits ∧
    ∃ m, ofSource (.ofString "? ((0) - 4294967296)*2147483648 + (9-(05-2 ));") (.ofSeed 7) = .ok m ∧
      ∃ least, ∀ steps, least ≤ steps →
        m.run steps = .done () { m with world.outputs := #[⟨"-9223372036854775802", true⟩] } := by
  have hfits : Formula.lowestAndSix.Fits := by decide
  have hshown : toString Formula.lowestAndSix.value = "-9223372036854775802" := by decide +kernel
  have hsource : "? " ++ "((0) - 4294967296)*2147483648 + (9-(05-2 ))" ++ ";" =
      "? ((0) - 4294967296)*2147483648 + (9-(05-2 ));" := by decide +kernel
  have hlogged := (log_formula Formula.lowestAndSix hfits (.ofSeed 7)).2 _
    Formula.written_lowestAndSix
  rw [hshown, hsource] at hlogged
  exact ⟨hfits, hlogged⟩

end Adventure
