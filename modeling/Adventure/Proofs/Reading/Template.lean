import Adventure.Proofs.Reading.Leaf

/-!
# Reading templates exactly

The fields of a template are read into the template so far (`fillItem`, `fillCharacter`), while the
trees say for each field what counts in the end; both come to the same. Nothing separates fields, so
an attribute has to see whether a growth rule follows, and stacks of items whether there are more.
-/

namespace Adventure.Parsing

open Text Grammar

/-! ## The readers as forms -/

/-- The fields of an item that are numbers. -/
def itemNumbers : List Kind :=
  [.health, .attack, .defence, .value]

/-- The fields of a character that are attributes. -/
def characterStats : List Kind :=
  [.health, .attack, .defence, .level, .reqexp, .exp]

/-- The fields of a character that are stacks of items. -/
def characterStacks : List Kind :=
  [.equipped, .inventory, .reward]

theorem mem_itemFields_iff (kind : Kind) :
    kind ∈ itemFields ↔ kind ∈ itemNumbers ∨ kind = .desc := by
  cases kind <;> decide

theorem mem_characterFields_iff (kind : Kind) :
    kind ∈ characterFields ↔ kind ∈ characterStats ∨ kind ∈ characterStacks := by
  cases kind <;> decide

/-- The fields of an item end with a brace, or one is read and then the others. -/
theorem reads_itemBody (i : Adventure.Item) :
    reads (itemBody i) = Reader.choose itemNumbers
      ((reads (accept itemNumbers)).bind fun t => (reads (accept [.colon])).bind fun _ =>
        (reads number).bind fun n => reads (itemBody (i.set t.kind n)))
      (Reader.choose [.desc]
        ((reads (accept [.desc])).bind fun _ => (reads (accept [.colon])).bind fun _ =>
          (reads (accept [.stringLiteral])).bind fun text =>
            reads (itemBody { i with desc := some text.value }))
        ((reads (accept [.curlyClose])).bind fun _ => Reader.give i)) := by
  funext ts
  rcases ts with - | ⟨t, ts⟩
  · rw [choose_nil (by decide), choose_nil (by decide), reads, itemBody]
    rfl
  rw [choose_accept_cons, choose_accept_cons, reads, itemBody]
  simp only [mem_itemFields_iff, List.mem_singleton]
  by_cases hnumber : t.kind ∈ itemNumbers
  · have hdesc : t.kind ≠ .desc := by
      rintro hk
      rw [hk] at hnumber
      exact absurd hnumber (by decide)
    simp only [hnumber, hdesc, true_or, if_true, if_false]
    exact forget_bind rfl fun _ _ => forget_bind rfl fun _ _ => forget_bind_pure fun _ _ => rfl
  · by_cases hdesc : t.kind = .desc
    · have hnot : Kind.desc ∉ itemNumbers := by decide
      simp only [hdesc, hnot, or_true, if_true, if_false]
      exact forget_bind rfl fun _ _ => forget_bind rfl fun _ _ => forget_bind_pure fun _ _ => rfl
    · simp only [hnumber, hdesc, or_self, if_false]
      exact forget_bind rfl fun _ _ => rfl

/-- An item has a name and fields. -/
theorem reads_item (line : Int) :
    reads (item line) = (reads (accept [.identifier])).bind fun name =>
      (reads (accept [.curlyOpen])).bind fun _ =>
        reads (itemBody (.blank line name.value)) := by
  funext ts
  rw [reads, item]
  exact forget_bind rfl fun _ _ => forget_bind rfl fun _ _ => forget_bind_pure fun _ _ => rfl

/-- The expression that a literal is. -/
def Literal.toExpr : Literal → Expr
  | .number n => .number n
  | .dice d => .dice d
  | .plain => .hole

/-- Reads by how much an attribute grows, and makes something of it. -/
def amount {α : Type} (φ : Expr → α) : Reader α :=
  Reader.take [.numberLiteral, .diceLiteral] literalOf fun _ lit => Reader.give (φ lit.toExpr)

/-- Reads how an attribute grows that starts at `base`. -/
def growth (base : Int64) : Reader Attribute :=
  Reader.choose [.increasesBy, .multipliesBy]
    ((reads (accept [.increasesBy, .multipliesBy])).bind fun op => amount fun a =>
      ⟨base, increaseOf op.kind, a⟩)
    (Reader.give ⟨base, .none, .hole⟩)

/-- What comes next is known by its kind. -/
theorem nextIs_iff {kind : Kind} (hkind : kind ≠ .endOfFile) (ts : List Token) :
    nextIs kind ts = true ↔ frontKind ts = kind := by
  cases ts with
  | nil => simp [nextIs, hkind.symm]
  | cons t ts => simp [nextIs]

/-- A growth rule is read as the growth that its sign stands for. -/
theorem ite_multipliesBy (kind : Kind) :
    (if kind = .multipliesBy then Increase.multiply else .add) = increaseOf kind := by
  cases kind <;> rfl

/-- An attribute is a number that may grow. -/
theorem reads_stat : reads stat = (reads number).bind growth := by
  funext ts
  rw [reads, stat]
  refine forget_bind rfl fun base r => ?_
  have hpeek : (nextIs .increasesBy r.rest || nextIs .multipliesBy r.rest) = true ↔
      frontKind r.rest ∈ [Kind.increasesBy, .multipliesBy] := by
    simp [nextIs_iff]
  rw [growth, Reader.choose]
  simp only [ite_multipliesBy]
  by_cases hfront : frontKind r.rest ∈ [Kind.increasesBy, .multipliesBy]
  · simp only [if_pos (hpeek.mpr hfront), if_pos hfront]
    refine forget_bind rfl fun op r' => ?_
    refine forget_accept (fun t lit r'' ht hlit => ?_) fun t reason r'' ht hlit => ?_
    · simp only [List.mem_cons, List.not_mem_nil, or_false] at ht
      rcases ht with hk | hk
      · obtain ⟨l, rfl, rfl⟩ := exists_numberLeaf hk hlit
        simp only [hk, numberOf_token, reduceCtorEq, if_false]
        rfl
      · obtain ⟨l, rfl, rfl⟩ := exists_diceLeaf hk hlit
        simp only [hk, diceOf_token, if_true]
        rfl
    · rcases kind_of_literalOf_error hlit with hk | hk
      · simp only [hk, numberOf_of_error hk hlit, reduceCtorEq, if_false]
        rfl
      · simp only [hk, diceOf_of_error hk hlit, if_true]
        rfl
  · simp only [if_neg (mt hpeek.mp hfront), if_neg hfront]
    rfl

/-- Reads what follows the first of some stacks. -/
def moreStacks (first : Stack) : Reader (List Stack) :=
  Reader.choose [.and]
    ((reads (accept [.and])).bind fun _ => (reads stackSet).bind fun more =>
      Reader.give (first :: more))
    (Reader.give [first])

/-- A stack has a name and a quantity, and others may follow. -/
theorem reads_stackSet :
    reads stackSet = (reads (accept [.identifier])).bind fun name =>
      (mayRead quantity).bind fun n => moreStacks ⟨name.value, n⟩ := by
  funext ts
  rw [reads, stackSet]
  refine forget_bind rfl fun name r => forget_bind rfl fun n r' => ?_
  have hpeek : nextIs .and r'.rest = true ↔ frontKind r'.rest ∈ [Kind.and] := by
    simp [nextIs_iff]
  rw [moreStacks, Reader.choose]
  by_cases hfront : frontKind r'.rest ∈ [Kind.and]
  · simp only [if_pos (hpeek.mpr hfront), if_pos hfront]
    exact forget_bind rfl fun _ _ => forget_bind rfl fun _ _ => rfl
  · simp only [if_neg (mt hpeek.mp hfront), if_neg hfront]
    rfl

/-- A quantity is one if it is not written. -/
theorem mayRead_quantity :
    mayRead quantity = Reader.choose [.slash]
      ((reads (accept [.slash])).bind fun _ => (reads number).bind fun n => Reader.give n)
      (Reader.give 1) := by
  funext ts
  rcases ts with - | ⟨t, ts⟩
  · rw [choose_nil (by decide), mayRead, quantity]
    rfl
  rw [choose_accept_cons, mayRead, quantity]
  simp only [List.mem_singleton]
  split
  · exact forget_bind rfl fun _ _ => rfl
  · rfl

/-- The fields of a character end with a brace, or one is read and then the others. -/
theorem reads_characterBody (c : Adventure.Character) :
    reads (characterBody c) = Reader.choose characterStats
      ((reads (accept characterStats)).bind fun t => (reads (accept [.colon])).bind fun _ =>
        (reads stat).bind fun a => reads (characterBody (c.set t.kind a)))
      (Reader.choose characterStacks
        ((reads (accept characterStacks)).bind fun t => (reads (accept [.colon])).bind fun _ =>
          (reads stackSet).bind fun carried => reads (characterBody (c.carry t.kind carried)))
        ((reads (accept [.curlyClose])).bind fun _ => Reader.give c)) := by
  funext ts
  rcases ts with - | ⟨t, ts⟩
  · rw [choose_nil (by decide), choose_nil (by decide), reads, characterBody]
    rfl
  rw [choose_accept_cons, choose_accept_cons, reads, characterBody]
  have hstacks : [Kind.equipped, .inventory, .reward] = characterStacks := rfl
  simp only [mem_characterFields_iff, hstacks]
  by_cases hstat : t.kind ∈ characterStats
  · have hnot : t.kind ∉ characterStacks :=
      (show ∀ kind ∈ characterStats, kind ∉ characterStacks by decide) t.kind hstat
    simp only [hstat, hnot, true_or, if_true, if_false]
    exact forget_bind rfl fun _ _ => forget_bind rfl fun _ _ => forget_bind_pure fun _ _ => rfl
  · by_cases hcarried : t.kind ∈ characterStacks
    · simp only [hstat, hcarried, or_true, if_true, if_false]
      exact forget_bind rfl fun _ _ => forget_bind rfl fun _ _ => forget_bind_pure fun _ _ => rfl
    · simp only [hstat, hcarried, or_self, if_false]
      exact forget_bind rfl fun _ _ => rfl

/-- A character has a name and fields. -/
theorem reads_character (line : Int) :
    reads (character line) = (reads (accept [.identifier])).bind fun name =>
      (reads (accept [.curlyOpen])).bind fun _ =>
        reads (characterBody (.blank line name.value)) := by
  funext ts
  rw [reads, character]
  exact forget_bind rfl fun _ _ => forget_bind rfl fun _ _ => forget_bind_pure fun _ _ => rfl

/-! ## Items -/

/-- The item with the written fields in place of its own. -/
def fillItem (i : Adventure.Item) (x : ItemFields) : Adventure.Item :=
  { i with
    desc := x.desc?.or i.desc
    value := (x.number? .value).or i.value
    health := (x.number? .health).or i.health
    attack := (x.number? .attack).or i.attack
    defence := (x.number? .defence).or i.defence }

/-- To fill in a number and then the fields behind it is to fill in all of them. -/
theorem fillItem_number (i : Adventure.Item) (field : Leaf itemNumbers) (colon : Leaf [.colon])
    (n : NumberLeaf) (more : ItemFields) :
    fillItem i (.number field colon n more) = fillItem (i.set field.token.kind n.value) more := by
  have hkind := field.mem
  simp only [itemNumbers, List.mem_cons, List.not_mem_nil, or_false] at hkind
  rcases hkind with hk | hk | hk | hk <;>
    simp [fillItem, ItemFields.number?, ItemFields.desc?, Item.set, hk]

/-- To fill in a description and then the fields behind it is to fill in all of them. -/
theorem fillItem_desc (i : Adventure.Item) (field : Leaf [.desc]) (colon : Leaf [.colon])
    (text : Leaf [.stringLiteral]) (more : ItemFields) :
    fillItem i (.desc field colon text more) =
      fillItem { i with desc := some text.token.value } more := by
  simp [fillItem, ItemFields.number?, ItemFields.desc?]

/-- An item stands for the blank one with its fields filled in. -/
theorem value_item (x : Grammar.Item) :
    x.value = fillItem (.blank (lineOf x.word.token) x.name.token.value) x.fields := by
  simp [Grammar.Item.value, fillItem, Item.blank, line_eq_lineOf]

theorem spare_itemFields : Spare ItemFields.tokens :=
  (spare_leaf (by decide)).map .nil fun _ => rfl

/-- **The fields of an item are read exactly.** -/
theorem exact_itemBody (n : Nat) (i : Adventure.Item) :
    Exact n (reads (itemBody i)) [] ItemFields.tokens (fillItem i) := by
  induction n using Nat.strong_induction_on generalizing i with
  | _ n ih =>
    rw [reads_itemBody]
    -- a field that is a number, behind its name
    have hvalue := fun (field : Token) (m : Nat) (hm : m < n) => (exact_number (n := m)).bind 1
      (fun number k hk => ih k (by omega) (i.set field.kind number)) (fun _ => Nat.le_refl _)
      (fun _ _ _ => List.not_mem_nil) spare_itemFields
    have hnumber := exact_accept_bind (n := n) (show Plain itemNumbers by decide)
      (fun field m hm => exact_accept_bind (n := m) (show Plain [.colon] by decide)
        (fun _ k hk => hvalue field k (by omega)) (spare_number.pair spare_itemFields))
      ((spare_leaf (by decide)).pair (spare_number.pair spare_itemFields))
    -- the description, behind its name
    have htext := fun (m : Nat) (hm : m < n) => exact_accept_bind (n := m)
      (show Plain [.stringLiteral] by decide)
      (fun text k hk => ih k (by omega) { i with desc := some text.value }) spare_itemFields
    have hdesc := exact_accept_bind (n := n) (show Plain [.desc] by decide)
      (fun _ m hm => exact_accept_bind (n := m) (show Plain [.colon] by decide)
        (fun _ k hk => htext k (by omega)) ((spare_leaf (by decide)).pair spare_itemFields))
      ((spare_leaf (by decide)).pair ((spare_leaf (by decide)).pair spare_itemFields))
    have hclose := (exact_accept (n := n) (show Plain [.curlyClose] by decide)).bind_give fun _ => i
    have hchoose := hnumber.choose
      (hdesc.choose hclose (fun x _ => x.1.mem) fun l _ _ => leaf_not_mem (by decide) l)
      (fun x _ => x.1.mem) ?_
    · refine hchoose.map (Sum.elim (fun x => .number x.1 x.2.1 x.2.2.1 x.2.2.2)
        (Sum.elim (fun x => .desc x.1 x.2.1 x.2.2.1 x.2.2.2) .nil)) ?_ ?_ ?_
      · rintro (closing | ⟨field, colon, number, more⟩ | ⟨field, colon, text, more⟩)
        · exact ⟨.inr (.inr closing), rfl⟩
        · exact ⟨.inl (field, colon, number, more), rfl⟩
        · exact ⟨.inr (.inl (field, colon, text, more)), rfl⟩
      · rintro (x | x | l) <;> rfl
      · rintro (x | x | l)
        · exact fillItem_number i x.1 x.2.1 x.2.2.1 x.2.2.2
        · exact fillItem_desc i x.1 x.2.1 x.2.2.1 x.2.2.2
        · rfl
    · rintro (x | l) rest -
      · exact leaf_not_mem (by decide) x.1
      · exact leaf_not_mem (by decide) l

/-- **Items are read exactly**, behind their reserved word. -/
theorem exact_item (n : Nat) (line : Int) :
    Exact n (reads (item line)) []
      (fun x : Leaf [.identifier] × Leaf [.curlyOpen] × ItemFields =>
        x.1.token :: x.2.1.token :: x.2.2.tokens)
      (fun x => fillItem (.blank line x.1.token.value) x.2.2) := by
  rw [reads_item]
  exact exact_accept_bind (by decide)
    (fun name m _ => exact_accept_bind (n := m) (show Plain [.curlyOpen] by decide)
      (fun _ k _ => exact_itemBody k (.blank line name.value)) spare_itemFields)
    ((spare_leaf (show Plain [.curlyOpen] by decide)).pair spare_itemFields)

/-! ## Attributes and stacks -/

theorem spare_growth : Spare Growth.tokens :=
  .of_nil .none rfl

theorem spare_stat : Spare Stat.tokens :=
  (spare_number.pair spare_growth).map (fun x => ⟨x.1, x.2⟩) fun _ => rfl

/-- An amount of growth is read exactly. -/
theorem exact_amount {α : Type} (n : Nat) (φ : Expr → α) :
    Exact n (amount φ) [] (fun a : Amount => [a.token]) (fun a => φ a.value) := by
  refine Exact.take Amount.token (fun _ => []) (fun _ => rfl) ?_ (blames_of_literalOf _)
    (by decide) ⟨by decide, ?_⟩ ?_
  · rintro (l | l)
    · exact ⟨by simp [Amount.token, l.kind_eq], _, literalOf_number l⟩
    · exact ⟨by simp [Amount.token, l.kind_eq], _, literalOf_dice l⟩
  · intro kind hkind
    simp only [List.mem_cons, List.not_mem_nil, or_false] at hkind
    rcases hkind with rfl | rfl
    · exact ⟨_, _, writes_number.map .number fun _ => rfl⟩
    · exact ⟨_, _, writes_dice.map .dice fun _ => rfl⟩
  · intro t lit ht hlit m _
    simp only [List.mem_cons, List.not_mem_nil, or_false] at ht
    rcases ht with hk | hk
    · obtain ⟨l, rfl, rfl⟩ := exists_numberLeaf hk hlit
      refine (Exact.give _).map (fun _ => ⟨.number l, rfl⟩) ?_ (fun _ => rfl) fun _ => rfl
      -- the token tells whether the amount is a number or dice
      rintro ⟨l' | l', hl'⟩
      · obtain rfl := numberLeaf_eq_of_token hl'
        exact ⟨(), rfl⟩
      · have hk' := l'.kind_eq
        rw [show l'.token = l.token from hl', hk] at hk'
        cases hk'
    · obtain ⟨l, rfl, rfl⟩ := exists_diceLeaf hk hlit
      refine (Exact.give _).map (fun _ => ⟨.dice l, rfl⟩) ?_ (fun _ => rfl) fun _ => rfl
      rintro ⟨l' | l', hl'⟩
      · have hk' := l'.kind_eq
        rw [show l'.token = l.token from hl', hk] at hk'
        cases hk'
      · obtain rfl := diceLeaf_eq_of_token hl'
        exact ⟨(), rfl⟩

theorem spare_amount : Spare fun a : Amount => [a.token] :=
  spare_number.map .number fun _ => rfl

/-- Growth is read exactly, also if there is none. -/
theorem exact_growth (n : Nat) (base : Int64) :
    Exact n (growth base) [.increasesBy, .multipliesBy] Growth.tokens (Growth.value base) := by
  have hsome := exact_accept_bind (n := n) (show Plain [.increasesBy, .multipliesBy] by decide)
    (fun op m _ => exact_amount m fun a =>
      Attribute.mk base (increaseOf op.kind) a)
    spare_amount
  have hnone : Exact n (Reader.give (Attribute.mk base .none .hole)) [.increasesBy, .multipliesBy]
      (fun _ : Unit => []) (fun _ => ⟨base, .none, .hole⟩) :=
    (Exact.give _).mono_stop (List.nil_subset _)
  have hchoose := (hsome.mono_stop (List.nil_subset _)).choose hnone (fun x _ => x.1.mem)
    fun _ _ hrest => hrest
  refine hchoose.map (Sum.elim (fun x => .some x.1 x.2) fun _ => .none) ?_ ?_ ?_
  · rintro (_ | ⟨sign, a⟩)
    · exact ⟨.inr (), rfl⟩
    · exact ⟨.inl (sign, a), rfl⟩
  · rintro (x | _) <;> rfl
  · rintro (x | _) <;> rfl

/-- **Attributes are read exactly.** -/
theorem exact_stat (n : Nat) :
    Exact n (reads stat) [.increasesBy, .multipliesBy] Stat.tokens Stat.value := by
  rw [reads_stat]
  have hbind := (exact_number (n := n)).bind 0 (fun base m _ => exact_growth m base)
    (fun _ => Nat.zero_le _) (fun _ _ _ => List.not_mem_nil) spare_growth
  refine hbind.map (fun x => ⟨x.1, x.2⟩) ?_ (fun _ => rfl) fun _ => rfl
  rintro ⟨base, growth⟩
  exact ⟨(base, growth), rfl⟩

/-- A quantity is read exactly, also if it is not written. -/
theorem exact_quantity (n : Nat) :
    Exact n (mayRead quantity) [.slash] Quantity.tokens Quantity.value := by
  rw [mayRead_quantity]
  have hmany := exact_accept_bind (n := n) (show Plain [.slash] by decide)
    (fun _ m _ => (exact_number (n := m)).bind_give fun number => number) spare_number
  have hone : Exact n (Reader.give (1 : Int64)) [.slash] (fun _ : Unit => []) (fun _ => 1) :=
    (Exact.give _).mono_stop (List.nil_subset _)
  have hchoose := (hmany.mono_stop (List.nil_subset _)).choose hone (fun x _ => x.1.mem)
    fun _ _ hrest => hrest
  refine hchoose.map (Sum.elim (fun x => .many x.1 x.2) fun _ => .one) ?_ ?_ ?_
  · rintro (_ | ⟨slash, number⟩)
    · exact ⟨.inr (), rfl⟩
    · exact ⟨.inl (slash, number), rfl⟩
  · rintro (x | _) <;> rfl
  · rintro (x | _) <;> rfl

/-- What would go on with stacks. -/
def stacksGoOn : List Kind :=
  [.slash, .and]

theorem spare_quantity : Spare Quantity.tokens :=
  .of_nil .one rfl

theorem spare_stacks : Spare Stacks.tokens :=
  ((spare_leaf (by decide)).pair spare_quantity).map (fun x => .last x.1 x.2) fun _ => rfl

/-- **Stacks are read exactly.** -/
theorem exact_stackSet (n : Nat) :
    Exact n (reads stackSet) stacksGoOn Stacks.tokens Stacks.value := by
  induction n using Nat.strong_induction_on with
  | _ n ih =>
    have hand : [Kind.and] ⊆ stacksGoOn := by decide
    have hslash : [Kind.slash] ⊆ stacksGoOn := by decide
    rw [reads_stackSet]
    have hmore := fun (first : Stack) (m : Nat) (hm : m < n) =>
      (exact_accept_bind (n := m) (show Plain [.and] by decide)
        (fun _ k hk => (ih k (by omega)).bind_give fun more => first :: more) spare_stacks).choose
        ((Exact.give [first]).mono_stop (List.nil_subset _)) (fun x _ => x.1.mem)
        fun _ _ hrest hmem => hrest (hand hmem)
    have hspare : Spare (Sum.elim (fun x : Leaf [.and] × Stacks => x.1.token :: x.2.tokens)
        fun _ : Unit => []) := .of_nil (.inr ()) rfl
    have hquantity := fun (name : Token) (m : Nat) (hm : m < n) => (exact_quantity m).bind 0
      (fun number k hk => hmore ⟨name.value, number⟩ k (by omega)) (fun _ => Nat.zero_le _)
      (fun x rest hrest => by
        rcases x with x | _
        · exact leaf_not_mem (by decide) x.1
        · exact fun hmem => hrest (hslash hmem))
      hspare
    have hbind := exact_accept_bind (n := n) (show Plain [.identifier] by decide) hquantity
      (spare_quantity.pair hspare)
    refine hbind.map (fun x => x.2.2.elim (fun y => .cons x.1 x.2.1 y.1 y.2)
      fun _ => .last x.1 x.2.1) ?_ ?_ ?_
    · rintro (⟨name, quantity⟩ | ⟨name, quantity, and, more⟩)
      · exact ⟨(name, quantity, .inr ()), rfl⟩
      · exact ⟨(name, quantity, .inl (and, more)), rfl⟩
    · rintro ⟨name, quantity, x | _⟩ <;> simp [Stacks.tokens]
    · rintro ⟨name, quantity, x | _⟩ <;> rfl

/-! ## Characters -/

/-- The character with the written fields in place of its own. -/
def fillCharacter (c : Adventure.Character) (x : CharacterFields) : Adventure.Character :=
  { c with
    level := (x.stat? .level).or c.level
    reqexp := (x.stat? .reqexp).or c.reqexp
    exp := (x.stat? .exp).or c.exp
    health := (x.stat? .health).or c.health
    attack := (x.stat? .attack).or c.attack
    defence := (x.stat? .defence).or c.defence
    equipped := (x.stacks? .equipped).getD c.equipped
    inventory := (x.stacks? .inventory).getD c.inventory
    reward := (x.stacks? .reward).getD c.reward }

/-- To fill in an attribute and then the fields behind it is to fill in all of them. -/
theorem fillCharacter_stat (c : Adventure.Character) (field : Leaf characterStats)
    (colon : Leaf [.colon]) (s : Stat) (more : CharacterFields) :
    fillCharacter c (.stat field colon s more) =
      fillCharacter (c.set field.token.kind s.value) more := by
  have hkind := field.mem
  simp only [characterStats, List.mem_cons, List.not_mem_nil, or_false] at hkind
  rcases hkind with hk | hk | hk | hk | hk | hk <;>
    simp [fillCharacter, CharacterFields.stat?, CharacterFields.stacks?, Character.set, hk]

/-- To fill in stacks and then the fields behind them is to fill in all of them. -/
theorem fillCharacter_carried (c : Adventure.Character) (field : Leaf characterStacks)
    (colon : Leaf [.colon]) (s : Stacks) (more : CharacterFields) :
    fillCharacter c (.carried field colon s more) =
      fillCharacter (c.carry field.token.kind s.value) more := by
  have hkind := field.mem
  simp only [characterStacks, List.mem_cons, List.not_mem_nil, or_false] at hkind
  rcases hkind with hk | hk | hk <;>
    simp [fillCharacter, CharacterFields.stat?, CharacterFields.stacks?, Character.carry, hk]

/-- A character stands for the blank one with its fields filled in. -/
theorem value_character (x : Grammar.Character) :
    x.value = fillCharacter (.blank (lineOf x.word.token) x.name.token.value) x.fields := by
  simp [Grammar.Character.value, fillCharacter, Character.blank, line_eq_lineOf]

theorem spare_characterFields : Spare CharacterFields.tokens :=
  (spare_leaf (by decide)).map .nil fun _ => rfl

/-- The fields of a character begin with the name of one or end at once. -/
theorem front_characterFields (x : CharacterFields) (rest : List Token) :
    frontKind (x.tokens ++ rest) ∈ Kind.curlyClose :: characterFields := by
  have hsub : characterStats ⊆ .curlyClose :: characterFields ∧
      characterStacks ⊆ .curlyClose :: characterFields := by decide
  cases x with
  | nil closing => exact List.mem_cons.mpr (.inl (kind_of_leaf closing))
  | stat field => exact hsub.1 field.mem
  | carried field => exact hsub.2 field.mem

/-- **The fields of a character are read exactly.** -/
theorem exact_characterBody (n : Nat) (c : Adventure.Character) :
    Exact n (reads (characterBody c)) [] CharacterFields.tokens (fillCharacter c) := by
  induction n using Nat.strong_induction_on generalizing c with
  | _ n ih =>
    rw [reads_characterBody]
    have hglue : ∀ (x : CharacterFields) (rest : List Token) {stop : List Kind},
        (∀ kind ∈ Kind.curlyClose :: characterFields, kind ∉ stop) →
        frontKind (x.tokens ++ rest) ∉ stop :=
      fun x rest _ h => h _ (front_characterFields x rest)
    -- an attribute, behind its name
    have hattribute := fun (field : Token) (m : Nat) (hm : m < n) => (exact_stat m).bind 0
      (fun a k hk => ih k (by omega) (c.set field.kind a)) (fun _ => Nat.zero_le _)
      (fun x rest _ => hglue x rest (by decide)) spare_characterFields
    have hstat := exact_accept_bind (n := n) (show Plain characterStats by decide)
      (fun field m hm => exact_accept_bind (n := m) (show Plain [.colon] by decide)
        (fun _ k hk => hattribute field k (by omega)) (spare_stat.pair spare_characterFields))
      ((spare_leaf (by decide)).pair (spare_stat.pair spare_characterFields))
    -- stacks of items, behind their name
    have hcarried := fun (field : Token) (m : Nat) (hm : m < n) => (exact_stackSet m).bind 0
      (fun carried k hk => ih k (by omega) (c.carry field.kind carried)) (fun _ => Nat.zero_le _)
      (fun x rest _ => hglue x rest (by decide)) spare_characterFields
    have hstacks := exact_accept_bind (n := n) (show Plain characterStacks by decide)
      (fun field m hm => exact_accept_bind (n := m) (show Plain [.colon] by decide)
        (fun _ k hk => hcarried field k (by omega)) (spare_stacks.pair spare_characterFields))
      ((spare_leaf (by decide)).pair (spare_stacks.pair spare_characterFields))
    have hclose := (exact_accept (n := n) (show Plain [.curlyClose] by decide)).bind_give fun _ => c
    have hchoose := hstat.choose
      (hstacks.choose hclose (fun x _ => x.1.mem) fun l _ _ => leaf_not_mem (by decide) l)
      (fun x _ => x.1.mem) ?_
    · refine hchoose.map (Sum.elim (fun x => .stat x.1 x.2.1 x.2.2.1 x.2.2.2)
        (Sum.elim (fun x => .carried x.1 x.2.1 x.2.2.1 x.2.2.2) .nil)) ?_ ?_ ?_
      · rintro (closing | ⟨field, colon, stat, more⟩ | ⟨field, colon, content, more⟩)
        · exact ⟨.inr (.inr closing), rfl⟩
        · exact ⟨.inl (field, colon, stat, more), rfl⟩
        · exact ⟨.inr (.inl (field, colon, content, more)), rfl⟩
      · rintro (x | x | l) <;> rfl
      · rintro (x | x | l)
        · exact fillCharacter_stat c x.1 x.2.1 x.2.2.1 x.2.2.2
        · exact fillCharacter_carried c x.1 x.2.1 x.2.2.1 x.2.2.2
        · rfl
    · rintro (x | l) rest -
      · exact leaf_not_mem (by decide) x.1
      · exact leaf_not_mem (by decide) l

/-- **Characters are read exactly**, behind their reserved word. -/
theorem exact_character (n : Nat) (line : Int) :
    Exact n (reads (character line)) []
      (fun x : Leaf [.identifier] × Leaf [.curlyOpen] × CharacterFields =>
        x.1.token :: x.2.1.token :: x.2.2.tokens)
      (fun x => fillCharacter (.blank line x.1.token.value) x.2.2) := by
  rw [reads_character]
  exact exact_accept_bind (by decide)
    (fun name m _ => exact_accept_bind (n := m) (show Plain [.curlyOpen] by decide)
      (fun _ k _ => exact_characterBody k (.blank line name.value)) spare_characterFields)
    ((spare_leaf (show Plain [.curlyOpen] by decide)).pair spare_characterFields)

end Adventure.Parsing
