import Adventure.Proofs.Dump

/-!
# Templates are written as they are read

The lines that show a template, with a brace behind the first and one behind the last, are a program
of one template: the same one, on the first line, and with the description as it is written between
its quotes (`templates_read_back`).

A template is shown with the fields that have a value, in an order of its own. Fields are read one
after the other, and each fills in what it is about. So a group of fields of one sort is read as the
filling in of all of them (`FieldRule.readAs_fields`), and a template is one or two such groups.
-/

namespace Adventure

open Text Parsing

/-- What stands between the quotes when a text is quoted. -/
def betweenQuotes (s : String) : String :=
  .ofList (quoted s).toList.tail.dropLast

/-- What stands between the quotation marks is the text with its characters escaped. -/
theorem betweenQuotes_eq (s : String) : betweenQuotes s = .ofList (escapedText s) := by
  simp [betweenQuotes, quoted]

/-- Names are identifiers. -/
theorem IsName.lexeme {name : String} (h : IsName name) : Lexeme .identifier name name.toList := by
  have hne : name.toList ≠ [] := by simpa using h.ne_empty
  have hlexeme := Lexeme.identifier hne h.word (by rw [String.ofList_toList]; exact h.free)
  rwa [String.ofList_toList] at hlexeme

namespace Grammar

/-- A name is read as itself. -/
theorem readAs_word {name : String} (h : IsName name) :
    ReadAs (fun l : Leaf [.identifier] => [l.token]) (fun l => l.token.value) name.toList name :=
  readAs_leaf h.lexeme

/-! ## Attributes -/

/-- An amount of growth is read as what it was. -/
theorem readAs_amount {e : Expr} (hsort : (∃ n, e = .number n) ∨ ∃ d, e = .dice d)
    (h : e.WellFormed) : ReadAs (fun a : Amount => [a.token]) Amount.value e.format.toList e := by
  rcases hsort with ⟨n, rfl⟩ | ⟨d, rfl⟩
  · obtain ⟨hn, -⟩ := h
    exact (readAs_decimalText hn).map .number (fun _ => rfl) Expr.number fun _ => rfl
  · obtain ⟨hcount, hfaces⟩ := h
    exact (readAs_diceText hcount.1 hfaces.1).map .dice (fun _ => rfl) Expr.dice fun _ => rfl

/-- The sign of growth is read as what it was. -/
theorem readAs_increase {i : Increase} (h : i ∈ Attribute.growing) :
    ReadAs (fun l : Leaf [.increasesBy, .multipliesBy] => [l.token])
      (fun l => increaseOf l.token.kind) i.symbol.toList i := by
  simp only [Attribute.growing, List.mem_cons, List.not_mem_nil, or_false] at h
  rcases h with rfl | rfl
  · have hpair : ('+', '=', Kind.increasesBy) ∈ Kind.pairs := by decide
    exact ReadAs.of_lexeme (.pair hpair) fun t ht _ =>
      ⟨⟨t, by simp [ht]⟩, rfl, by simp [ht, increaseOf]⟩
  · have hpair : ('*', '=', Kind.multipliesBy) ∈ Kind.pairs := by decide
    exact ReadAs.of_lexeme (.pair hpair) fun t ht _ =>
      ⟨⟨t, by simp [ht]⟩, rfl, by simp [ht, increaseOf]⟩

/-- Growth is read as what it was, also if there is none. -/
theorem readAs_growth {a : Attribute} (h : a.WellFormed) :
    ReadAs Growth.tokens (fun g base => g.value base) a.growth
      fun base => ⟨base, a.increase, a.amount⟩ := by
  rw [Attribute.growth]
  split
  · next hnone =>
    rw [hnone, h.amount_iff.mpr hnone]
    exact ReadAs.of_nil Growth.none rfl
  · next hne =>
    obtain ⟨hsort, hamount⟩ := h.amount (mt h.amount_iff.mp hne)
    have hsign := (readAs_increase (Attribute.mem_growing h hne)).blank (fun _ => Nat.le_refl 1)
      isBlank_of_mem_space
    have hby := (readAs_amount hsort hamount).blank (fun _ => Nat.le_refl 1) isBlank_of_mem_space
    exact (hsign.pair hby fun rest _ => closes_cons (by decide) _).map
      (fun x => Growth.some x.1 x.2) (fun _ => rfl) (fun x base => Attribute.mk base x.1 x.2)
      fun _ => rfl

/-- Growth closes what stands before it. -/
theorem closes_growth (a : Attribute) (rest : List Char) (h : Closes rest) :
    Closes (a.growth ++ rest) := by
  rw [Attribute.growth]
  split
  · exact h
  · exact closes_cons (by decide) _

/-- **What is written for an attribute is read as the attribute.** -/
theorem readAs_stat {a : Attribute} (h : a.WellFormed) :
    ReadAs Stat.tokens Stat.value a.format.toList a := by
  rw [Attribute.toList_format h]
  exact ((readAs_decimalText h.base.1).pair (readAs_growth h) (closes_growth a)).map
    (fun x => ⟨x.1, x.2⟩) (fun _ => rfl) (fun x => x.2 x.1) fun _ => rfl

theorem length_stat_pos (s : Stat) : 1 ≤ s.tokens.length := by
  simp [Stat.tokens]

/-! ## Stacks of items -/

/-- A stack is read as what it was. -/
theorem readAs_stack {x : Stack} (h : x.WellFormed) :
    ReadAs (fun y : Leaf [.identifier] × Quantity => y.1.token :: y.2.tokens)
      (fun y => Stack.mk y.1.token.value y.2.value) x.format.toList x := by
  have hslash : ('/', Kind.slash) ∈ Kind.singles := by decide
  have hquantity : ReadAs Quantity.tokens Quantity.value ('/' :: (decimalText x.quantity).toList)
      x.quantity :=
    ((readAs_decimalText h.quantity.1).behind hslash fun _ => rfl).map (fun y => .many y.1 y.2)
      (fun _ => rfl) id fun _ => rfl
  have hformat : x.format.toList = x.name.toList ++ '/' :: (decimalText x.quantity).toList := by
    simp [Stack.format]
  rw [hformat]
  exact ((readAs_word h.name).pair hquantity fun rest _ => closes_cons (by decide) _).map id
    (fun _ => rfl) (fun y => Stack.mk y.1 y.2) fun _ => rfl

theorem length_stacks_pos (x : Stacks) : 1 ≤ x.tokens.length := by
  cases x <;> simp [Stacks.tokens]

/-- Stacks are written with a sign between them. -/
theorem formatStacks_cons (x y : Stack) (more : List Stack) :
    (formatStacks (x :: y :: more)).toList =
      x.format.toList ++ ([' '] ++ ['&'] ++ ([' '] ++ (formatStacks (y :: more)).toList)) := by
  rw [formatStacks, List.map_cons, String.intercalate_cons_of_ne_nil (by simp)]
  simp [formatStacks]

/-- **What is written for stacks of items is read as the stacks**, if there are any. -/
theorem readAs_stacks {carried : List Stack} (h : Carried carried) :
    ReadAs Stacks.tokens Stacks.value (formatStacks carried).toList carried := by
  obtain ⟨hne, hall⟩ := h
  induction carried with
  | nil => exact absurd rfl hne
  | cons x more ih =>
    obtain ⟨hx, hmore⟩ := List.forall_mem_cons.mp hall
    rcases more with - | ⟨y, more⟩
    · have hformat : formatStacks [x] = x.format := by simp [formatStacks]
      rw [hformat]
      exact (readAs_stack hx).map (fun z => .last z.1 z.2) (fun _ => rfl) (fun s => [s])
        fun _ => rfl
    · have hand := (readAs_leaf (.single (show ('&', Kind.and) ∈ Kind.singles by decide))).blank
        (fun _ => Nat.le_refl 1) isBlank_of_mem_space
      have hothers := (ih (List.cons_ne_nil _ _) hmore).blank length_stacks_pos
        isBlank_of_mem_space
      have hafter := hand.pair hothers fun rest _ => closes_cons (by decide) _
      rw [formatStacks_cons]
      exact ((readAs_stack hx).pair hafter fun rest _ => closes_cons (by decide) _).map
        (fun z => .cons z.1.1 z.1.2 z.2.1 z.2.2) (fun _ => rfl) (fun z => z.1 :: z.2.2)
        fun _ => rfl

end Grammar

/-! ## Fields -/

/-- The fields that have a value as they are written, each on a new line. -/
def fieldsText (fields : List (String × Option String)) : List Char :=
  (fieldLines fields).flatMap fun line => '\n' :: line.toList

/-- Fields are written one after the other. -/
theorem fieldsText_append (fields fields' : List (String × Option String)) :
    fieldsText (fields ++ fields') = fieldsText fields ++ fieldsText fields' := by
  simp only [fieldsText, fieldLines, List.filterMap_append, List.flatMap_append]

/-- A field is written on a line of its own, behind its name. -/
theorem fieldsText_cons_some (name text : String) (fields : List (String × Option String)) :
    fieldsText ((name, some text) :: fields) =
      '\n' :: (fieldStart name ++ (text.toList ++ fieldsText fields)) := by
  have hlines : fieldLines ((name, some text) :: fields) =
      indented 2 (name ++ ": " ++ text) :: fieldLines fields := rfl
  rw [fieldsText, hlines, List.flatMap_cons, toList_indented, fieldStart]
  simp [fieldsText]

/-- Fields close what stands before them. -/
theorem closes_fieldsText (fields : List (String × Option String)) {rest : List Char}
    (h : Closes rest) : Closes (fieldsText fields ++ rest) := by
  rw [fieldsText]
  cases fieldLines fields with
  | nil => exact h
  | cons line lines => exact closes_cons (by decide) _

/-- How one field among the fields of a template is read: behind its name and a colon stands its
value, which is filled in before the fields behind it are. -/
structure FieldRule {X Y V β : Type} (kinds : List Kind) (valueTokens : X → List Token)
    (value : X → V) (tokens : Y → List Token) (fill : Y → β → β) where
  /-- the fields with one more in front -/
  cons : Grammar.Leaf kinds → Grammar.Leaf [.colon] → X → Y → Y
  /-- fills in the value of a field -/
  set : β → Kind → V → β
  tokens_cons : ∀ name colon x y, tokens (cons name colon x y) =
    name.token :: colon.token :: (valueTokens x ++ tokens y)
  fill_cons : ∀ name colon x y b, fill (cons name colon x y) b =
    fill y (set b name.token.kind (value x))
  length_pos : ∀ x, 1 ≤ (valueTokens x).length

namespace FieldRule

variable {X Y V β : Type} {kinds : List Kind} {valueTokens : X → List Token} {value : X → V}
  {tokens : Y → List Token} {fill : Y → β → β}

/-- A line with a field. -/
theorem readAs_cons (rule : FieldRule kinds valueTokens value tokens fill) {word : String}
    {kind : Kind} (hword : (word, kind) ∈ Kind.words) (hkind : kind ∈ kinds) {text cs : List Char}
    {v : V} {f : β → β} (hvalue : ReadAs valueTokens value text v)
    (hcloses : ∀ rest, Closes rest → Closes (cs ++ rest)) (h : ReadAs tokens fill cs f) :
    ReadAs tokens fill ('\n' :: (fieldStart word ++ (text ++ cs)))
      fun b => f (rule.set b kind v) := by
  have hname : ReadAs (fun l : Grammar.Leaf kinds => [l.token]) (fun l => l.token.kind) word.toList
      kind :=
    ReadAs.of_lexeme (.reserved hword) fun t ht _ => ⟨⟨t, ht ▸ hkind⟩, rfl, ht⟩
  have hnewline : ∀ c ∈ '\n' :: indentation 2, isBlank c = true :=
    List.all_eq_true.mp rfl
  have hcolon := Grammar.readAs_leaf (.single (show (':', Kind.colon) ∈ Kind.singles by decide))
  have hpos : ∀ x : X × Y, 1 ≤ (valueTokens x.1 ++ tokens x.2).length := by
    intro x
    rw [List.length_append]
    exact Nat.le_add_right_of_le (rule.length_pos x.1)
  -- the value and the other fields, behind a blank
  have hbehind := (hvalue.pair h hcloses).blank hpos isBlank_of_mem_space
  -- the name of the field on a line of its own, and the colon
  have hline := (hname.blank (fun _ => Nat.le_refl 1) hnewline).pair
    (hcolon.pair hbehind fun rest _ => closes_cons (by decide) _)
    fun rest _ => closes_cons (by decide) _
  have htext : '\n' :: (fieldStart word ++ (text ++ cs)) =
      '\n' :: indentation 2 ++ word.toList ++ ([':'] ++ ([' '] ++ (text ++ cs))) := by
    simp [fieldStart]
  rw [htext]
  exact hline.map (fun x => rule.cons x.1 x.2.1 x.2.2.1 x.2.2.2)
    (fun x => rule.tokens_cons _ _ _ _) (fun x b => x.2.2.2 (rule.set b x.1 x.2.2.1))
    fun x => funext fun b => rule.fill_cons _ _ _ _ b

/-- Fills in those of the named fields that have a value, which is read as `read` says. -/
def fillAll (rule : FieldRule kinds valueTokens value tokens fill) (read : V → V)
    (names : List (String × Kind)) (values : List (Option V)) (b : β) : β :=
  (names.zip values).foldl
    (fun b field => field.2.elim b fun v => rule.set b field.1.2 (read v)) b

/-- **Fields of one sort are read as the filling in of all of them.** -/
theorem readAs_fields (rule : FieldRule kinds valueTokens value tokens fill) (format : V → String)
    (read : V → V) (names : List (String × Kind)) {values : List (Option V)}
    (hnames : ∀ name ∈ names, name ∈ Kind.words ∧ name.2 ∈ kinds)
    (hread : ∀ v, some v ∈ values → ReadAs valueTokens value (format v).toList (read v))
    {cs : List Char} {f : β → β} (hcloses : ∀ rest, Closes rest → Closes (cs ++ rest))
    (h : ReadAs tokens fill cs f) :
    ReadAs tokens fill
      (fieldsText ((names.map Prod.fst).zip (values.map (Option.map format))) ++ cs)
      fun b => f (rule.fillAll read names values b) := by
  induction names generalizing values with
  | nil => exact h
  | cons name names ih =>
    obtain ⟨⟨hword, hkind⟩, hnames⟩ := List.forall_mem_cons.mp hnames
    rcases values with - | ⟨v, values⟩
    · exact h
    have hmore := ih hnames fun v hv => hread v (List.mem_cons_of_mem _ hv)
    cases v with
    | none => exact hmore
    | some v =>
      rw [List.map_cons, List.map_cons, List.zip_cons_cons, Option.map_some, fieldsText_cons_some,
        List.cons_append, List.append_assoc, List.append_assoc]
      refine rule.readAs_cons hword hkind (hread v List.mem_cons_self) (fun rest hrest => ?_) hmore
      rw [List.append_assoc]
      exact closes_fieldsText _ (hcloses rest hrest)

end FieldRule

namespace Grammar

/-! ## Items -/

/-- The closing brace behind the fields of a template. -/
theorem readAs_closingBrace {Y β : Type} {tokens : Y → List Token} {fill : Y → β → β}
    (nil : Leaf [.curlyClose] → Y) (htokens : ∀ l, tokens (nil l) = [l.token])
    (hfill : ∀ l, fill (nil l) = id) {gap : List Char} (hgap : ∀ c ∈ gap, isBlank c = true) :
    ReadAs tokens fill (gap ++ ['\x7d']) id := by
  have hbrace : ('\x7d', Kind.curlyClose) ∈ Kind.singles := by decide
  exact ((readAs_leaf (.single hbrace)).blank (fun _ => Nat.le_refl 1) hgap).map nil htokens
    (fun _ => id) hfill

/-- A brace closes what stands before it, also after blanks. -/
theorem closes_closingBrace {gap : List Char} (hgap : ∀ c ∈ gap, isBlank c = true)
    (rest : List Char) : Closes (gap ++ ['\x7d'] ++ rest) := by
  rw [List.append_assoc]
  exact closes_blank hgap (closes_cons (by decide) rest)

/-- The fields of items that are texts. -/
def descRule : FieldRule [.desc] (fun l : Leaf [.stringLiteral] => [l.token])
    (fun l => l.token.value) ItemFields.tokens fun x i => fillItem i x where
  cons := .desc
  set := fun i _ s => { i with desc := some s }
  tokens_cons := fun _ _ _ _ => rfl
  fill_cons := fun name colon x y i => fillItem_desc i name colon x y
  length_pos := fun _ => Nat.le_refl 1

/-- The fields of items that are numbers. -/
def numberRule : FieldRule itemNumbers (fun l : NumberLeaf => [l.token]) (fun l => l.value)
    ItemFields.tokens fun x i => fillItem i x where
  cons := .number
  set := Item.set
  tokens_cons := fun _ _ _ _ => rfl
  fill_cons := fun name colon x y i => fillItem_number i name colon x y
  length_pos := fun _ => Nat.le_refl 1

/-- The names of the numbers of an item, in the order in which they are shown. -/
def numberNames : List (String × Kind) :=
  [("value", .value), ("health", .health), ("attack", .attack), ("defence", .defence)]

/-- A description is read with its characters escaped. -/
theorem readAs_desc {s : String} (h : '"' ∉ s.toList) :
    ReadAs (fun l : Leaf [.stringLiteral] => [l.token]) (fun l => l.token.value) (quoted s).toList
      (betweenQuotes s) := by
  rw [betweenQuotes_eq, quoted, String.toList_ofList]
  exact readAs_leaf (.text (doubleQuote_not_mem_escapedText h))

/-- What the fields of an item are read as. -/
def writtenItem (i b : Adventure.Item) : Adventure.Item :=
  numberRule.fillAll id numberNames i.numbers
    (descRule.fillAll betweenQuotes [("desc", .desc)] [i.desc] b)

/-- The fields of an item are read as what they were, with the description escaped. -/
theorem readAs_itemFields {i : Adventure.Item} (h : i.WellFormed)
    (hdesc : ∀ s ∈ i.desc, '"' ∉ s.toList) {gap : List Char} (hgap : ∀ c ∈ gap, isBlank c = true) :
    ReadAs ItemFields.tokens (fun x i => fillItem i x) (fieldsText i.fields ++ (gap ++ ['\x7d']))
      (writtenItem i) := by
  have hend : ReadAs ItemFields.tokens (fun x i => fillItem i x) (gap ++ ['\x7d']) id :=
    readAs_closingBrace .nil (fun _ => rfl) (fun _ => rfl) hgap
  have hcloses := fun rest (_ : Closes rest) => closes_closingBrace hgap rest
  have hnumbers := numberRule.readAs_fields decimalText id numberNames (by decide)
    (fun n hn => readAs_decimalText (h.numbers n hn).1) hcloses hend
  rw [Item.fields_eq, fieldsText_append, List.append_assoc]
  refine descRule.readAs_fields quoted betweenQuotes [("desc", .desc)] (by decide)
    (fun s hs => readAs_desc (hdesc s (List.mem_singleton.mp hs).symm)) (fun rest hrest => ?_)
    hnumbers
  rw [List.append_assoc]
  exact closes_fieldsText _ (hcloses rest hrest)

/-- An item that was written and read is the same except for its line and its description. -/
theorem writtenItem_blank (i : Adventure.Item) (line : Int) :
    writtenItem i (.blank line i.name) =
      { i with line := line, desc := i.desc.map betweenQuotes } := by
  obtain ⟨_, name, desc, value, health, attack, defence⟩ := i
  cases desc <;> cases value <;> cases health <;> cases attack <;> cases defence <;> rfl

/-! ## Characters -/

/-- The fields of characters that are attributes. -/
def statRule : FieldRule characterStats Stat.tokens Stat.value CharacterFields.tokens
    fun x c => fillCharacter c x where
  cons := .stat
  set := Character.set
  tokens_cons := fun _ _ _ _ => rfl
  fill_cons := fun name colon x y c => fillCharacter_stat c name colon x y
  length_pos := length_stat_pos

/-- The fields of characters that are stacks of items. -/
def stacksRule : FieldRule characterStacks Stacks.tokens Stacks.value CharacterFields.tokens
    fun x c => fillCharacter c x where
  cons := .carried
  set := Character.carry
  tokens_cons := fun _ _ _ _ => rfl
  fill_cons := fun name colon x y c => fillCharacter_carried c name colon x y
  length_pos := length_stacks_pos

/-- The names of the attributes of a character, in the order in which they are shown. -/
def statNames : List (String × Kind) :=
  [("level", .level), ("reqexp", .reqexp), ("exp", .exp), ("health", .health),
    ("attack", .attack), ("defence", .defence)]

/-- The names of what a character carries, in the order in which it is shown. -/
def stacksNames : List (String × Kind) :=
  [("equipped", .equipped), ("inventory", .inventory), ("reward", .reward)]

/-- What the fields of a character are read as. -/
def writtenCharacter (c b : Adventure.Character) : Adventure.Character :=
  stacksRule.fillAll id stacksNames c.holdings (statRule.fillAll id statNames c.attributes b)

/-- The fields of a character are read as what they were. -/
theorem readAs_characterFields {c : Adventure.Character} (h : c.WellFormed) {gap : List Char}
    (hgap : ∀ c ∈ gap, isBlank c = true) :
    ReadAs CharacterFields.tokens (fun x c => fillCharacter c x)
      (fieldsText c.fields ++ (gap ++ ['\x7d'])) (writtenCharacter c) := by
  have hend : ReadAs CharacterFields.tokens (fun x c => fillCharacter c x) (gap ++ ['\x7d']) id :=
    readAs_closingBrace .nil (fun _ => rfl) (fun _ => rfl) hgap
  have hcloses := fun rest (_ : Closes rest) => closes_closingBrace hgap rest
  have hstacks := stacksRule.readAs_fields formatStacks id stacksNames (by decide)
    (fun carried hcarried => readAs_stacks (h.holdings carried hcarried)) hcloses hend
  rw [Character.fields_eq, fieldsText_append, List.append_assoc]
  refine statRule.readAs_fields Attribute.format id statNames (by decide)
    (fun a ha => readAs_stat (h.attributes a ha)) (fun rest hrest => ?_) hstacks
  rw [List.append_assoc]
  exact closes_fieldsText _ (hcloses rest hrest)

/-- A character that was written and read is the same except for its line. -/
theorem writtenCharacter_blank (c : Adventure.Character) (line : Int) :
    writtenCharacter c (.blank line c.name) = { c with line := line } := by
  obtain ⟨_, name, level, reqexp, exp, health, attack, defence, equipped, inventory, reward⟩ := c
  -- the attributes are filled in first, and then the stacks
  have hattributes : statRule.fillAll id statNames [level, reqexp, exp, health, attack, defence]
      (.blank line name) =
        ⟨line, name, level, reqexp, exp, health, attack, defence, [], [], []⟩ := by
    cases level <;> cases reqexp <;> cases exp <;> cases health <;> cases attack <;>
      cases defence <;> rfl
  rw [writtenCharacter, Character.attributes, hattributes]
  cases equipped <;> cases inventory <;> cases reward <;> rfl

/-! ## Programs of one template -/

/-- The name of a template and its opening brace, in front of its fields. -/
theorem readAs_named {Y β : Type} {tokens : Y → List Token} {fill : Y → β → β}
    (template : (β → β) → Int → String → Template) {name : String} (hname : IsName name)
    {gap cs : List Char} {f : β → β} (hgap : ∀ c ∈ gap, isBlank c = true)
    (hcloses : ∀ rest, Closes rest → Closes (cs ++ rest)) (h : ReadAs tokens fill cs f) :
    ReadAs
      (fun x : Leaf [.identifier] × Leaf [.curlyOpen] × Y =>
        x.1.token :: x.2.1.token :: tokens x.2.2)
      (fun x line => template (fill x.2.2) line x.1.token.value)
      ([' '] ++ name.toList ++ (gap ++ ['\x7b'] ++ cs)) fun line => template f line name := by
  have hbrace : ('\x7b', Kind.curlyOpen) ∈ Kind.singles := by decide
  have hopening := (readAs_leaf (.single hbrace)).blank (fun _ => Nat.le_refl 1) hgap
  have hword := (readAs_word hname).blank (fun _ => Nat.le_refl 1) isBlank_of_mem_space
  refine (hword.pair (hopening.pair h hcloses) fun rest _ => ?_).map id (fun _ => rfl)
    (fun a line => template a.2.2 line a.1) fun _ => rfl
  rw [List.append_assoc, List.append_assoc]
  exact closes_blank hgap (closes_cons (by decide) _)

/-- What is read as a template behind its word is a program, where the template stands on the first
line. -/
theorem parse_of_readAs {X : Type} {tokens : X → List Token} {value : X → Int → Template}
    {word : String} {kind : Kind} (hword : (word, kind) ∈ Kind.words) {cs : List Char}
    {f : Int → Template} (hcloses : ∀ rest, Closes (cs ++ rest)) (h : ReadAs tokens value cs f)
    (part : Leaf [kind] → X → Part) (htokens : ∀ l x, (part l x).tokens = l.token :: tokens x)
    (hvalue : ∀ l x, Program.value [part l x] = ⟨[value x (lineOf l.token)], [], []⟩) :
    (Source.ofChars (indentation 1 ++ word.toList ++ (cs ++ ['\n'])) none).parse =
      .ok ⟨[f 1], [], []⟩ := by
  obtain ⟨faces, hspells, htree⟩ := h
  have hblank : ∀ c ∈ indentation 1, isBlank c = true := List.all_eq_true.mp rfl
  have hnewline : ∀ c ∈ ['\n'], isBlank c = true := List.all_eq_true.mp rfl
  have hline : ∀ entry ∈ Kind.words,
      (placeAfter ([] ++ indentation 1 ++ entry.1.toList.take 1)).line = 1 := by decide +kernel
  obtain ⟨us, before, hlexed, hfaces⟩ :=
    hspells ['\n'] (closes_cons (by decide) []) ([] ++ indentation 1 ++ word.toList)
  obtain ⟨x, rfl, rfl⟩ := htree us hfaces
  obtain ⟨place, hplace, hall⟩ : ∃ place : Position, place.line = 1 ∧
      Lexed [] (indentation 1 ++ word.toList ++ (cs ++ ['\n'])) (⟨kind, "", place⟩ :: tokens x)
        before ['\n'] :=
    ⟨_, hline _ hword, .cons hblank (.reserved hword) (hcloses _ kind) hlexed⟩
  have hsplits : Splits _ ⟨_, none, _⟩ := ⟨before, ['\n'], hall, .done hnewline⟩
  rw [Source.parse_eq_ok_iff, hsplits.tokens_eq, program_eq_ok_iff]
  refine ⟨rfl, [part ⟨⟨kind, "", place⟩, List.mem_singleton_self kind⟩ x], ?_, ?_⟩
  · rw [Program.tokens, List.flatMap_singleton, htokens]
  · rw [hvalue, lineOf, hplace]
    rfl

end Grammar

/-- Lines with a brace behind the first and one behind the last, each behind some blanks. -/
def enclosed (gap gap' : String) : List String → String
  | [] => ""
  | head :: lines => "\n".intercalate ((head ++ gap ++ "\x7b") :: lines) ++ gap' ++ "\x7d\n"

/-- The characters of a template whose fields are put between braces. -/
theorem toList_enclosed (gap gap' word name : String) (fields : List (String × Option String)) :
    (enclosed gap gap' (indented 1 (word ++ " " ++ name) :: fieldLines fields)).toList =
      indentation 1 ++ word.toList ++ ([' '] ++ name.toList ++ (gap.toList ++ ['\x7b'] ++
        (fieldsText fields ++ (gap'.toList ++ ['\x7d']))) ++ ['\n']) := by
  have hlines := toList_intercalate "\n" id
    ((indented 1 (word ++ " " ++ name) ++ gap ++ "\x7b") :: fieldLines fields)
  rw [List.map_id] at hlines
  simp only [enclosed, String.toList_append, hlines, separated, fieldsText, id, toList_indented]
  simp

namespace Template

/-- The template as it is read from what is written for it: on the first line, and with the
description as it is written between its quotes. -/
def reread : Template → Template
  | .item i => .item { i with line := 1, desc := i.desc.map betweenQuotes }
  | .character c => .character { c with line := 1 }
  | .foreign name => .foreign name

/-- The description of an item. -/
def desc? : Template → Option String
  | .item i => i.desc
  | _ => none

/-- **What is written for a template is read as the template.** -/
theorem parse_enclosed {t : Template} (h : t.WellFormed) (hdesc : ∀ s ∈ t.desc?, '"' ∉ s.toList)
    {gap gap' : String} (hgap : ∀ c ∈ gap.toList, isBlank c = true)
    (hgap' : ∀ c ∈ gap'.toList, isBlank c = true) :
    (Source.ofString (enclosed gap gap' t.lines)).parse = .ok ⟨[t.reread], [], []⟩ := by
  have hcloses : ∀ rest, Closes rest →
      Closes (fieldsText t.fields ++ (gap'.toList ++ ['\x7d']) ++ rest) := by
    intro rest _
    rw [List.append_assoc]
    exact closes_fieldsText _ (Grammar.closes_closingBrace hgap' rest)
  rw [Source.ofString, lines_eq h, toList_enclosed]
  cases t with
  | item i =>
    have hnamed := Grammar.readAs_named (fun f line name => .item (f (.blank line name))) h.name
      hgap hcloses (Grammar.readAs_itemFields h hdesc hgap')
    have hword : ("item", Kind.item) ∈ Kind.words := by decide
    rw [reread, ← Grammar.writtenItem_blank]
    exact Grammar.parse_of_readAs hword (fun rest => closes_cons (by decide) _) hnamed
      (fun l x => .item ⟨l, x.1, x.2.1, x.2.2⟩) (fun _ _ => rfl)
      fun _ _ => by simp [Grammar.Program.value, Grammar.Part.addTo, value_item]
  | character c =>
    have hnamed := Grammar.readAs_named (fun f line name => .character (f (.blank line name)))
      h.name hgap hcloses (Grammar.readAs_characterFields h hgap')
    have hword : ("character", Kind.character) ∈ Kind.words := by decide
    rw [reread, ← Grammar.writtenCharacter_blank]
    exact Grammar.parse_of_readAs hword (fun rest => closes_cons (by decide) _) hnamed
      (fun l x => .character ⟨l, x.1, x.2.1, x.2.2⟩) (fun _ _ => rfl)
      fun _ _ => by simp [Grammar.Program.value, Grammar.Part.addTo, value_character]
  | «foreign» name => exact h.elim

end Template

/-! ## Descriptions that were read -/

namespace Grammar

/-- A description that was read has no double quote in it. -/
theorem doubleQuote_not_mem_desc : ∀ x : ItemFields, (∀ t ∈ x.tokens, t.Spelled) →
    ∀ s, x.desc? = some s → '"' ∉ s.toList
  | .nil _ => by
    intro _ s hs
    cases hs
  | .number field colon n more => by
    intro h
    simp only [ItemFields.tokens, List.forall_mem_cons] at h
    exact doubleQuote_not_mem_desc more h.2.2.2
  | .desc field colon text more => by
    intro h s hs
    simp only [ItemFields.tokens, List.forall_mem_cons] at h
    rw [ItemFields.desc?, Option.or_eq_some_iff] at hs
    rcases hs with hs | ⟨-, hs⟩
    · exact doubleQuote_not_mem_desc more h.2.2.2 s hs
    · obtain rfl := Option.some.inj hs
      obtain ⟨lexeme, hlexeme⟩ := h.2.2.1
      rw [kind_of_leaf text] at hlexeme
      exact hlexeme.of_text

/-- No description that was read has a quotation mark in it. -/
theorem doubleQuote_not_mem_templates (d : Program) (h : ∀ t ∈ d.tokens, t.Spelled) :
    ∀ t ∈ d.value.templates, ∀ s ∈ t.desc?, '"' ∉ s.toList := by
  induction d with
  | nil =>
    intro t ht
    cases ht
  | cons part d ih =>
    have htokens : Program.tokens (part :: d) = part.tokens ++ Program.tokens d := rfl
    rw [htokens, List.forall_mem_append] at h
    have hmore := ih h.2
    cases part with
    | item i =>
      refine List.forall_mem_cons.mpr ⟨doubleQuote_not_mem_desc i.fields fun t ht => ?_, hmore⟩
      exact h.1 t (by simp [Part.tokens, Item.tokens, ht])
    | character c =>
      refine List.forall_mem_cons.mpr ⟨?_, hmore⟩
      rintro s ⟨⟩
    | function f | instruction i => exact hmore

end Grammar

/-! ## Attributes and stacks by themselves -/

/-- The reader reads the whole text as `a`. -/
def IsReadBack {α : Type} (read : (ts : List Token) → Reads α ts) (text : String) (a : α) : Prop :=
  (Source.ofString text).tokens.failure = none ∧
    ∃ r, read (Source.ofString text).tokens.items = .ok (a, r) ∧ r.rest = []

/-- What is read by a reader in general is read by the reader itself. -/
theorem exists_of_reads {α : Type} {read : (ts : List Token) → Reads α ts} {ts rest : List Token}
    {a : α} (h : reads read ts = .ok (a, rest)) : ∃ r, read ts = .ok (a, r) ∧ r.rest = rest := by
  rw [reads] at h
  rcases hread : read ts with e | ⟨b, r⟩
  · rw [hread] at h
    cases h
  · rw [hread] at h
    cases h
    exact ⟨r, rfl, rfl⟩

/-- What is read as a thing is read back, if the reader is exact. -/
theorem ReadAs.isReadBack {X α : Type} {tokens : X → List Token} {value : X → α}
    {read : (ts : List Token) → Reads α ts} {stop : List Kind} {text : String} {a : α}
    (h : ReadAs tokens value text.toList a) (hexact : ∀ n, Exact n (reads read) stop tokens value)
    (hstop : frontKind [] ∉ stop) : IsReadBack read text a := by
  obtain ⟨faces, hspells, htree⟩ := h
  obtain ⟨us, before, hlexed, hfaces⟩ := hspells [] (fun _ => halts_nil) []
  obtain ⟨x, rfl, rfl⟩ := htree us hfaces
  rw [List.append_nil] at hlexed
  have hsplits : Splits text.toList ⟨_, none, _⟩ :=
    ⟨before, [], hlexed, .done (List.forall_mem_nil _)⟩
  have hread := (hexact _).complete x [] (Nat.le_refl _) hstop
  rw [List.append_nil] at hread
  rw [IsReadBack, Source.ofString, hsplits.tokens_eq]
  exact ⟨rfl, exists_of_reads hread⟩

/-- Attributes that are read are well-formed. -/
theorem wellFormed_of_stat {ts : List Token} {a : Attribute} {r : Shorter ts}
    (hts : ∀ t ∈ ts, t.Sound) (h : stat ts = .ok (a, r)) : a.WellFormed := by
  have hreads : reads stat ts = .ok (a, r.rest) := by rw [reads, h]; rfl
  obtain ⟨x, hx, rfl, -⟩ := Exact.exists_tree_of_ok exact_stat hreads
  refine Grammar.wellFormed_stat x fun t ht => hts t ?_
  rw [hx]
  exact List.mem_append_left _ ht

/-- Stacks that are read are some, and well-formed. -/
theorem carried_of_stackSet {ts : List Token} {carried : List Stack} {r : Shorter ts}
    (hts : ∀ t ∈ ts, t.Sound) (h : stackSet ts = .ok (carried, r)) : Carried carried := by
  have hreads : reads stackSet ts = .ok (carried, r.rest) := by rw [reads, h]; rfl
  obtain ⟨x, hx, rfl, -⟩ := Exact.exists_tree_of_ok exact_stackSet hreads
  have hne : x.value ≠ [] := by cases x <;> simp [Grammar.Stacks.value]
  refine ⟨hne, Grammar.wellFormed_stacks x fun t ht => hts t ?_⟩
  rw [hx]
  exact List.mem_append_left _ ht

/-! ## The main statement -/

/-- **Templates are read back from what is written for them.** Let a template of a program that was
read be shown, with a brace behind its first line and one behind its last. This is a program of one
template, the same one: only that it stands on the first line, and that the description of an item
is what stands between its quotes. Likewise an attribute that can be read is read back from what is
written for it, and so are stacks of items. -/
theorem templates_read_back :
    (∀ p : Program, p.IsRead → ∀ t ∈ p.templates, ∀ gap gap' : String,
      (∀ c ∈ gap.toList, isBlank c = true) → (∀ c ∈ gap'.toList, isBlank c = true) →
      (Source.ofString (enclosed gap gap' t.lines)).parse = .ok ⟨[t.reread], [], []⟩) ∧
    (∀ (ts : List Token) (a : Attribute) (r : Shorter ts), (∀ t ∈ ts, t.Sound) →
      stat ts = .ok (a, r) → IsReadBack stat a.format a) ∧
    ∀ (ts : List Token) (carried : List Stack) (r : Shorter ts), (∀ t ∈ ts, t.Sound) →
      stackSet ts = .ok (carried, r) → IsReadBack stackSet (formatStacks carried) carried := by
  refine ⟨fun p hp t ht gap gap' hgap hgap' => ?_, fun ts a r hts h => ?_,
    fun ts carried r hts h => ?_⟩
  · have hwellFormed := hp.wellFormed.templates t ht
    obtain ⟨d, hsound, rfl⟩ := hp.exists_tree
    have hdesc := Grammar.doubleQuote_not_mem_templates d (fun t ht => (hsound t ht).spelled) t ht
    exact Template.parse_enclosed hwellFormed hdesc hgap hgap'
  · exact (Grammar.readAs_stat (wellFormed_of_stat hts h)).isReadBack exact_stat (by decide)
  · exact (Grammar.readAs_stacks (carried_of_stackSet hts h)).isReadBack exact_stackSet (by decide)

/-- Gold that is described in two lines and has a value, an attribute that grows by dice, and stacks
of which one has no number where they are first written. -/
theorem gold_read_back :
    (Source.ofString "  item Gold \x7b\n    desc: \"x\\ny\"\n    value: 30\n\x7d\n").parse =
      .ok ⟨[.item ⟨1, "Gold", some "x\\ny", some 30, none, none, none⟩], [], []⟩ ∧
    IsReadBack stat "7 += 1d4" ⟨7, .add, .dice ⟨1, 4⟩⟩ ∧
    IsReadBack stackSet "Sword/2 & Shield/1" [⟨"Sword", 2⟩, ⟨"Shield", 1⟩] := by
  obtain ⟨htemplates, hstats, hstacks⟩ := templates_read_back
  have hgold : (Source.ofString "item Gold\x7bdesc:\"x\ny\" value:30\x7d\n?Gold;").parse =
      .ok (Program.gold 1 3) :=
    Program.parse_gold ⟨1, 1⟩ ⟨1, 6⟩ ⟨1, 10⟩ ⟨1, 11⟩ ⟨1, 15⟩ ⟨1, 16⟩ ⟨2, 4⟩ ⟨2, 9⟩ ⟨2, 10⟩ ⟨2, 12⟩
      ⟨3, 1⟩ ⟨3, 2⟩ ⟨3, 6⟩ (by decide +kernel) (by decide +kernel)
  refine ⟨?_, ?_, ?_⟩
  · have hparse := htemplates _ (Program.isRead_of_parse hgold) _ List.mem_cons_self " " "\n"
      (List.all_eq_true.mp rfl) (List.all_eq_true.mp rfl)
    have htext : enclosed " " "\n" (Template.item ⟨1, "Gold", some "x\ny", some 30, none, none,
        none⟩).lines = "  item Gold \x7b\n    desc: \"x\\ny\"\n    value: 30\n\x7d\n" := by
      decide +kernel
    have hdesc : betweenQuotes "x\ny" = "x\\ny" := by decide +kernel
    rw [htext, Template.reread, Option.map_some, hdesc] at hparse
    exact hparse
  · have hsound : ∀ t ∈ (Source.ofString "7+=1d4").tokens.items, t.Sound :=
      Source.sound_of_mem_tokens (by decide +kernel)
    have hitems : (Source.ofString "7+=1d4").tokens.items = [⟨.numberLiteral, "7", ⟨1, 1⟩⟩,
        ⟨.increasesBy, "", ⟨1, 2⟩⟩, ⟨.diceLiteral, "1d4", ⟨1, 4⟩⟩] := by decide +kernel
    rw [hitems] at hsound
    exact hstats _ _ _ hsound rfl
  · have hsound : ∀ t ∈ (Source.ofString "Sword/2&Shield").tokens.items, t.Sound :=
      Source.sound_of_mem_tokens (by decide +kernel)
    have hitems : (Source.ofString "Sword/2&Shield").tokens.items =
        [⟨.identifier, "Sword", ⟨1, 1⟩⟩, ⟨.slash, "", ⟨1, 6⟩⟩, ⟨.numberLiteral, "2", ⟨1, 7⟩⟩,
          ⟨.and, "", ⟨1, 8⟩⟩, ⟨.identifier, "Shield", ⟨1, 9⟩⟩] := by decide +kernel
    have htree := (exact_stackSet _).complete (.cons ⟨⟨.identifier, "Sword", ⟨1, 1⟩⟩, by decide⟩
      (.many ⟨⟨.slash, "", ⟨1, 6⟩⟩, by decide⟩
        ⟨⟨.numberLiteral, "2", ⟨1, 7⟩⟩, rfl, 2, by decide +kernel⟩)
      ⟨⟨.and, "", ⟨1, 8⟩⟩, by decide⟩
      (.last ⟨⟨.identifier, "Shield", ⟨1, 9⟩⟩, by decide⟩ .one)) [] (Nat.le_refl _) (by decide)
    obtain ⟨r, hr, -⟩ := exists_of_reads htree
    rw [hitems] at hsound
    exact hstacks _ _ r hsound hr

end Adventure
