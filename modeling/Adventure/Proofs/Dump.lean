import Adventure.Proofs.LegibleStatement
import Adventure.Proofs.Truncation

/-!
# A shown program tells what it is

A program that was read and then shown can be told from what is shown, except for the lines that its
templates stand on (`Program.dump_eq_iff`): two such programs are shown alike only if they are the
same otherwise.

Statements and functions are legible. Of a template, the fields that have a value are shown, each
behind its name. As the names are different and come in a fixed order, it can be told which fields
these are (`fieldLines_append_inj`).
-/

namespace Adventure

open Text Parsing

/-! ## Fields -/

/-- What follows is the end of the line. -/
def EndsLine (rest : List Char) : Prop :=
  ∃ more, rest = '\n' :: more

/-- The end of a line ends an expression. -/
theorem EndsLine.stops {r : List Char} (h : EndsLine r) : Stops r := by
  obtain ⟨more, rfl⟩ := h
  exact stops_newline more

/-- How the line of a field starts. -/
def fieldStart (name : String) : List Char :=
  indentation 2 ++ (name.toList ++ [':', ' '])

/-- What is not inside of a template is not one of its fields. -/
theorem shallow_not_fieldStart {r : List Char} (hr : Shallow r) (name : String) :
    ¬fieldStart name <+: r :=
  fun h => hr ((List.prefix_append _ _).trans h)

/-- A field is shown behind its name and in front of the others. -/
theorem shown_fieldLines_cons_some (name text : String) (fields : List (String × Option String)) :
    shown (fieldLines ((name, some text) :: fields)) =
      fieldStart name ++ (text.toList ++ '\n' :: shown (fieldLines fields)) := by
  have hlines : fieldLines ((name, some text) :: fields) =
      indented 2 (name ++ ": " ++ text) :: fieldLines fields := rfl
  rw [hlines, shown_cons, toList_indented, fieldStart]
  simp

/-- The names that fields can have. -/
def fieldNames : List String :=
  ["desc", "value", "level", "reqexp", "exp", "health", "attack", "defence", "equipped",
    "inventory", "reward"]

/-- The names of fields are words. -/
theorem isWordChar_of_mem_fieldNames {name : String} (h : name ∈ fieldNames) :
    ∀ c ∈ name.toList, isWordChar c = true := by
  have hwords : ∀ name ∈ fieldNames, name.toList.all isWordChar = true := by decide +kernel
  exact List.all_eq_true.mp (hwords name h)

/-- The line of a field tells its name. -/
theorem fieldStart_append_inj {name name' : String} (hname : name ∈ fieldNames)
    (hname' : name' ∈ fieldNames) {r s : List Char}
    (h : fieldStart name ++ r = fieldStart name' ++ s) : name = name' := by
  have hcolon : ∀ t, Halts isWordChar (':' :: t) := halts_mark (by decide)
  simp only [fieldStart, List.append_assoc, List.cons_append, List.append_cancel_left_eq] at h
  exact String.toList_inj.mp (run_append_inj (isWordChar_of_mem_fieldNames hname)
    (isWordChar_of_mem_fieldNames hname') (hcolon _) (hcolon _) h).1

/-- A field that is not among others does not start their lines. -/
theorem not_startsWith_fieldStart {name : String} (hname : name ∈ fieldNames) {others : List String}
    (hothers : others ⊆ fieldNames) (hnot : name ∉ others) (values : List (Option String))
    {r : List Char} (hr : ¬fieldStart name <+: r) :
    ¬fieldStart name <+: shown (fieldLines (others.zip values)) ++ r := by
  induction others generalizing values with
  | nil => exact hr
  | cons other others ih =>
    obtain ⟨hother, hothers⟩ := List.cons_subset.mp hothers
    obtain ⟨hne, hnot⟩ := not_or.mp (mt List.mem_cons.mpr hnot)
    cases values with
    | nil => exact hr
    | cons value values =>
      rw [List.zip_cons_cons]
      cases value with
      | none => exact ih hothers hnot values
      | some text =>
        rintro ⟨t, ht⟩
        rw [shown_fieldLines_cons_some, List.append_assoc] at ht
        exact hne (fieldStart_append_inj hname hother ht)

section

variable {α : Type} {write : α → String} {ok : α → Prop}

/-- **Fields are legible** if the texts of their values are, in front of what is no such field. -/
theorem fieldLines_append_inj
    (hlegible : ∀ a, ok a → Legible (fun a => (write a).toList) ok EndsLine a)
    {names : List String} (hnames : names ⊆ fieldNames) (hnodup : names.Nodup)
    {xs ys : List (Option α)} (hxs : xs.length = names.length) (hys : ys.length = names.length)
    (hok : ∀ a, some a ∈ xs → ok a) (hok' : ∀ a, some a ∈ ys → ok a) {r s : List Char}
    (hr : ∀ name ∈ names, ¬fieldStart name <+: r) (hs : ∀ name ∈ names, ¬fieldStart name <+: s)
    (h : shown (fieldLines (names.zip (xs.map (Option.map write)))) ++ r =
      shown (fieldLines (names.zip (ys.map (Option.map write)))) ++ s) :
    xs = ys ∧ r = s := by
  -- along the names, as a field without a value leaves no line to go by
  induction names generalizing xs ys with
  | nil =>
    rw [List.eq_nil_of_length_eq_zero hxs, List.eq_nil_of_length_eq_zero hys] at *
    exact ⟨rfl, h⟩
  | cons name names ih =>
    obtain ⟨x, xs, rfl⟩ := List.exists_cons_of_length_eq_add_one hxs
    obtain ⟨y, ys, rfl⟩ := List.exists_cons_of_length_eq_add_one hys
    obtain ⟨hname, hnames⟩ := List.cons_subset.mp hnames
    obtain ⟨hother, hnodup⟩ := List.nodup_cons.mp hnodup
    obtain ⟨hr₁, hr⟩ := List.forall_mem_cons.mp hr
    obtain ⟨hs₁, hs⟩ := List.forall_mem_cons.mp hs
    have hmore := @ih hnames hnodup xs ys (Nat.succ.inj hxs) (Nat.succ.inj hys)
      (fun a ha => hok a (List.mem_cons_of_mem _ ha))
      (fun a ha => hok' a (List.mem_cons_of_mem _ ha)) hr hs
    -- the fields that come later have other names
    have hlater : ∀ values t, ¬fieldStart name <+: t →
        ¬fieldStart name <+: shown (fieldLines (names.zip values)) ++ t :=
      fun values t => not_startsWith_fieldStart hname hnames hother values
    rw [List.map_cons, List.map_cons, List.zip_cons_cons, List.zip_cons_cons] at h
    cases x with
    | none =>
      cases y with
      | none =>
        obtain ⟨rfl, hend⟩ := hmore h
        exact ⟨rfl, hend⟩
      | some b =>
        rw [Option.map_some, shown_fieldLines_cons_some, List.append_assoc] at h
        exact absurd ⟨_, h.symm⟩ (hlater _ r hr₁)
    | some a =>
      rw [Option.map_some, shown_fieldLines_cons_some, List.append_assoc] at h
      cases y with
      | none => exact absurd ⟨_, h⟩ (hlater _ s hs₁)
      | some b =>
        rw [Option.map_some, shown_fieldLines_cons_some, List.append_assoc] at h
        simp only [List.append_cancel_left_eq, List.append_assoc, List.cons_append] at h
        obtain ⟨rfl, hrest⟩ := hlegible a (hok a List.mem_cons_self) b (hok' b List.mem_cons_self)
          _ _ ⟨_, rfl⟩ ⟨_, rfl⟩ h
        obtain ⟨rfl, hend⟩ := hmore (List.cons.inj hrest).2
        exact ⟨rfl, hend⟩

end

/-! ### Values of fields -/

/-- A description can be told at the end of its line. -/
theorem isLegible_desc (text : String) :
    Legible (fun text => (quoted text).toList) (fun _ => True) EndsLine text :=
  fun _ _ _ _ _ _ h => quoted_append_inj h

/-- A number can be told at the end of its line. -/
theorem isLegible_number {n : Int64} (hn : IsNatural n) :
    Legible (fun n => (decimalText n).toList) IsNatural EndsLine n :=
  fun _ hm _ _ hr hs h => decimal_append_inj hn hm hr.stops.digit hs.stops.digit h

namespace Attribute

/-- What is written behind the start of an attribute. -/
def growth (a : Attribute) : List Char :=
  if a.increase = .none then []
  else ' ' :: (a.increase.symbol.toList ++ ' ' :: a.amount.format.toList)

/-- An attribute is written as its base and then its growth. -/
theorem toList_format {a : Attribute} (h : a.WellFormed) :
    a.format.toList = (decimalText a.base).toList ++ a.growth := by
  obtain ⟨base, increase, amount⟩ := a
  have hiff : amount = .hole ↔ increase = .none := h.amount_iff
  unfold format growth
  cases increase with
  | none => simp
  | other code => exact absurd rfl (h.increase code)
  | _ => cases amount <;> simp_all

/-- The growth rules of the language by which something grows. -/
def growing : List Increase :=
  [.add, .multiply]

/-- Growth of an attribute that has any is of a known kind. -/
theorem mem_growing {a : Attribute} (h : a.WellFormed) (hne : a.increase ≠ .none) :
    a.increase ∈ growing := by
  rcases hincrease : a.increase with - | - | - | code
  · exact absurd hincrease hne
  · decide
  · decide
  · exact absurd hincrease (h.increase code)

/-- Growth can be told at the end of its line, also if there is none. -/
theorem growth_append_inj {a b : Attribute} (ha : a.WellFormed) (hb : b.WellFormed)
    {r s : List Char} (h : a.growth ++ '\n' :: r = b.growth ++ '\n' :: s) :
    a.increase = b.increase ∧ a.amount = b.amount ∧ r = s := by
  have hne : ∀ t u : List Char, '\n' :: t ≠ ' ' :: u := by simp
  unfold growth at h
  by_cases hnone : a.increase = .none
  · by_cases hnone' : b.increase = .none
    · rw [if_pos hnone, if_pos hnone'] at h
      exact ⟨hnone.trans hnone'.symm,
        (ha.amount_iff.mpr hnone).trans (hb.amount_iff.mpr hnone').symm, (List.cons.inj h).2⟩
    · rw [if_pos hnone, if_neg hnone'] at h
      exact absurd h (hne _ _)
  · by_cases hnone' : b.increase = .none
    · rw [if_neg hnone, if_pos hnone'] at h
      exact absurd h.symm (hne _ _)
    · rw [if_neg hnone, if_neg hnone'] at h
      simp only [List.cons_append, List.append_assoc] at h
      obtain ⟨hincrease, h⟩ := symbol_append_inj (by decide) (by decide) (mem_growing ha hnone)
        (mem_growing hb hnone') (List.cons.inj h).2
      obtain ⟨hamount, h⟩ := Expr.format_append_inj (ha.amount (mt ha.amount_iff.mp hnone)).2
        (hb.amount (mt hb.amount_iff.mp hnone')).2 (stops_newline _)
        (stops_newline _) h
      exact ⟨hincrease, hamount, (List.cons.inj h).2⟩

/-- **Attributes are legible** at the end of a line. -/
theorem isLegible {a : Attribute} (ha : a.WellFormed) :
    Legible (fun a : Attribute => a.format.toList) WellFormed EndsLine a := by
  rintro b hb _ _ ⟨r, rfl⟩ ⟨s, rfl⟩ h
  have hgrowth : ∀ (c : Attribute) (t : List Char), Halts isDigit (c.growth ++ '\n' :: t) := by
    intro c t
    rw [growth]
    split
    · exact (stops_newline _).digit
    · exact (stops_blank _).digit
  simp only [toList_format ha, toList_format hb, List.append_assoc] at h
  obtain ⟨hbase, h⟩ := decimal_append_inj ha.base hb.base (hgrowth _ _) (hgrowth _ _) h
  obtain ⟨hincrease, hamount, hrest⟩ := growth_append_inj ha hb h
  obtain ⟨base, increase, amount⟩ := a
  obtain rfl : base = b.base := hbase
  obtain rfl : increase = b.increase := hincrease
  obtain rfl : amount = b.amount := hamount
  exact ⟨rfl, congrArg _ hrest⟩

end Attribute

/-! ### Stacks of items -/

/-- A stack can be told in front of what ends an expression. -/
theorem Stack.isLegible {x : Stack} (hx : x.WellFormed) :
    Legible (fun x : Stack => x.format.toList) WellFormed Stops x := by
  intro y hy r s hr hs h
  have hslash : ∀ t, Halts isWordChar ('/' :: t) := halts_mark (by decide)
  simp only [Stack.format, String.toList_append, List.append_assoc] at h
  obtain ⟨hname, h⟩ := name_append_inj hx.name hy.name (hslash _) (hslash _) h
  obtain ⟨hquantity, hrest⟩ := decimal_append_inj hx.quantity hy.quantity hr.digit hs.digit
    (List.cons.inj h).2
  obtain ⟨name, quantity⟩ := x
  obtain rfl : name = y.name := hname
  obtain rfl : quantity = y.quantity := hquantity
  exact ⟨rfl, hrest⟩

/-- Stacks of items that are written, of which there is one at least. -/
def Carried (carried : List Stack) : Prop :=
  carried ≠ [] ∧ ∀ x ∈ carried, x.WellFormed

/-- Stacks can be told at the end of their line. -/
theorem isLegible_carried {carried : List Stack} (h : Carried carried) :
    Legible (fun carried => (formatStacks carried).toList) Carried EndsLine carried := by
  rintro carried' h' _ _ ⟨r, rfl⟩ ⟨s, rfl⟩ heq
  have hblank : ∀ t, Stops ([' ', '&', ' '] ++ t) := fun t => stops_blank _
  have hend : ∀ t, ¬[' ', '&', ' '] <+: '\n' :: t ∧ Stops ('\n' :: t) := fun t =>
    ⟨by simp, stops_newline t⟩
  have hnone : ∀ t (x : Stack), x.WellFormed → ∀ u, x.format.toList ++ u ≠ '\n' :: t := by
    intro t x hx u hu
    simp only [Stack.format, String.toList_append, List.append_assoc] at hu
    exact Expr.format_append_ne (e := .var x.name) hx.name (by rfl) hu
  have hsep : " & ".toList = [' ', '&', ' '] := by rfl
  simp only [formatStacks, toList_intercalate, hsep] at heq
  exact separated_append_inj hblank (fun x hx => ⟨h.2 x hx, Stack.isLegible (h.2 x hx)⟩) h'.2
    (hend r) (hend s) (hnone r) (hnone s) heq

/-! ## Templates -/

/-- Fields are shown one after the other. -/
theorem shown_fieldLines_append (fields fields' : List (String × Option String)) :
    shown (fieldLines (fields ++ fields')) =
      shown (fieldLines fields) ++ shown (fieldLines fields') := by
  rw [fieldLines, List.filterMap_append, shown_append]
  rfl

namespace Item

/-- The names of the fields that are numbers. -/
def numberNames : List String :=
  ["value", "health", "attack", "defence"]

/-- The fields that are numbers. -/
def numbers (i : Item) : List (Option Int64) :=
  [i.value, i.health, i.attack, i.defence]

/-- The fields of an item are its description and its numbers. -/
theorem fields_eq (i : Item) :
    i.fields = ["desc"].zip ([i.desc].map (Option.map quoted)) ++
      numberNames.zip (i.numbers.map (Option.map decimalText)) :=
  rfl

/-- The fields of an item can be told from what is shown of them. -/
theorem fields_append_inj {i i' : Item} (h : i.WellFormed) (h' : i'.WellFormed) {r s : List Char}
    (hr : Shallow r) (hs : Shallow s)
    (heq : shown (fieldLines i.fields) ++ r = shown (fieldLines i'.fields) ++ s) :
    [i.desc] = [i'.desc] ∧ i.numbers = i'.numbers ∧ r = s := by
  have hother : ∀ name ∈ ["desc"], name ∈ fieldNames ∧ name ∉ numberNames := by decide
  have hgroup : ∀ values t, Shallow t →
      ∀ name ∈ ["desc"], ¬fieldStart name <+: shown (fieldLines (numberNames.zip values)) ++ t :=
    fun values t ht name hname => not_startsWith_fieldStart (hother name hname).1 (by decide)
      (hother name hname).2 values (shallow_not_fieldStart ht name)
  rw [fields_eq, fields_eq, shown_fieldLines_append, shown_fieldLines_append, List.append_assoc,
    List.append_assoc] at heq
  obtain ⟨hdesc, heq⟩ := fieldLines_append_inj (fun text _ => isLegible_desc text) (by decide)
    (by decide) rfl rfl (fun _ _ => trivial) (fun _ _ => trivial) (hgroup _ r hr) (hgroup _ s hs)
    heq
  obtain ⟨hnumbers, heq⟩ := fieldLines_append_inj (fun _ => isLegible_number) (by decide)
    (by decide) rfl rfl h.numbers h'.numbers (fun name _ => shallow_not_fieldStart hr name)
    (fun name _ => shallow_not_fieldStart hs name) heq
  exact ⟨hdesc, hnumbers, heq⟩

end Item

namespace Character

/-- The names of the fields that are attributes. -/
def attributeNames : List String :=
  ["level", "reqexp", "exp", "health", "attack", "defence"]

/-- The fields that are attributes. -/
def attributes (c : Character) : List (Option Attribute) :=
  [c.level, c.reqexp, c.exp, c.health, c.attack, c.defence]

/-- The names of the fields that are stacks of items. -/
def stackNames : List String :=
  ["equipped", "inventory", "reward"]

/-- Stacks of items, unless there are none. -/
def someStacks : List Stack → Option (List Stack)
  | [] => none
  | carried => some carried

/-- Stacks are shown if there are any. -/
theorem stacksField_eq (carried : List Stack) :
    stacksField carried = (someStacks carried).map formatStacks := by
  cases carried <;> rfl

theorem getD_someStacks (carried : List Stack) : (someStacks carried).getD [] = carried := by
  cases carried <;> rfl

/-- Stacks that are shown can be told. -/
theorem carried_of_someStacks {carried carried' : List Stack} (h : ∀ x ∈ carried, x.WellFormed)
    (hsome : some carried' = someStacks carried) : Carried carried' := by
  cases carried with
  | nil => cases hsome
  | cons x carried =>
    obtain rfl := Option.some.inj hsome
    exact ⟨List.cons_ne_nil _ _, h⟩

/-- The fields that are stacks of items. -/
def holdings (c : Character) : List (Option (List Stack)) :=
  [someStacks c.equipped, someStacks c.inventory, someStacks c.reward]

/-- The fields of a character are its attributes and what it has. -/
theorem fields_eq (c : Character) :
    c.fields = attributeNames.zip (c.attributes.map (Option.map Attribute.format)) ++
      stackNames.zip (c.holdings.map (Option.map formatStacks)) := by
  simp only [fields, stacksField_eq]
  rfl

/-- What a character has can be told. -/
theorem WellFormed.holdings {c : Character} (h : c.WellFormed) :
    ∀ carried, some carried ∈ c.holdings → Carried carried := by
  have hall := h.carried
  simp only [List.forall_mem_append] at hall
  obtain ⟨⟨hequipped, hinventory⟩, hreward⟩ := hall
  intro carried hcarried
  rw [Character.holdings, List.mem_cons, List.mem_cons, List.mem_singleton] at hcarried
  rcases hcarried with hcarried | hcarried | hcarried
  · exact carried_of_someStacks hequipped hcarried
  · exact carried_of_someStacks hinventory hcarried
  · exact carried_of_someStacks hreward hcarried

/-- The fields of a character can be told from what is shown of them. -/
theorem fields_append_inj {c c' : Character} (h : c.WellFormed) (h' : c'.WellFormed)
    {r s : List Char} (hr : Shallow r) (hs : Shallow s)
    (heq : shown (fieldLines c.fields) ++ r = shown (fieldLines c'.fields) ++ s) :
    c.attributes = c'.attributes ∧ c.holdings = c'.holdings ∧ r = s := by
  have hother : ∀ name ∈ attributeNames, name ∈ fieldNames ∧ name ∉ stackNames := by decide
  have hgroup : ∀ values t, Shallow t → ∀ name ∈ attributeNames,
      ¬fieldStart name <+: shown (fieldLines (stackNames.zip values)) ++ t :=
    fun values t ht name hname => not_startsWith_fieldStart (hother name hname).1 (by decide)
      (hother name hname).2 values (shallow_not_fieldStart ht name)
  rw [fields_eq, fields_eq, shown_fieldLines_append, shown_fieldLines_append, List.append_assoc,
    List.append_assoc] at heq
  obtain ⟨hattributes, heq⟩ := fieldLines_append_inj (fun _ => Attribute.isLegible) (by decide)
    (by decide) rfl rfl h.attributes h'.attributes (hgroup _ r hr) (hgroup _ s hs) heq
  obtain ⟨hholdings, heq⟩ := fieldLines_append_inj (fun _ => isLegible_carried) (by decide)
    (by decide) rfl rfl h.holdings h'.holdings (fun name _ => shallow_not_fieldStart hr name)
    (fun name _ => shallow_not_fieldStart hs name) heq
  exact ⟨hattributes, hholdings, heq⟩

end Character

namespace Template

/-- The template without the line that it stands on. -/
def forgetLine : Template → Template
  | .item i => .item { i with line := 0 }
  | .character c => .character { c with line := 0 }
  | .foreign name => .foreign name

/-- The line that a template stands on is not shown. -/
theorem lines_forgetLine (t : Template) : t.forgetLine.lines = t.lines := by
  cases t <;> rfl

/-- The word for the sort of a template. -/
def title : Template → String
  | .item _ => "item"
  | .character _ => "character"
  | .foreign _ => ""

/-- The fields of a template. -/
def fields : Template → List (String × Option String)
  | .item i => i.fields
  | .character c => c.fields
  | .foreign _ => []

theorem WellFormed.name {t : Template} (h : t.WellFormed) : IsName t.name := by
  cases t with
  | item i => exact Item.WellFormed.name h
  | character c => exact Character.WellFormed.name h
  | «foreign» name => exact h.elim

/-- Templates have one of two titles. -/
theorem WellFormed.title_mem {t : Template} (h : t.WellFormed) :
    t.title ∈ ["item", "character"] := by
  cases t with
  | «foreign» name => exact h.elim
  | _ => simp [title]

/-- A template is shown as its title and its name, and then its fields. -/
theorem lines_eq {t : Template} (h : t.WellFormed) :
    t.lines = indented 1 (t.title ++ " " ++ t.name) :: fieldLines t.fields := by
  cases t with
  | «foreign» name => exact h.elim
  | _ => rfl

/-- The characters that are shown of a template. -/
theorem shown_lines {t : Template} (h : t.WellFormed) :
    shown t.lines = indentation 1 ++ (t.title.toList ++
      ' ' :: (t.name.toList ++ '\n' :: shown (fieldLines t.fields))) := by
  rw [lines_eq h, shown_cons, toList_indented]
  simp

/-- **Templates can be told, except for their lines**, in front of what is not inside of one. -/
theorem lines_append_inj {t t' : Template} (h : t.WellFormed) (h' : t'.WellFormed)
    {r s : List Char} (hr : Shallow r) (hs : Shallow s)
    (heq : shown t.lines ++ r = shown t'.lines ++ s) : t.forgetLine = t'.forgetLine ∧ r = s := by
  simp only [shown_lines h, shown_lines h', List.append_assoc, List.cons_append,
    List.append_cancel_left_eq] at heq
  have hwords : ∀ word ∈ ["item", "character"], word.toList.all isWordChar = true := by
    decide +kernel
  -- the title ends at the blank, the name at the end of the line
  obtain ⟨htitle, heq⟩ := run_append_inj (List.all_eq_true.mp (hwords _ h.title_mem))
    (List.all_eq_true.mp (hwords _ h'.title_mem)) (stops_blank _).word (stops_blank _).word heq
  obtain ⟨hname, heq⟩ := name_append_inj h.name h'.name (stops_newline _).word
    (stops_newline _).word (List.cons.inj heq).2
  replace htitle : t.title = t'.title := String.toList_inj.mp htitle
  cases t with
  | item i =>
    cases t' with
    | item i' =>
      obtain ⟨hdesc, hnumbers, hrest⟩ := Item.fields_append_inj h h' hr hs (List.cons.inj heq).2
      simp only [Item.numbers, List.cons.injEq, and_true] at hdesc hnumbers
      refine ⟨?_, hrest⟩
      rw [forgetLine, forgetLine, item.injEq, Item.mk.injEq]
      exact ⟨rfl, hname, hdesc, hnumbers⟩
    | character c' => simp [title] at htitle
    | «foreign» name' => exact h'.elim
  | character c =>
    cases t' with
    | item i' => simp [title] at htitle
    | character c' =>
      obtain ⟨hattributes, hholdings, hrest⟩ := Character.fields_append_inj h h' hr hs
        (List.cons.inj heq).2
      -- a character that carries nothing has no such field, and an empty list
      have hcarried := congrArg (List.map (Option.getD · [])) hholdings
      simp only [Character.attributes, Character.holdings, List.map_cons, List.map_nil,
        Character.getD_someStacks, List.cons.injEq, and_true] at hattributes hcarried
      refine ⟨?_, hrest⟩
      rw [forgetLine, forgetLine, character.injEq, Character.mk.injEq]
      simp only [hattributes, hcarried, and_true, true_and]
      exact hname
    | «foreign» name' => exact h'.elim
  | «foreign» name => exact h.elim

/-- The template has lost its line, and is well-formed otherwise. -/
def IsForgotten (t : Template) : Prop :=
  ∃ t₀ : Template, t₀.WellFormed ∧ t₀.forgetLine = t

/-- A template whose line is forgotten can be told from what is shown of it. -/
theorem IsForgotten.isLegible {t : Template} (h : t.IsForgotten) :
    Legible (fun t : Template => shown t.lines) IsForgotten Shallow t := by
  obtain ⟨t, ht, rfl⟩ := h
  rintro _ ⟨t', ht', rfl⟩ r s hr hs heq
  simp only [lines_forgetLine] at heq
  exact lines_append_inj ht ht' hr hs heq

/-- A template starts with a line of its own. -/
theorem IsForgotten.startsEntry {t : Template} (h : t.IsForgotten) :
    StartsEntry (shown t.lines) := by
  obtain ⟨t, ht, rfl⟩ := h
  have hwords : ∀ word ∈ ["item", "character"], word.toList.head?.any (· != ' ') = true := by
    decide
  intro u
  rw [lines_forgetLine, shown_lines ht, List.append_assoc, List.append_assoc]
  exact ⟨_, halts_word t.title (hwords _ ht.title_mem) _, rfl⟩

end Template

/-! ## Programs -/

namespace Program

/-- The program without the lines that its templates stand on. -/
def forgetTemplateLines (p : Program) : Program :=
  { p with templates := p.templates.map Template.forgetLine }

/-- The lines that templates stand on are not shown. -/
theorem lines_forgetTemplateLines (p : Program) : p.forgetTemplateLines.lines = p.lines := by
  have htemplates : (p.templates.map Template.forgetLine).flatMap Template.lines =
      p.templates.flatMap Template.lines := by
    simp only [List.flatMap_map, Template.lines_forgetLine]
  unfold lines forgetTemplateLines
  rw [htemplates]

/-- The characters that are shown of a program. -/
theorem shown_lines (p : Program) :
    shown p.lines =
      "Instructions:".toList ++ '\n' :: (shown (Statement.allLines 1 p.instructions) ++
        ("Functions:".toList ++ '\n' :: ((p.functions.flatMap fun f => shown f.lines) ++
          ("Templates:".toList ++ '\n' :: p.templates.flatMap fun t => shown t.lines)))) := by
  have hflat : ∀ {α : Type} (f : α → List String) (xs : List α),
      shown (xs.flatMap f) = xs.flatMap fun x => shown (f x) := fun f xs => List.flatMap_assoc
  simp only [lines, shown_append, shown_cons, hflat, List.append_assoc, List.cons_append]

/-- Templates whose lines are forgotten are still well-formed. -/
theorem WellFormed.forgotten {p : Program} (h : p.WellFormed) :
    ∀ t ∈ p.forgetTemplateLines.templates, t.IsForgotten := by
  intro t ht
  obtain ⟨t₀, ht₀, rfl⟩ := List.mem_map.mp ht
  exact ⟨t₀, h.templates t₀ ht₀, rfl⟩

/-- **Programs can be told, except for the lines of their templates.** -/
theorem dump_eq_iff {p q : Program} (hp : p.WellFormed) (hq : q.WellFormed) :
    p.dump = q.dump ↔ p.forgetTemplateLines = q.forgetTemplateLines := by
  constructor
  · intro h
    have hF : ∀ t, Halts (· == ' ') ("Functions:".toList ++ t) := halts_word _ (by decide)
    have hT : ∀ t, Halts (· == ' ') ("Templates:".toList ++ t) := halts_word _ (by decide)
    replace h := congrArg String.toList h
    rw [dump, dump, toList_unlines, toList_unlines, ← lines_forgetTemplateLines p,
      ← lines_forgetTemplateLines q, shown_lines, shown_lines] at h
    obtain ⟨hinstructions, h⟩ := Statement.indented_allLines_append_inj
      (Statement.allWellFormed_iff.mpr hp.instructions)
      (Statement.allWellFormed_iff.mpr hq.instructions)
      (not_startsWith_indentation (by decide) (hF _))
      (not_startsWith_indentation (by decide) (hF _))
      (List.cons.inj (List.append_cancel_left h)).2
    obtain ⟨hfunctions, h⟩ := entries_append_inj (fun f _ => f.startsEntry)
      (fun _ => Function.isLegible) hp.functions hq.functions (hT _) (hT _)
      (List.cons.inj (List.append_cancel_left h)).2
    -- nothing follows the templates
    obtain ⟨htemplates, -⟩ := entries_append_inj (fun _ => Template.IsForgotten.startsEntry)
      (fun _ => Template.IsForgotten.isLegible) hp.forgotten hq.forgotten halts_nil halts_nil
      (congrArg (· ++ []) (List.cons.inj (List.append_cancel_left h)).2)
    rw [forgetTemplateLines, forgetTemplateLines, Program.mk.injEq]
    exact ⟨htemplates, hfunctions, hinstructions⟩
  · intro h
    rw [dump, dump, ← lines_forgetTemplateLines p, h, lines_forgetTemplateLines q]

end Program

/-! ## Printing -/

namespace Program

/-- **What is printed of a program loses nothing.** Two programs that were read are printed without
an error to writers that have room for them, and they are printed alike if and only if they are the
same except for the lines that their templates stand on. -/
theorem written_alike_iff {p q : Program} (hp : p.IsRead) (hq : q.IsRead) {room room' : Option Nat}
    (hroom : ∀ n ∈ room, p.lines.length ≤ n) (hroom' : ∀ n ∈ room', q.lines.length ≤ n) :
    ∃ v w, p.print (Writer.ofRoom room) = (none, v) ∧ q.print (Writer.ofRoom room') = (none, w) ∧
      (v.text = w.text ↔ p.forgetTemplateLines = q.forgetTemplateLines) := by
  obtain ⟨v, hv, hvtext⟩ := exists_print hroom
  obtain ⟨w, hw, hwtext⟩ := exists_print hroom'
  refine ⟨v, w, hv, hw, ?_⟩
  rw [hvtext, hwtext]
  exact dump_eq_iff hp.wellFormed hq.wellFormed

/-- Gold that is described in two lines and has a value, and that is shown. -/
def gold (template instruction : Int) : Program :=
  ⟨[.item ⟨template, "Gold", some "x\ny", some 30, none, none, none⟩], [],
    [.log instruction (.var "Gold")]⟩

theorem parse_gold {text : String} (a b c d e f g h i j k l m : Position)
    (hitems : (Source.ofString text).tokens.items =
      [⟨.item, "", a⟩, ⟨.identifier, "Gold", b⟩, ⟨.curlyOpen, "", c⟩, ⟨.desc, "", d⟩,
        ⟨.colon, "", e⟩, ⟨.stringLiteral, "x\ny", f⟩, ⟨.value, "", g⟩, ⟨.colon, "", h⟩,
        ⟨.numberLiteral, "30", i⟩, ⟨.curlyClose, "", j⟩, ⟨.questionMark, "", k⟩,
        ⟨.identifier, "Gold", l⟩, ⟨.semicolon, "", m⟩])
    (hfailure : (Source.ofString text).tokens.failure = none) :
    (Source.ofString text).parse = .ok (gold a.line k.line) := by
  refine (Source.parse_eq_ok_iff _ _).mpr ⟨hfailure, (Parsing.program_eq_ok_iff _ _).mpr ?_⟩
  rw [hitems]
  have hleaf : ∀ kind : Kind, kind ∈ [kind] := fun _ => List.mem_singleton_self _
  have hthirty : Numeral.decimal "30" = .ok 30 := by decide +kernel
  exact ⟨[.item ⟨⟨⟨.item, "", a⟩, hleaf _⟩, ⟨⟨.identifier, "Gold", b⟩, hleaf _⟩,
        ⟨⟨.curlyOpen, "", c⟩, hleaf _⟩, .desc ⟨⟨.desc, "", d⟩, hleaf _⟩ ⟨⟨.colon, "", e⟩, hleaf _⟩
          ⟨⟨.stringLiteral, "x\ny", f⟩, hleaf _⟩
        (.number ⟨⟨.value, "", g⟩, by simp⟩ ⟨⟨.colon, "", h⟩, hleaf _⟩
          ⟨⟨.numberLiteral, "30", i⟩, rfl, 30, hthirty⟩ (.nil ⟨⟨.curlyClose, "", j⟩, hleaf _⟩))⟩,
      .instruction (.log ⟨⟨.questionMark, "", k⟩, hleaf _⟩
        (.expression (.mk (.mk (.var ⟨⟨.identifier, "Gold", l⟩, hleaf _⟩) .nil) .nil))
        ⟨⟨.semicolon, "", m⟩, hleaf _⟩)], rfl, rfl⟩

/-- It makes no difference to what is printed whether a newline stands in front of a template or
behind it. One writer takes any number of lines, the other takes seven. -/
theorem gold_written_alike :
    (Source.ofString "\nitem Gold\x7bdesc:\"x\ny\" value:30\x7d?Gold;").parse = .ok (gold 2 3) ∧
      (Source.ofString "item Gold\x7bdesc:\"x\ny\" value:30\x7d\n?Gold;").parse =
        .ok (gold 1 3) ∧
      ∃ v w, (gold 2 3).print (Writer.ofRoom none) = (none, v) ∧
        (gold 1 3).print (Writer.ofRoom (some 7)) = (none, w) ∧ v.text = w.text := by
  have hp : (Source.ofString "\nitem Gold\x7bdesc:\"x\ny\" value:30\x7d?Gold;").parse =
      .ok (gold 2 3) :=
    parse_gold ⟨2, 1⟩ ⟨2, 6⟩ ⟨2, 10⟩ ⟨2, 11⟩ ⟨2, 15⟩ ⟨2, 16⟩ ⟨3, 4⟩ ⟨3, 9⟩ ⟨3, 10⟩ ⟨3, 12⟩ ⟨3, 13⟩
      ⟨3, 14⟩ ⟨3, 18⟩ (by decide +kernel) (by decide +kernel)
  have hq : (Source.ofString "item Gold\x7bdesc:\"x\ny\" value:30\x7d\n?Gold;").parse =
      .ok (gold 1 3) :=
    parse_gold ⟨1, 1⟩ ⟨1, 6⟩ ⟨1, 10⟩ ⟨1, 11⟩ ⟨1, 15⟩ ⟨1, 16⟩ ⟨2, 4⟩ ⟨2, 9⟩ ⟨2, 10⟩ ⟨2, 12⟩ ⟨3, 1⟩
      ⟨3, 2⟩ ⟨3, 6⟩ (by decide +kernel) (by decide +kernel)
  have hroom : ∀ n ∈ (none : Option Nat), (gold 2 3).lines.length ≤ n := by simp
  have hroom' : ∀ n ∈ some 7, (gold 1 3).lines.length ≤ n := by
    rintro n ⟨⟩
    exact Nat.le_refl 7
  obtain ⟨v, w, hv, hw, hsame⟩ := written_alike_iff (isRead_of_parse hp) (isRead_of_parse hq) hroom
    hroom'
  exact ⟨hp, hq, v, w, hv, hw, hsame.mpr rfl⟩

end Program

end Adventure
