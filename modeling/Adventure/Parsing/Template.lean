import Adventure.Parsing.Basic

/-!
# Reading templates

The fields of a template may come in any order and any number of times; the last one of a name
counts. Fields are not separated: a field ends where the next one or the closing brace begins.
-/

namespace Adventure

namespace Parsing

/-- The kinds of the fields of an item. -/
def itemFields : List Kind :=
  [.health, .attack, .defence, .desc, .value]

/-- The kinds of the fields of a character. -/
def characterFields : List Kind :=
  [.health, .attack, .defence, .level, .reqexp, .exp, .equipped, .inventory, .reward]

/-- Reads a number. -/
def number (ts : List Token) : Reads Int64 ts := do
  let (t, r) ← accept [.numberLiteral] ts
  let n ← numberOf t r.rest
  return (n, r)

/-! ## Items -/

end Parsing

namespace Item

/-- The item `name` without any fields. -/
def blank (line : Int) (name : String) : Item :=
  ⟨line, name, none, none, none, none, none⟩

/-- The item with a number for the field of the given kind. -/
def set (i : Item) (field : Kind) (n : Int64) : Item :=
  match field with
  | .health => { i with health := some n }
  | .attack => { i with attack := some n }
  | .defence => { i with defence := some n }
  | .value => { i with value := some n }
  | _ => i

end Item

namespace Parsing

/-- Reads the fields of the item `i`, up to and with the closing brace. -/
def itemBody (i : Item) (ts : List Token) : Reads Item ts :=
  match ts with
  | [] => throw ⟨.ended [.curlyClose], []⟩
  | t :: tail =>
    if t.kind ∈ itemFields then do
      let (_, r₁) ← accept [.colon] tail
      if t.kind = .desc then
        let (text, r₂) ← accept [.stringLiteral] r₁.rest
        let (i, r₃) ← itemBody { i with desc := some text.value } r₂.rest
        return (i, (Shorter.tail t tail).trans (r₁.trans (r₂.trans r₃)))
      else
        let (n, r₂) ← number r₁.rest
        let (i, r₃) ← itemBody (i.set t.kind n) r₂.rest
        return (i, (Shorter.tail t tail).trans (r₁.trans (r₂.trans r₃)))
    else do
      let (_, r) ← accept [.curlyClose] (t :: tail)
      return (i, r)
termination_by ts.length
decreasing_by all_goals grind

/-- Reads an item after its reserved word, which stands on `line`. -/
def item (line : Int) (ts : List Token) : Reads Item ts := do
  let (name, r₁) ← accept [.identifier] ts
  let (_, r₂) ← accept [.curlyOpen] r₁.rest
  let (i, r₃) ← itemBody (.blank line name.value) r₂.rest
  return (i, r₁.trans (r₂.trans r₃))

/-! ## Characters -/

/-- Reads an attribute: a number, and a growth rule if there is one. -/
def stat (ts : List Token) : Reads Attribute ts := do
  let (base, r₁) ← number ts
  if nextIs .increasesBy r₁.rest || nextIs .multipliesBy r₁.rest then
    let (op, r₂) ← accept [.increasesBy, .multipliesBy] r₁.rest
    let increase := if op.kind = .multipliesBy then Increase.multiply else .add
    let (amount, r₃) ← accept [.numberLiteral, .diceLiteral] r₂.rest
    if amount.kind = .diceLiteral then
      let d ← diceOf amount r₃.rest
      return (⟨base, increase, .dice d⟩, r₁.trans (r₂.trans r₃))
    else
      let n ← numberOf amount r₃.rest
      return (⟨base, increase, .number n⟩, r₁.trans (r₂.trans r₃))
  else
    return (⟨base, .none, .hole⟩, r₁)

/-- Reads the quantity of a stack; it is one if it is not written. -/
def quantity (ts : List Token) : MayRead Int64 ts :=
  match ts with
  | [] => return (1, .all [])
  | t :: tail =>
    if t.kind = .slash then do
      let (n, r) ← number tail
      return (n, ((Shorter.tail t tail).trans r).weaken)
    else
      return (1, .all (t :: tail))

/-- Reads stacks of items. -/
def stackSet (ts : List Token) : Reads (List Stack) ts := do
  let (name, r₁) ← accept [.identifier] ts
  let (n, r₂) ← quantity r₁.rest
  if nextIs .and r₂.rest then
    let (_, r₃) ← accept [.and] r₂.rest
    let (more, r₄) ← stackSet r₃.rest
    return (⟨name.value, n⟩ :: more, (r₁.extend r₂).trans (r₃.trans r₄))
  else
    return ([⟨name.value, n⟩], r₁.extend r₂)
termination_by ts.length
decreasing_by all_goals grind

end Parsing

namespace Character

/-- The character `name` without any fields. -/
def blank (line : Int) (name : String) : Character :=
  ⟨line, name, none, none, none, none, none, none, [], [], []⟩

/-- The character with an attribute for the field of the given kind. -/
def set (c : Character) (field : Kind) (a : Attribute) : Character :=
  match field with
  | .health => { c with health := some a }
  | .attack => { c with attack := some a }
  | .defence => { c with defence := some a }
  | .level => { c with level := some a }
  | .reqexp => { c with reqexp := some a }
  | .exp => { c with exp := some a }
  | _ => c

/-- The character with stacks of items for the field of the given kind. -/
def carry (c : Character) (field : Kind) (carried : List Stack) : Character :=
  match field with
  | .equipped => { c with equipped := carried }
  | .inventory => { c with inventory := carried }
  | _ => { c with reward := carried }

end Character

namespace Parsing

/-- Reads the fields of the character `c`, up to and with the closing brace. -/
def characterBody (c : Character) (ts : List Token) : Reads Character ts :=
  match ts with
  | [] => throw ⟨.ended [.curlyClose], []⟩
  | t :: tail =>
    if t.kind ∈ characterFields then do
      let (_, r₁) ← accept [.colon] tail
      if t.kind ∈ [Kind.equipped, .inventory, .reward] then
        let (carried, r₂) ← stackSet r₁.rest
        let (c, r₃) ← characterBody (c.carry t.kind carried) r₂.rest
        return (c, (Shorter.tail t tail).trans (r₁.trans (r₂.trans r₃)))
      else
        let (a, r₂) ← stat r₁.rest
        let (c, r₃) ← characterBody (c.set t.kind a) r₂.rest
        return (c, (Shorter.tail t tail).trans (r₁.trans (r₂.trans r₃)))
    else do
      let (_, r) ← accept [.curlyClose] (t :: tail)
      return (c, r)
termination_by ts.length
decreasing_by all_goals grind

/-- Reads a character after its reserved word, which stands on `line`. -/
def character (line : Int) (ts : List Token) : Reads Character ts := do
  let (name, r₁) ← accept [.identifier] ts
  let (_, r₂) ← accept [.curlyOpen] r₁.rest
  let (c, r₃) ← characterBody (.blank line name.value) r₂.rest
  return (c, r₁.trans (r₂.trans r₃))

end Parsing

end Adventure
