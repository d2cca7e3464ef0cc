import Adventure.Proofs.Assignables
import Adventure.Proofs.Derivation
import Adventure.Proofs.Escaping

/-!
# Expressions are written as they are read

What is written for an assignable of a program can be read again, and it is read as the assignable
with its texts escaped (`parse_log_format`). Written, a chain stands in parentheses, and so it is
read as a single operand wherever it stands; the lexemes do not run together, because one that can
grow has a blank, a comma or a parenthesis behind it.

`ReadAs` says that a text is read as a tree that stands for a given value. It is put together like
the trees themselves, and `Grammar.isAssignable_assignable` follows the tree that the expression was
read from.
-/

namespace Adventure

open Text Parsing

/-! ## Texts read as trees -/

/-- No lexeme goes on into the text. -/
def Closes (cs : List Char) : Prop :=
  ∀ kind : Kind, Halts kind.growsBy cs

/-- Marks that no lexeme takes in. -/
def boundaries : List Char :=
  [' ', '\n', '(', ')', '\x7b', '\x7d', ',', ';', ':', '&', '+', '-', '*', '/']

/-- A character that stands in no word and no number closes what stands before it. -/
theorem closes_cons {c : Char} (h : c ∈ boundaries) (cs : List Char) : Closes (c :: cs) := by
  have hall : boundaries.all (fun c => !isWordChar c && !isDigit c && !isDiceMark c &&
      !(c == '=') && !(c == '>')) = true := by decide +kernel
  have hc := List.all_eq_true.mp hall c h
  simp only [Bool.and_eq_true, Bool.not_eq_true'] at hc
  obtain ⟨⟨⟨⟨hword, hdigit⟩, hmark⟩, hequals⟩, hmore⟩ := hc
  exact fun kind => halts_cons.mpr (IsBoundary.growsBy ⟨hword, hdigit, hmark, hequals, hmore⟩ kind)

/-- Blanks close what stands before them, if what follows does. -/
theorem closes_blank {gap cs : List Char} (hgap : ∀ c ∈ gap, isBlank c = true) (h : Closes cs) :
    Closes (gap ++ cs) := by
  cases gap with
  | nil => exact h
  | cons c gap =>
    intro kind
    rw [List.cons_append, halts_cons]
    exact growsBy_of_isBlank (hgap c List.mem_cons_self) kind

/-- `ReadAs tokens value cs a`: where no lexeme goes on behind it, the text `cs` is read as the
tokens of a tree that stands for `a`. -/
def ReadAs {X α : Type} (tokens : X → List Token) (value : X → α) (cs : List Char) (a : α) : Prop :=
  ∃ faces, (∀ rest, Closes rest → Spells (cs ++ rest) faces rest) ∧
    ∀ us : List Token, us.map Token.face = faces → ∃ x, tokens x = us ∧ value x = a

namespace ReadAs

variable {X Y α β : Type} {tokens : X → List Token} {value : X → α} {tokens' : Y → List Token}
  {value' : Y → β} {cs cs' : List Char} {a : α} {b : β}

/-- What is read as a thing is read as what is made of it. -/
theorem map (h : ReadAs tokens value cs a) (φ : X → Y) (htokens : ∀ x, tokens' (φ x) = tokens x)
    (f : α → β) (hvalue : ∀ x, value' (φ x) = f (value x)) : ReadAs tokens' value' cs (f a) := by
  obtain ⟨faces, hspells, htree⟩ := h
  refine ⟨faces, hspells, fun us hus => ?_⟩
  obtain ⟨x, rfl, rfl⟩ := htree us hus
  exact ⟨φ x, htokens x, hvalue x⟩

/-- Two texts one behind the other, where the first cannot grow into the second. -/
theorem pair (h : ReadAs tokens value cs a) (h' : ReadAs tokens' value' cs' b)
    (hcloses : ∀ rest, Closes rest → Closes (cs' ++ rest)) :
    ReadAs (fun x : X × Y => tokens x.1 ++ tokens' x.2) (fun x => (value x.1, value' x.2))
      (cs ++ cs') (a, b) := by
  obtain ⟨faces, hspells, htree⟩ := h
  obtain ⟨faces', hspells', htree'⟩ := h'
  refine ⟨faces ++ faces', fun rest hrest => ?_, fun us hus => ?_⟩
  · rw [List.append_assoc]
    exact (hspells _ (hcloses rest hrest)).append (hspells' rest hrest)
  · obtain ⟨us, us', rfl, hus, hus'⟩ := List.map_eq_append_iff.mp hus
    obtain ⟨x, rfl, rfl⟩ := htree us hus
    obtain ⟨y, rfl, rfl⟩ := htree' us' hus'
    exact ⟨(x, y), rfl, rfl⟩

/-- Blanks in front make no difference if there is a token to stand behind them. -/
theorem blank (h : ReadAs tokens value cs a) (hne : ∀ x, 1 ≤ (tokens x).length) {gap : List Char}
    (hgap : ∀ c ∈ gap, isBlank c = true) : ReadAs tokens value (gap ++ cs) a := by
  obtain ⟨faces, hspells, htree⟩ := h
  refine ⟨faces, fun rest hrest => ?_, htree⟩
  have hfaces : faces ≠ [] := by
    rintro rfl
    obtain ⟨x, hx, -⟩ := htree [] rfl
    exact absurd (hne x) (by simp [hx])
  rw [List.append_assoc]
  exact (hspells rest hrest).blank hfaces hgap

theorem of_nil (x : X) (h : tokens x = []) : ReadAs tokens value [] (value x) := by
  refine ⟨[], fun rest _ => .nil rest, fun us hus => ⟨x, ?_, rfl⟩⟩
  rw [h, List.map_eq_nil_iff.mp hus]

/-- A text that is a single lexeme. -/
theorem of_lexeme {kind : Kind} {text : String} (hlexeme : Lexeme kind text cs)
    (hleaf : ∀ t : Token, t.kind = kind → t.value = text → ∃ x, tokens x = [t] ∧ value x = a) :
    ReadAs tokens value cs a := by
  refine ⟨[(kind, text)], fun rest hrest => ?_, fun us hus => ?_⟩
  · rw [← List.nil_append cs]
    exact .cons (by simp) hlexeme (hrest kind) (.nil rest)
  · obtain ⟨t, rest, rfl, ht, hrest⟩ := List.map_eq_cons_iff.mp hus
    obtain rfl := List.map_eq_nil_iff.mp hrest
    exact hleaf t (congrArg Prod.fst ht) (congrArg Prod.snd ht)

/-- A symbol that cannot grow, whatever stands behind it. -/
theorem behind {c : Char} {kind : Kind} (hsingle : (c, kind) ∈ Kind.singles)
    (hgrows : ∀ d, kind.growsBy d = false) (h : ReadAs tokens value cs a) :
    ReadAs (fun x : Grammar.Leaf [kind] × X => x.1.token :: tokens x.2) (fun x => value x.2)
      (c :: cs) a := by
  obtain ⟨faces, hspells, htree⟩ := h
  refine ⟨(kind, "") :: faces, fun rest hrest => ?_, fun us hus => ?_⟩
  · have hhalts : Halts kind.growsBy (cs ++ rest) := fun d _ => hgrows d
    have hsymbol :=
      Spells.cons (List.forall_mem_nil _) (.single hsingle) hhalts (hspells rest hrest)
    exact hsymbol
  · obtain ⟨t, us, rfl, ht, hus⟩ := List.map_eq_cons_iff.mp hus
    obtain ⟨x, rfl, rfl⟩ := htree us hus
    exact ⟨(⟨t, List.mem_singleton.mpr (congrArg Prod.fst ht)⟩, x), rfl, rfl⟩

end ReadAs

/-! ## Leaves -/

/-- Numbers that are not negative are written in digits, and read from them again. -/
theorem decimalText_digits {n : Int64} (h : 0 ≤ n.toInt) :
    (decimalText n).toList ≠ [] ∧ (∀ c ∈ (decimalText n).toList, isDigit c = true) ∧
      Numeral.decimal (decimalText n) = .ok n := by
  obtain ⟨k, hk⟩ := Int.eq_ofNat_of_zero_le h
  have htext : decimalText n = .ofList (Nat.toDigits 10 k) := by
    rw [decimalText, hk]
    exact Nat.repr_eq_ofList_toDigits
  have hdigits : ∀ c ∈ Nat.toDigits 10 k, isDigit c = true := fun _ =>
    Numeral.isDigit_of_mem_toDigits
  rw [htext, String.toList_ofList]
  refine ⟨Nat.toDigits_ne_nil, hdigits, ?_⟩
  rw [Numeral.decimal_digits_eq_ok_iff Nat.toDigits_ne_nil hdigits, hk, Numeral.natural,
    Nat.ofDigitChars_ten_toDigits]

namespace Grammar

/-- A symbol or a word, as itself. -/
theorem readAs_leaf {kind : Kind} {text : String} {cs : List Char} (h : Lexeme kind text cs) :
    ReadAs (fun l : Leaf [kind] => [l.token]) (fun l => l.token.value) cs text :=
  ReadAs.of_lexeme h fun t ht hvalue => ⟨⟨t, List.mem_singleton.mpr ht⟩, rfl, hvalue⟩

/-- A name is read as itself. -/
theorem readAs_name (l : Leaf [.identifier]) (h : l.token.Spelled) :
    ReadAs (fun l : Leaf [.identifier] => [l.token]) (fun l => l.token.value)
      l.token.value.toList l.token.value := by
  obtain ⟨lexeme, hlexeme⟩ := h
  rw [kind_of_leaf l] at hlexeme
  obtain rfl := hlexeme.of_identifier
  exact readAs_leaf hlexeme

/-- A number is read from its digits. -/
theorem readAs_decimalText {n : Int64} (h : 0 ≤ n.toInt) :
    ReadAs (fun l : NumberLeaf => [l.token]) (fun l => l.value) (decimalText n).toList n := by
  obtain ⟨hne, hdigits, hdecimal⟩ := decimalText_digits h
  refine ReadAs.of_lexeme (.number hne hdigits) fun t ht hvalue => ?_
  rw [String.ofList_toList] at hvalue
  exact ⟨⟨t, ht, n, by rw [hvalue]; exact hdecimal⟩, rfl, rfl⟩

/-- A number in a tree is written so that it is read as itself. -/
theorem readAs_number (l : NumberLeaf) (h : l.token.Spelled) :
    ReadAs (fun l : NumberLeaf => [l.token]) (fun l => l.value) (decimalText l.value).toList
      l.value := by
  obtain ⟨lexeme, hlexeme⟩ := h
  exact readAs_decimalText ((decimal_of_number hlexeme l.kind_eq l.value).mp l.fits).nonneg

/-- Dice are read from their digits. -/
theorem readAs_diceText {d : Adventure.Dice} (hcount : 0 ≤ d.count.toInt)
    (hfaces : 0 ≤ d.faces.toInt) :
    ReadAs (fun l : DiceLeaf => [l.token]) (fun l => l.value) d.format.toList d := by
  obtain ⟨hne, hdigits, hdecimal⟩ := decimalText_digits hcount
  obtain ⟨hne', hdigits', hdecimal'⟩ := decimalText_digits hfaces
  have htext : d.format.toList =
      (decimalText d.count).toList ++ 'd' :: (decimalText d.faces).toList := by
    simp [Dice.format]
  rw [htext]
  refine ReadAs.of_lexeme (.dice hne hdigits (by decide) hne' hdigits') fun t ht hvalue => ?_
  have hsplit := isDiceText_ofList hdigits (decimalText d.faces).toList
  rw [← hvalue, String.ofList_toList, String.ofList_toList] at hsplit
  exact ⟨⟨t, ht, d, _, _, hsplit, hdecimal, hdecimal'⟩, rfl, rfl⟩

/-- Dice in a tree are written so that they are read as themselves. -/
theorem readAs_dice (l : DiceLeaf) (h : l.token.Spelled) :
    ReadAs (fun l : DiceLeaf => [l.token]) (fun l => l.value) l.value.format.toList l.value := by
  obtain ⟨lexeme, hlexeme⟩ := h
  obtain ⟨count, faces, -, hcount, hfaces⟩ := isWorth_of_diceLeaf l hlexeme
  exact readAs_diceText hcount.nonneg hfaces.nonneg

/-- The operators are written as the symbols that they are read from. -/
theorem lexeme_symbol {kind : Kind} (h : kind ∈ [Kind.plus, .minus, .asterisk, .slash]) :
    Lexeme kind "" (arithOpOf kind).symbol.toList := by
  simp only [List.mem_cons, List.not_mem_nil, or_false] at h
  rcases h with rfl | rfl | rfl | rfl
  all_goals exact .single (by decide)

/-- A sign is read as its operation. -/
theorem readAs_sign {kinds : List Kind} (l : Leaf kinds)
    (hkinds : kinds ⊆ [.plus, .minus, .asterisk, .slash]) :
    ReadAs (fun l : Leaf kinds => [l.token]) (fun l => arithOpOf l.token.kind)
      (arithOpOf l.token.kind).symbol.toList (arithOpOf l.token.kind) := by
  refine ReadAs.of_lexeme (lexeme_symbol (hkinds l.mem)) fun t ht _ => ?_
  exact ⟨⟨t, by rw [ht]; exact l.mem⟩, rfl, congrArg arithOpOf ht⟩

/-! ## Expressions -/

/-- The operands after the first one, as they are written. -/
def joined (more : List (ArithOp × Expr)) : String :=
  joinOperands (Expr.formatAll (more.map (·.2))) (more.map (·.1))

/-- Operands and their operators, with the texts escaped. -/
def escapeOperands (more : List (ArithOp × Expr)) : List (ArithOp × Expr) :=
  more.map fun x => (x.1, x.2.escapeTexts)

/-- An operand is written behind its sign. -/
theorem toList_joined_cons (op : ArithOp) (e : Expr) (more : List (ArithOp × Expr)) :
    (joined ((op, e) :: more)).toList =
      [' '] ++ op.symbol.toList ++ ([' '] ++ e.format.toList ++ (joined more).toList) := by
  simp [joined, joinOperands, Expr.formatAll]

/-- Operands close what stands before them. -/
theorem closes_joined (more : List (ArithOp × Expr)) (rest : List Char) (h : Closes rest) :
    Closes ((joined more).toList ++ rest) := by
  rcases more with - | ⟨⟨op, e⟩, more⟩
  · exact h
  · rw [toList_joined_cons]
    exact closes_cons (by decide) _

/-- A chain is written in parentheses. -/
theorem format_chained (first : Expr) {more : List (ArithOp × Expr)} (h : more ≠ []) :
    (chained first more).format.toList =
      '(' :: (first.format.toList ++ (joined more).toList ++ [')']) := by
  cases more with
  | nil => exact absurd rfl h
  | cons x more => simp [chained, Expr.format, Expr.formatAll, formatChain, joined]

/-- A chain has its texts escaped in each operand. -/
theorem escapeTexts_chained (first : Expr) (more : List (ArithOp × Expr)) :
    (chained first more).escapeTexts = chained first.escapeTexts (escapeOperands more) := by
  cases more with
  | nil => rfl
  | cons x more =>
    simp [chained, escapeOperands, Expr.escapeTexts, Expr.escapeAll, Expr.escapeAll_eq_map]

/-- Written, the expression is read as an operand. -/
def IsOperand (e : Expr) : Prop :=
  ReadAs Primary.tokens Primary.value e.format.toList e.escapeTexts

theorem mem_singles_roundOpen : ('(', Kind.roundOpen) ∈ Kind.singles := by
  decide

/-- A closing parenthesis. -/
theorem readAs_closing :
    ReadAs (fun l : Leaf [.roundClose] => [l.token]) (fun l => l.token.value) [')'] "" :=
  readAs_leaf (.single (by decide))

/-- Parentheses around an expression make an operand of it. -/
theorem readAs_nested {cs : List Char} {e : Expr}
    (h : ReadAs Expression.tokens Expression.value cs e) :
    ReadAs Primary.tokens Primary.value ('(' :: (cs ++ [')'])) e := by
  have hinner := h.pair readAs_closing fun rest _ => closes_cons (by decide) rest
  have hnested := hinner.behind mem_singles_roundOpen fun _ => rfl
  exact hnested.map (fun x => .nested x.1 x.2.1 x.2.2) (fun _ => rfl) Prod.fst fun _ => rfl

/-- A chain is an operand because it is written in parentheses, where `φ` makes a sum of the first
operand and the others. A single operand is one already. -/
theorem isOperand_chained {X : Type} {tokens : X → List Token}
    {value : X → List (ArithOp × Expr)} (φ : Primary → X → Expression)
    (hφ : ∀ x xs, (φ x xs).tokens = x.tokens ++ tokens xs)
    (hφ' : ∀ x xs, (φ x xs).value = chained x.value (value xs)) {first : Expr}
    {more : List (ArithOp × Expr)} (hfirst : IsOperand first)
    (hmore : ReadAs tokens value (joined more).toList (escapeOperands more)) :
    IsOperand (chained first more) := by
  by_cases hne : more = []
  · subst hne
    exact hfirst
  · -- `φ` makes the chain that is inside, and the parentheses make an operand of it
    rw [IsOperand, format_chained first hne, escapeTexts_chained]
    have hall := hfirst.pair hmore (closes_joined more)
    exact readAs_nested (hall.map (fun x => φ x.1 x.2) (fun x => hφ x.1 x.2)
      (fun a => chained a.1 a.2) fun x => hφ' x.1 x.2)

/-- The operands after the first one, where a tree for one more of them is made by `cons` and the
operand stands in it by way of `φ`. -/
theorem readAs_cons {X T : Type} {kinds : List Kind} {tokens : X → List Token}
    {value : X → List (ArithOp × Expr)} {tokens' : T → List Token} {value' : T → Expr}
    (cons : Leaf kinds → T → X → X)
    (htokens : ∀ l x xs, tokens (cons l x xs) = l.token :: (tokens' x ++ tokens xs))
    (hvalue : ∀ l x xs, value (cons l x xs) = (arithOpOf l.token.kind, value' x) :: value xs)
    (φ : Primary → T) (hφ : ∀ x, tokens' (φ x) = x.tokens) (hφ' : ∀ x, value' (φ x) = x.value)
    (sign : Leaf kinds) (hkinds : kinds ⊆ [.plus, .minus, .asterisk, .slash])
    {e : Expr} {more : List (ArithOp × Expr)} (he : IsOperand e)
    (hmore : ReadAs tokens value (joined more).toList (escapeOperands more)) :
    ReadAs tokens value (joined ((arithOpOf sign.token.kind, e) :: more)).toList
      (escapeOperands ((arithOpOf sign.token.kind, e) :: more)) := by
  have hsign := (readAs_sign sign hkinds).blank (fun _ => Nat.le_refl 1) isBlank_of_mem_space
  have hoperand := ReadAs.blank he length_primary_pos isBlank_of_mem_space
  have hoperands := hoperand.pair hmore (closes_joined more)
  rw [toList_joined_cons]
  refine (hsign.pair hoperands fun rest _ => closes_cons (by decide) _).map
    (fun x => cons x.1 (φ x.2.1) x.2.2) (fun x => ?_) (fun a => (a.1, a.2.1) :: a.2.2) fun x => ?_
  · rw [htokens, hφ]
    rfl
  · rw [hvalue, hφ']

/-! ## From a tree back to a tree -/

theorem length_moreArguments_pos (x : MoreArguments) : 1 ≤ x.tokens.length := by
  cases x with
  | last argument closing => simp [MoreArguments.tokens]
  | cons argument comma more =>
    rw [MoreArguments.tokens, List.length_append, List.length_cons]
    omega

theorem moreArguments_value_ne_nil (x : MoreArguments) : x.value ≠ [] := by
  cases x <;> simp [MoreArguments.value]

/-- Arguments as they are written, up to and with the closing parenthesis. -/
def listed (es : List Expr) : List Char :=
  (", ".intercalate (Expr.formatAll es)).toList ++ [')']

/-- A call is written as its name and the list of its arguments. -/
theorem format_call (f : String) (es : List Expr) :
    (Expr.call f es).format.toList = f.toList ++ '(' :: listed es := by
  simp [Expr.format, listed]

/-- Arguments are written with a comma between them. -/
theorem listed_cons (e : Expr) {es : List Expr} (h : es ≠ []) :
    listed (e :: es) = e.format.toList ++ ([','] ++ ([' '] ++ listed es)) := by
  have hne : Expr.formatAll es ≠ [] := by simpa [Expr.formatAll_eq_map] using h
  simp [listed, Expr.formatAll, String.intercalate_cons_of_ne_nil hne]

/-- Written, the expression is read as an assignable. -/
def IsAssignable (e : Expr) : Prop :=
  ReadAs Assignable.tokens Assignable.value e.format.toList e.escapeTexts

/-- An operand can be assigned. -/
theorem IsOperand.isAssignable {e : Expr} (h : IsOperand e) : IsAssignable e :=
  h.map (fun x => .expression (.mk (.mk x .nil) .nil))
    (fun x => by simp [Assignable.tokens, Expression.tokens, Term.tokens, Factors.tokens,
      Terms.tokens])
    id fun _ => rfl

/-- A call is an operand if its arguments are read back. -/
theorem isOperand_call (name : Leaf [.identifier]) (hname : name.token.Spelled) {es : List Expr}
    (h : ReadAs Arguments.tokens Arguments.value (listed es) (Expr.escapeAll es)) :
    IsOperand (.call name.token.value es) := by
  rw [IsOperand, format_call, Expr.escapeTexts]
  have hopened := h.behind mem_singles_roundOpen fun _ => rfl
  have hcall := (readAs_name name hname).pair hopened fun rest _ => closes_cons (by decide) _
  exact hcall.map (fun x => Primary.call x.1 x.2.1 x.2.2) (fun _ => rfl)
    (fun a => Expr.call a.1 a.2) fun _ => rfl

/-- A roll of what a token can stand for. -/
theorem isOperand_roll {L : Type} {token : L → Token} {value : L → Expr} {e : Expr}
    (h : ReadAs (fun l => [token l]) value e.format.toList e.escapeTexts)
    (φ : Leaf [.caret] → L → Primary) (hφ : ∀ caret l, (φ caret l).tokens = [caret.token, token l])
    (hφ' : ∀ caret l, (φ caret l).value = .roll (value l)) : IsOperand (.roll e) := by
  have hsingle : ('^', Kind.caret) ∈ Kind.singles := by decide
  have hformat : (Expr.roll e).format.toList = '^' :: e.format.toList := by simp [Expr.format]
  rw [IsOperand, hformat, Expr.escapeTexts]
  exact (h.behind hsingle fun _ => rfl).map (fun x => φ x.1 x.2) (fun x => hφ x.1 x.2) Expr.roll
    fun x => hφ' x.1 x.2

/-- A text can be assigned. -/
theorem isAssignable_text (l : Leaf [.stringLiteral]) (h : l.token.Spelled) :
    IsAssignable (.text l.token.value) := by
  obtain ⟨lexeme, hlexeme⟩ := h
  rw [kind_of_leaf l] at hlexeme
  have hbody := doubleQuote_not_mem_escapedText hlexeme.of_text
  rw [IsAssignable, Expr.format, quoted, String.toList_ofList, Expr.escapeTexts]
  exact (readAs_leaf (.text hbody)).map Assignable.text (fun _ => rfl) Expr.text fun _ => rfl

mutual

theorem isOperand_expression : ∀ x : Expression, (∀ t ∈ x.tokens, t.Spelled) → IsOperand x.value
  | .mk first more => by
    intro h
    rw [Expression.tokens] at h
    obtain ⟨hfirst, hmore⟩ := List.forall_mem_append.mp h
    exact isOperand_chained (fun x xs => .mk (.mk x .nil) xs)
      (fun x xs => by simp [Expression.tokens, Term.tokens, Factors.tokens]) (fun _ _ => rfl)
      (isOperand_term first hfirst) (readAs_terms more hmore)

theorem readAs_terms : ∀ x : Terms, (∀ t ∈ x.tokens, t.Spelled) →
    ReadAs Terms.tokens Terms.value (joined x.value).toList (escapeOperands x.value)
  | .nil => fun _ => ReadAs.of_nil Terms.nil rfl
  | .cons sign first more => by
    intro h
    rw [Terms.tokens] at h
    obtain ⟨hfirst, hmore⟩ := List.forall_mem_append.mp (List.forall_mem_cons.mp h).2
    rw [Terms.value]
    exact readAs_cons .cons (fun _ _ _ => rfl) (fun _ _ _ => rfl) (fun x => .mk x .nil)
      (fun x => by simp [Term.tokens, Factors.tokens]) (fun _ => rfl) sign (by decide)
      (isOperand_term first hfirst) (readAs_terms more hmore)

theorem isOperand_term : ∀ x : Term, (∀ t ∈ x.tokens, t.Spelled) → IsOperand x.value
  | .mk first more => by
    intro h
    rw [Term.tokens] at h
    obtain ⟨hfirst, hmore⟩ := List.forall_mem_append.mp h
    exact isOperand_chained (fun x xs => .mk (.mk x xs) .nil)
      (fun x xs => by simp [Expression.tokens, Term.tokens, Terms.tokens]) (fun _ _ => rfl)
      (isOperand_primary first hfirst) (readAs_factors more hmore)

theorem readAs_factors : ∀ x : Factors, (∀ t ∈ x.tokens, t.Spelled) →
    ReadAs Factors.tokens Factors.value (joined x.value).toList (escapeOperands x.value)
  | .nil => fun _ => ReadAs.of_nil Factors.nil rfl
  | .cons sign first more => by
    intro h
    rw [Factors.tokens] at h
    obtain ⟨hfirst, hmore⟩ := List.forall_mem_append.mp (List.forall_mem_cons.mp h).2
    rw [Factors.value]
    exact readAs_cons .cons (fun _ _ _ => rfl) (fun _ _ _ => rfl) id (fun _ => rfl) (fun _ => rfl)
      sign (by decide) (isOperand_primary first hfirst) (readAs_factors more hmore)

theorem isOperand_primary : ∀ x : Primary, (∀ t ∈ x.tokens, t.Spelled) → IsOperand x.value
  | .nested opening inner closing => by
    intro h
    rw [Primary.tokens] at h
    -- parentheses leave no trace in the value, and so none in what is written for it
    exact isOperand_expression inner
      (List.forall_mem_append.mp (List.forall_mem_cons.mp h).2).1
  | .var name => by
    intro h
    have hname := readAs_name name (h _ (by simp [Primary.tokens]))
    exact hname.map Primary.var (fun _ => rfl) Expr.var fun _ => rfl
  | .call name opening arguments => by
    intro h
    simp only [Primary.tokens, List.forall_mem_cons] at h
    exact isOperand_call name h.1 (readAs_arguments arguments h.2.2)
  | .rollDice caret d => by
    intro h
    have hdice := readAs_dice d (h _ (by simp [Primary.tokens]))
    exact isOperand_roll (hdice.map id (fun _ => rfl) Expr.dice fun _ => rfl) .rollDice
      (fun _ _ => rfl) fun _ _ => rfl
  | .rollVar caret name => by
    intro h
    have hname := readAs_name name (h _ (by simp [Primary.tokens]))
    exact isOperand_roll (hname.map id (fun _ => rfl) Expr.var fun _ => rfl) .rollVar
      (fun _ _ => rfl) fun _ _ => rfl
  | .number n => by
    intro h
    have hnumber := readAs_number n (h _ (by simp [Primary.tokens]))
    exact hnumber.map Primary.number (fun _ => rfl) Expr.number fun _ => rfl
  | .dice d => by
    intro h
    have hdice := readAs_dice d (h _ (by simp [Primary.tokens]))
    exact hdice.map Primary.dice (fun _ => rfl) Expr.dice fun _ => rfl

theorem readAs_arguments : ∀ x : Arguments, (∀ t ∈ x.tokens, t.Spelled) →
    ReadAs Arguments.tokens Arguments.value (listed x.value) (Expr.escapeAll x.value)
  | .none _ => fun _ => readAs_closing.map .none (fun _ => rfl) (fun _ => []) fun _ => rfl
  | .some arguments => fun h =>
    (readAs_moreArguments arguments h).map .some (fun _ => rfl) id fun _ => rfl

theorem readAs_moreArguments : ∀ x : MoreArguments, (∀ t ∈ x.tokens, t.Spelled) →
    ReadAs MoreArguments.tokens MoreArguments.value (listed x.value) (Expr.escapeAll x.value)
  | .last argument closing => by
    intro h
    rw [MoreArguments.tokens] at h
    have hargument := isAssignable_assignable argument (List.forall_mem_append.mp h).1
    have hlast := hargument.pair readAs_closing fun rest _ => closes_cons (by decide) rest
    exact hlast.map (fun x => .last x.1 x.2) (fun _ => rfl) (fun a => [a.1]) fun _ => rfl
  | .cons argument comma more => by
    intro h
    simp only [MoreArguments.tokens, List.forall_mem_append, List.forall_mem_cons] at h
    have hargument := isAssignable_assignable argument h.1
    have hmore := (readAs_moreArguments more h.2.2).blank length_moreArguments_pos
      isBlank_of_mem_space
    have hcomma := readAs_leaf (.single (show (',', Kind.comma) ∈ Kind.singles by decide))
    have hafter := hcomma.pair hmore fun rest _ => closes_cons (by decide) _
    have hall := hargument.pair hafter fun rest _ => closes_cons (by decide) _
    rw [MoreArguments.value, listed_cons _ (moreArguments_value_ne_nil more)]
    exact hall.map (fun x => .cons x.1 x.2.1 x.2.2) (fun _ => rfl)
      (fun a => a.1 :: a.2.2) fun _ => rfl

/-- **What is written for an assignable is read as an assignable**, with its texts escaped. -/
theorem isAssignable_assignable : ∀ x : Assignable, (∀ t ∈ x.tokens, t.Spelled) →
    IsAssignable x.value
  | .text text => fun h => isAssignable_text text (h _ (List.mem_singleton.mpr rfl))
  | .expression expression => fun h => (isOperand_expression expression h).isAssignable

end

/-- What is read as an assignable can be logged. -/
theorem parse_log_of_readAs {text : String} {e : Expr}
    (h : ReadAs Assignable.tokens Assignable.value text.toList e) :
    (Source.ofString ("? " ++ text ++ ";")).parse = .ok ⟨[], [], [.log 1 e]⟩ := by
  have hsemicolon := readAs_leaf (.single (show (';', Kind.semicolon) ∈ Kind.singles by decide))
  have hvalue := h.blank length_assignable_pos isBlank_of_mem_space
  obtain ⟨faces, hspells, htree⟩ :=
    hvalue.pair hsemicolon fun rest _ => closes_cons (by decide) rest
  -- the question mark is read first, and the rest of the text behind it
  obtain ⟨us, before, hlexed, hfaces⟩ := hspells [] (fun _ => halts_nil) ['?']
  have hmark : Lexed [] ('?' :: ([' '] ++ text.toList ++ [';'] ++ []))
      (⟨.questionMark, "", placeAfter ['?']⟩ :: us) before [] :=
    Lexed.cons (List.forall_mem_nil _) (.single (by decide)) (fun _ _ => rfl) hlexed
  have htext : ("? " ++ text ++ ";").toList = '?' :: ([' '] ++ text.toList ++ [';'] ++ []) := by
    simp
  have hsplits : Splits ("? " ++ text ++ ";").toList
      ⟨⟨.questionMark, "", placeAfter ['?']⟩ :: us, none, placeAfter (before ++ [])⟩ := by
    rw [htext]
    exact ⟨before, [], hmark, .done (List.forall_mem_nil _)⟩
  obtain ⟨⟨x, semicolon⟩, rfl, hx⟩ := htree us hfaces
  rw [Source.parse_eq_ok_iff, Source.ofString, hsplits.tokens_eq]
  refine ⟨rfl, ?_⟩
  have hprogram := program_tokens
    [.instruction (.log ⟨⟨.questionMark, "", placeAfter ['?']⟩, by decide⟩ x semicolon)]
  have hline : (placeAfter ['?']).line = 1 := by decide
  have hexpr : x.value = e := congrArg Prod.fst hx
  simpa [hline, hexpr, Program.tokens, Program.value, Part.tokens, Part.addTo, Instruction.tokens,
    Instruction.value, Leaf.line] using hprogram

/-- What can be assigned can be shown, and is read back with its texts escaped. -/
theorem IsAssignable.parse_log {e : Expr} (h : IsAssignable e) :
    (Source.ofString ("? " ++ e.format ++ ";")).parse = .ok ⟨[], [], [.log 1 e.escapeTexts]⟩ :=
  parse_log_of_readAs h

end Grammar

/-- **Written and read again, an assignable of a program is itself with its texts escaped.** A log
of what is written for it is a program of one instruction, on the first line. So it is the
assignable itself that is logged exactly if no text in it has a character with an escape. -/
theorem parse_log_format {text : String} {p : Program} (hp : (Source.ofString text).parse = .ok p)
    {e : Expr} (he : e ∈ p.assignables) :
    (Source.ofString ("? " ++ e.format ++ ";")).parse = .ok ⟨[], [], [.log 1 e.escapeTexts]⟩ ∧
    ((Source.ofString ("? " ++ e.format ++ ";")).parse = .ok ⟨[], [], [.log 1 e]⟩ ↔
      ∀ s ∈ e.texts, ∀ c ∈ s.toList, IsVerbatim c) := by
  obtain ⟨-, hprogram⟩ := (Source.parse_eq_ok_iff _ p).mp hp
  obtain ⟨d, hd, rfl⟩ := (program_eq_ok_iff _ p).mp hprogram
  obtain ⟨x, rfl, hx⟩ := Grammar.holds_program d e he
  have hspelled : ∀ t ∈ x.tokens, t.Spelled := by
    intro t ht
    have hmem := hx t ht
    rw [hd] at hmem
    exact spelled_of_mem_tokens hmem
  have hparse := (Grammar.isAssignable_assignable x hspelled).parse_log
  refine ⟨hparse, ?_⟩
  rw [hparse, ← Expr.escapeTexts_eq_iff]
  simp

/-- A backslash is read again as two of them; the parentheses that are written leave no trace. -/
theorem parse_log_format_backslash :
    (Source.ofString "x = f(\"\\\", y + ^z);").parse = .ok ⟨[], [], [.assign 1 "x"
      (.call "f" [.text "\\", .chain [.var "y", .roll (.var "z")] [.add]])]⟩ ∧
    (Source.ofString "? f(\"\\\\\", (y + ^z));").parse = .ok ⟨[], [], [.log 1
      (.call "f" [.text "\\\\", .chain [.var "y", .roll (.var "z")] [.add]])]⟩ ∧
    (Source.ofString "? f(\"\\\\\", (y + ^z));").parse ≠ .ok ⟨[], [], [.log 1
      (.call "f" [.text "\\", .chain [.var "y", .roll (.var "z")] [.add]])]⟩ := by
  have hitems : (Source.ofString "x = f(\"\\\", y + ^z);").tokens.items =
      [⟨.identifier, "x", ⟨1, 1⟩⟩, ⟨.assign, "", ⟨1, 3⟩⟩, ⟨.identifier, "f", ⟨1, 5⟩⟩,
        ⟨.roundOpen, "", ⟨1, 6⟩⟩, ⟨.stringLiteral, "\\", ⟨1, 7⟩⟩, ⟨.comma, "", ⟨1, 10⟩⟩,
        ⟨.identifier, "y", ⟨1, 12⟩⟩, ⟨.plus, "", ⟨1, 14⟩⟩, ⟨.caret, "", ⟨1, 16⟩⟩,
        ⟨.identifier, "z", ⟨1, 17⟩⟩, ⟨.roundClose, "", ⟨1, 18⟩⟩, ⟨.semicolon, "", ⟨1, 19⟩⟩] := by
    decide +kernel
  have hfailure : (Source.ofString "x = f(\"\\\", y + ^z);").tokens.failure = none := by
    decide +kernel
  -- the derivation of the assignment, whose second argument is a sum with a roll
  have hprogram := program_tokens [.instruction (.assign
    ⟨⟨.identifier, "x", ⟨1, 1⟩⟩, by decide⟩ ⟨⟨.assign, "", ⟨1, 3⟩⟩, by decide⟩
    (.expression (.mk (.mk (.call ⟨⟨.identifier, "f", ⟨1, 5⟩⟩, by decide⟩
      ⟨⟨.roundOpen, "", ⟨1, 6⟩⟩, by decide⟩
      (.some (.cons (.text ⟨⟨.stringLiteral, "\\", ⟨1, 7⟩⟩, by decide⟩)
        ⟨⟨.comma, "", ⟨1, 10⟩⟩, by decide⟩
        (.last (.expression (.mk (.mk (.var ⟨⟨.identifier, "y", ⟨1, 12⟩⟩, by decide⟩) .nil)
          (.cons ⟨⟨.plus, "", ⟨1, 14⟩⟩, by decide⟩
            (.mk (.rollVar ⟨⟨.caret, "", ⟨1, 16⟩⟩, by decide⟩
              ⟨⟨.identifier, "z", ⟨1, 17⟩⟩, by decide⟩) .nil) .nil)))
          ⟨⟨.roundClose, "", ⟨1, 18⟩⟩, by decide⟩)))) .nil) .nil))
    ⟨⟨.semicolon, "", ⟨1, 19⟩⟩, by decide⟩)]
  have hparse : (Source.ofString "x = f(\"\\\", y + ^z);").parse = .ok ⟨[], [], [.assign 1 "x"
      (.call "f" [.text "\\", .chain [.var "y", .roll (.var "z")] [.add]])]⟩ := by
    rw [Source.parse_eq_ok_iff, hitems]
    exact ⟨hfailure, hprogram⟩
  have hmem : Expr.call "f" [.text "\\", .chain [.var "y", .roll (.var "z")] [.add]] ∈
      Program.assignables ⟨[], [], [.assign 1 "x"
        (.call "f" [.text "\\", .chain [.var "y", .roll (.var "z")] [.add]])]⟩ :=
    List.mem_append_right _ (List.mem_append_left _ List.mem_cons_self)
  obtain ⟨hread, hself⟩ := parse_log_format hparse hmem
  have hformat : "? " ++ (Expr.call "f" [.text "\\", .chain [.var "y", .roll (.var "z")]
      [.add]]).format ++ ";" = "? f(\"\\\\\", (y + ^z));" := by decide +kernel
  have hescape : (Expr.call "f" [.text "\\", .chain [.var "y", .roll (.var "z")]
      [.add]]).escapeTexts =
        .call "f" [.text "\\\\", .chain [.var "y", .roll (.var "z")] [.add]] := by
    have htext : String.ofList (escapedText "\\") = "\\\\" := by decide +kernel
    simp [Expr.escapeTexts, Expr.escapeAll, htext]
  rw [hformat] at hread hself
  rw [hescape] at hread
  refine ⟨hparse, hread, fun h => ?_⟩
  -- a backslash is no text that is written as it is
  have hverbatim : escaped '\\' = ['\\'] := hself.mp h "\\" (by decide) '\\' (by decide)
  exact absurd hverbatim (by decide)

end Adventure
