import Adventure.Parsing.Program
import Adventure.Proofs.Exactness
import Adventure.Proofs.Grammar
import Adventure.Proofs.Numeral

/-!
# Reading leaves

The readers of the language keep a proof that they get on. `reads` and `mayRead` drop it, and
`forget_bind` and `forget_accept` turn a sequence of steps into the forms that `Exact` is about.
A literal is checked where it is taken (`literalOf`), so taking a leaf of any sort is one
`Reader.take`: `exact_accept` for tokens that need no check, `exact_number` for numbers.

Every kind but the end of the source is written by some text, so whatever can be left of a
tree can be written too (`Spare`).
-/

namespace Adventure

open Text

/-- The text of some token of each kind. -/
def Kind.sample : Kind → String
  | .identifier => "x"
  | .numberLiteral => "1"
  | .diceLiteral => "1d1"
  | .unknown => "$"
  | _ => ""

theorem isDigit_of_mem_one : ∀ c ∈ ['1'], isDigit c = true :=
  List.forall_mem_singleton.mpr (by decide)

/-- **Every kind but the end is written by some text.** -/
theorem exists_lexeme_sample {kind : Kind} (h : kind ≠ .endOfFile) :
    ∃ cs, Lexeme kind kind.sample cs := by
  cases kind with
  | endOfFile => exact absurd rfl h
  | identifier =>
    have hfree : ∀ kind : Kind, kind.spelling? ≠ some (.ofList ['x']) := by
      intro kind
      cases kind <;> decide
    exact ⟨['x'], .identifier (by decide) (List.forall_mem_singleton.mpr (by decide)) hfree⟩
  | numberLiteral => exact ⟨['1'], .number (by decide) isDigit_of_mem_one⟩
  | diceLiteral =>
    have hdice : Lexeme .diceLiteral (.ofList (['1'] ++ 'd' :: ['1'])) (['1'] ++ 'd' :: ['1']) :=
      .dice (by decide) isDigit_of_mem_one (by decide) (by decide) isDigit_of_mem_one
    exact ⟨_, hdice⟩
  | stringLiteral =>
    have htext : Lexeme .stringLiteral (.ofList []) ('"' :: [] ++ ['"']) := .text (by decide)
    exact ⟨_, htext⟩
  | unknown =>
    have hstray : IsStray '$' :=
      ⟨by decide, by decide, by decide, by decide, fun kind => by cases kind <;> decide⟩
    exact ⟨['$'], .stray hstray⟩
  | item | character | health | attack | defence | level | reqexp | exp | equipped | inventory
  | reward | desc | value | whileWord | ifWord | elseWord | function | returnWord
  | increasesBy | multipliesBy | lessOrEqual | moreOrEqual | equals | attackMove
  | curlyOpen | curlyClose | roundOpen | roundClose | plus | minus | asterisk | slash | assign
  | semicolon | dot | colon | comma | and | caret | lessThan | moreThan | questionMark =>
    -- all others have a spelling
    exact ⟨_, .fixed rfl⟩

namespace Parsing

open Grammar

variable {α β X Y ρ σ : Type}

theorem Spare.pair {tokens : X → List Token} {tokens' : Y → List Token} (h : Spare tokens)
    (h' : Spare tokens') : Spare fun x : X × Y => tokens x.1 ++ tokens' x.2 := by
  obtain ⟨faces, hfaces⟩ := h
  obtain ⟨faces', hfaces'⟩ := h'
  exact ⟨faces ++ faces', hfaces.pair hfaces'⟩

theorem Spare.map {tokens : X → List Token} {tokens' : Y → List Token} (h : Spare tokens)
    (φ : X → Y) (hφ : ∀ x, tokens' (φ x) = tokens x) : Spare tokens' := by
  obtain ⟨faces, hfaces⟩ := h
  exact ⟨faces, hfaces.map φ hφ⟩

theorem Spare.of_nil {tokens : X → List Token} (x : X) (h : tokens x = []) : Spare tokens :=
  ⟨[], by simp, fun us hus => ⟨x, by rw [h, List.map_eq_nil_iff.mp hus]; rfl⟩⟩

/-! ## Readers that get on -/

/-- A reader's outcome without the proof that it got on. -/
def forget (rest : ρ → List Token) :
    Except Refusal (α × ρ) → Except Refusal (α × List Token)
  | .ok (a, r) => .ok (a, rest r)
  | .error e => .error e

/-- A reader that takes at least one token. -/
def reads (f : (ts : List Token) → Reads α ts) : Reader α := fun ts =>
  forget Shorter.rest (f ts)

/-- A reader that may take no token. -/
def mayRead (f : (ts : List Token) → MayRead α ts) : Reader α := fun ts =>
  forget NoLonger.rest (f ts)

theorem forget_bind {rest : ρ → List Token} {rest' : σ → List Token}
    {x : Except Refusal (α × ρ)} {g : α × ρ → Except Refusal (β × σ)} {f : Reader α}
    {k : α → Reader β} {ts : List Token} (hx : forget rest x = f ts)
    (hg : ∀ a r, forget rest' (g (a, r)) = k a (rest r)) :
    forget rest' (x >>= g) = f.bind k ts := by
  rcases x with e | ⟨a, r⟩
  · exact (Reader.bind_of_error hx.symm).symm
  · rw [Reader.bind_of_ok hx.symm]
    exact hg a r

/-- A last step that only says how much is left. -/
theorem forget_bind_pure {rest : ρ → List Token} {rest' : σ → List Token}
    {x : Except Refusal (α × ρ)} {g : α × ρ → Except Refusal (α × σ)}
    (hg : ∀ a r, forget rest' (g (a, r)) = .ok (a, rest r)) :
    forget rest' (x >>= g) = forget rest x := by
  rcases x with e | ⟨a, r⟩
  · rfl
  · exact hg a r

/-- The line that a token stands on. -/
def lineOf (t : Token) : Int :=
  t.position.line

/-! ## Literals -/

/-- The halves of dice are what stands on the two sides of the mark. -/
theorem diceHalves_eq {text count faces : String} (h : IsDiceText text count faces) :
    diceHalves text = (count, faces) := by
  obtain ⟨rfl, hcount⟩ := h
  have hall : ∀ c ∈ count.toList, (c != 'd') = true := by
    intro c hc
    exact bne_iff_ne.mpr fun hd => hcount (hd ▸ hc)
  have hhalts : Halts (· != 'd') ('d' :: faces.toList) := by simp [Halts]
  have htext : (count ++ "d" ++ faces).toList = count.toList ++ 'd' :: faces.toList := by simp
  simp only [diceHalves, htext, takeWhile_append_of_halts hall hhalts,
    dropWhile_append_of_halts hall hhalts, List.drop_one, List.tail_cons, String.ofList_toList]

/-- Digits in front of the mark have no mark among them. -/
theorem isDiceText_ofList {count : List Char} (hcount : ∀ c ∈ count, isDigit c = true)
    (faces : List Char) :
    IsDiceText (.ofList (count ++ 'd' :: faces)) (.ofList count) (.ofList faces) := by
  refine ⟨?_, fun hd => ?_⟩
  · rw [← String.toList_inj]
    simp
  · rw [String.toList_ofList] at hd
    exact absurd (hcount 'd' hd) (by decide)

/-- A text with a mark in it divides at the first one. -/
theorem isDiceText_diceHalves {text : String} (h : 'd' ∈ text.toList) :
    IsDiceText text (diceHalves text).1 (diceHalves text).2 := by
  have hsplit := List.takeWhile_append_dropWhile (p := (· != 'd')) (l := text.toList)
  refine ⟨?_, fun hd => ?_⟩
  · rcases hrest : text.toList.dropWhile (· != 'd') with - | ⟨c, rest⟩
    · have hall := List.dropWhile_eq_nil_iff.mp hrest 'd' h
      simp at hall
    · have hhead : text.toList.dropWhile (· != 'd') ≠ [] := by simp [hrest]
      have hc := List.head_dropWhile_not (· != 'd') hhead
      obtain rfl : c = 'd' := by simpa [hrest] using hc
      rw [← String.toList_inj]
      simpa [diceHalves, hrest] using hsplit.symm
  · rw [diceHalves, String.toList_ofList] at hd
    simpa using List.mem_takeWhile_imp hd

/-- Dice are written exactly where both halves of the text are numbers. -/
theorem exists_isDiceText_iff {text : String} {d : Dice} :
    (∃ count faces, IsDiceText text count faces ∧
      Numeral.decimal count = .ok d.count ∧ Numeral.decimal faces = .ok d.faces) ↔
    Numeral.decimal (diceHalves text).1 = .ok d.count ∧
      Numeral.decimal (diceHalves text).2 = .ok d.faces := by
  constructor
  · rintro ⟨count, faces, htext, hcount, hfaces⟩
    rw [diceHalves_eq htext]
    exact ⟨hcount, hfaces⟩
  · intro hhalves
    refine ⟨_, _, isDiceText_diceHalves ?_, hhalves⟩
    -- without a mark nothing is left for the faces, and that is no number
    by_contra hmark
    have hnothing : (diceHalves text).2 = "" := by
      have hall : text.toList.dropWhile (· != 'd') = [] :=
        List.dropWhile_eq_nil_iff.mpr fun c hc => bne_iff_ne.mpr fun hd => hmark (hd ▸ hc)
      rw [diceHalves, hall]
      rfl
    rw [hnothing] at hhalves
    cases hhalves.2

/-- The number of dice that a leaf writes. -/
theorem count_fits (l : DiceLeaf) :
    Numeral.decimal (diceHalves l.token.value).1 = .ok l.value.count :=
  (exists_isDiceText_iff.mp l.fits).1

/-- The faces of the dice that a leaf writes. -/
theorem faces_fits (l : DiceLeaf) :
    Numeral.decimal (diceHalves l.token.value).2 = .ok l.value.faces :=
  (exists_isDiceText_iff.mp l.fits).2

/-- What a token says beyond its text: a number, dice, or nothing. -/
inductive Literal where
  | plain
  | number (value : Int64)
  | dice (value : Dice)

/-- The literal that a token is; a number may not fit. -/
def literalOf (t : Token) : Except Rejection Literal :=
  match t.kind with
  | .numberLiteral =>
    match Numeral.decimal t.value with
    | .ok n => .ok (.number n)
    | .error fault => .error (.badNumber t fault)
  | .diceLiteral =>
    match Numeral.decimal (diceHalves t.value).1 with
    | .error fault => .error (.badDice t (diceHalves t.value).1 fault)
    | .ok count =>
      match Numeral.decimal (diceHalves t.value).2 with
      | .error fault => .error (.badDice t (diceHalves t.value).2 fault)
      | .ok faces => .ok (.dice ⟨count, faces⟩)
  | _ => .ok .plain

/-- A bad literal is to blame itself. -/
theorem blames_of_literalOf (kinds : List Kind) (t : Token) (reason : Rejection)
    (h : literalOf t = .error reason) : reason.Blames kinds t := by
  unfold literalOf at h
  split at h
  · split at h
    · cases h
    · obtain rfl := Except.error.inj h
      exact .badNumber _
  · split at h
    · obtain rfl := Except.error.inj h
      exact .badDice _ _
    · split at h
      · obtain rfl := Except.error.inj h
        exact .badDice _ _
      · cases h
  · cases h

theorem literalOf_of_ne {t : Token} (h : t.kind ≠ .numberLiteral ∧ t.kind ≠ .diceLiteral) :
    literalOf t = .ok .plain := by
  unfold literalOf
  split
  · next hk => exact absurd hk h.1
  · next hk => exact absurd hk h.2
  · rfl

theorem kind_of_literalOf_error {t : Token} {reason : Rejection}
    (h : literalOf t = .error reason) : t.kind = .numberLiteral ∨ t.kind = .diceLiteral := by
  by_contra hne
  rw [literalOf_of_ne (not_or.mp hne)] at h
  cases h

theorem literalOf_number (l : NumberLeaf) : literalOf l.token = .ok (.number l.value) := by
  simp only [literalOf, l.kind_eq, l.fits]

theorem literalOf_dice (l : DiceLeaf) : literalOf l.token = .ok (.dice l.value) := by
  simp only [literalOf, l.kind_eq, count_fits l, faces_fits l]

theorem exists_numberLeaf {t : Token} {lit : Literal} (hk : t.kind = .numberLiteral)
    (h : literalOf t = .ok lit) : ∃ l : NumberLeaf, l.token = t ∧ lit = .number l.value := by
  simp only [literalOf, hk] at h
  split at h
  · next n hn =>
    obtain rfl := Except.ok.inj h
    exact ⟨⟨t, hk, n, hn⟩, rfl, rfl⟩
  · cases h

theorem exists_diceLeaf {t : Token} {lit : Literal} (hk : t.kind = .diceLiteral)
    (h : literalOf t = .ok lit) : ∃ l : DiceLeaf, l.token = t ∧ lit = .dice l.value := by
  simp only [literalOf, hk] at h
  split at h
  · cases h
  · next count hcount =>
    split at h
    · cases h
    · next faces hfaces =>
      obtain rfl := Except.ok.inj h
      exact ⟨⟨t, hk, ⟨count, faces⟩, exists_isDiceText_iff.mpr ⟨hcount, hfaces⟩⟩, rfl, rfl⟩

theorem numberOf_token (l : NumberLeaf) (rest : List Token) :
    numberOf l.token rest = .ok l.value := by
  simp only [numberOf, l.fits]

theorem diceOf_token (l : DiceLeaf) (rest : List Token) : diceOf l.token rest = .ok l.value := by
  simp only [diceOf, count_fits l, faces_fits l]

theorem numberOf_of_error {t : Token} {reason : Rejection} (hk : t.kind = .numberLiteral)
    (h : literalOf t = .error reason) (rest : List Token) :
    numberOf t rest = .error ⟨reason, rest⟩ := by
  simp only [literalOf, hk] at h
  split at h
  · cases h
  · next fault hfault =>
    obtain rfl := Except.error.inj h
    simp only [numberOf, hfault]

theorem diceOf_of_error {t : Token} {reason : Rejection} (hk : t.kind = .diceLiteral)
    (h : literalOf t = .error reason) (rest : List Token) :
    diceOf t rest = .error ⟨reason, rest⟩ := by
  simp only [literalOf, hk] at h
  split at h
  · next fault hfault =>
    obtain rfl := Except.error.inj h
    simp only [diceOf, hfault]
  · next count hcount =>
    split at h
    · next fault hfault =>
      obtain rfl := Except.error.inj h
      simp only [diceOf, hcount, hfault]
    · cases h

/-- A number is told by its token. -/
theorem numberLeaf_eq_of_token {l l' : NumberLeaf} (h : l.token = l'.token) : l = l' := by
  obtain ⟨t, hk, n, hn⟩ := l
  obtain ⟨t', hk', n', hn'⟩ := l'
  obtain rfl : t = t' := h
  obtain rfl : n = n' := Except.ok.inj (hn.symm.trans hn')
  rfl

/-- Dice are told by their token. -/
theorem diceLeaf_eq_of_token {l l' : DiceLeaf} (h : l.token = l'.token) : l = l' := by
  have hl := literalOf_dice l
  rw [h, literalOf_dice l'] at hl
  obtain ⟨t, hk, d, hd⟩ := l
  obtain ⟨t', hk', d', hd'⟩ := l'
  obtain rfl : t = t' := h
  obtain rfl : d' = d := Literal.dice.inj (Except.ok.inj hl)
  rfl

/-! ## Taking a leaf -/

/-- The kinds are there to be taken, and need no check. -/
def Plain (kinds : List Kind) : Prop :=
  kinds ≠ [] ∧ ∀ kind ∈ kinds,
    kind ≠ .endOfFile ∧ kind ≠ .numberLiteral ∧ kind ≠ .diceLiteral

instance (kinds : List Kind) : Decidable (Plain kinds) :=
  inferInstanceAs (Decidable (_ ∧ _))

theorem kind_of_leaf {kind : Kind} (l : Leaf [kind]) : l.token.kind = kind :=
  List.mem_singleton.mp l.mem

theorem line_eq_lineOf {kinds : List Kind} (l : Leaf kinds) : l.line = lineOf l.token := rfl

theorem leaf_not_mem {kinds stop : List Kind} (h : ∀ kind ∈ kinds, kind ∉ stop) (l : Leaf kinds) :
    l.token.kind ∉ stop :=
  h _ l.mem

theorem Plain.literalOf {kinds : List Kind} (h : Plain kinds) {t : Token} (ht : t.kind ∈ kinds) :
    literalOf t = .ok .plain :=
  literalOf_of_ne (h.2 t.kind ht).2

theorem Plain.endOfFile_not_mem {kinds : List Kind} (h : Plain kinds) :
    Kind.endOfFile ∉ kinds :=
  fun hmem => (h.2 _ hmem).1 rfl

/-- Taking a token and going on with it, where a bad literal is refused at once. -/
theorem forget_accept {kinds : List Kind} {rest : σ → List Token} {ts : List Token}
    {body : Token × Shorter ts → Except Refusal (β × σ)} {g : Token → Literal → Reader β}
    (hok : ∀ t lit r, t.kind ∈ kinds → literalOf t = .ok lit →
      forget rest (body (t, r)) = g t lit r.rest)
    (herror : ∀ t reason r, t.kind ∈ kinds → literalOf t = .error reason →
      forget rest (body (t, r)) = .error ⟨reason, r.rest⟩) :
    forget rest (accept kinds ts >>= body) = Reader.take kinds literalOf g ts := by
  rcases ts with - | ⟨t, ts⟩
  · rfl
  by_cases hk : t.kind ∈ kinds
  · have haccept : accept kinds (t :: ts) = .ok (t, .tail t ts) := if_pos hk
    rw [haccept]
    rcases hlit : literalOf t with reason | lit
    · rw [Reader.take_of_error ts hk hlit]
      exact herror t reason _ hk hlit
    · rw [Reader.take_of_ok ts hk hlit]
      exact hok t lit _ hk hlit
  · have haccept : accept kinds (t :: ts) = .error ⟨.unexpected kinds t, ts⟩ := if_neg hk
    rw [haccept, Reader.take_of_not_mem ts hk]
    rfl

theorem forget_accept_of_plain {kinds : List Kind} (hkinds : Plain kinds) {rest : σ → List Token}
    {ts : List Token} {body : Token × Shorter ts → Except Refusal (β × σ)}
    {g : Token → Reader β}
    (hok : ∀ t r, t.kind ∈ kinds → forget rest (body (t, r)) = g t r.rest) :
    forget rest (accept kinds ts >>= body) = Reader.take kinds literalOf (fun t _ => g t) ts := by
  refine forget_accept (fun t _ r ht _ => hok t r ht) fun t reason r ht hlit => ?_
  rw [hkinds.literalOf ht] at hlit
  cases hlit

theorem reads_accept {kinds : List Kind} (hkinds : Plain kinds) :
    reads (accept kinds) = Reader.take kinds literalOf fun t _ => Reader.give t := by
  funext ts
  rw [reads, ← bind_pure (accept kinds ts)]
  exact forget_accept_of_plain hkinds fun t r _ => rfl

/-- Looking at the next token and taking it if it is of one of the kinds. -/
theorem choose_accept_cons (kinds : List Kind) (g : Token → Reader α) (f : Reader α) (t : Token)
    (ts : List Token) :
    Reader.choose kinds ((reads (accept kinds)).bind g) f (t :: ts) =
      if t.kind ∈ kinds then g t ts else f (t :: ts) := by
  by_cases hk : t.kind ∈ kinds
  · have haccept : reads (accept kinds) (t :: ts) = .ok (t, ts) := by
      simp only [reads, accept, if_pos hk]
      rfl
    rw [Reader.choose, frontKind_cons, if_pos hk, if_pos hk, Reader.bind_of_ok haccept]
  · rw [Reader.choose, frontKind_cons, if_neg hk, if_neg hk]

theorem choose_nil {kinds : List Kind} (hkinds : Kind.endOfFile ∉ kinds) (f g : Reader α) :
    Reader.choose kinds f g [] = g [] := by
  rw [Reader.choose, frontKind_nil, if_neg hkinds]

/-- Any token with the face of a sample can be the only leaf of a tree. -/
theorem writes_sample {tokens : X → List Token} {kind : Kind} (hkind : kind ≠ .endOfFile)
    (h : ∀ t : Token, t.kind = kind → t.value = kind.sample → ∃ x, tokens x = [t]) :
    Writes tokens [] [(kind, kind.sample)] where
  spelled := List.forall_mem_singleton.mpr (exists_lexeme_sample hkind)
  exists_tree := by
    intro us hus
    obtain ⟨t, rfl, ht⟩ := List.map_eq_singleton_iff.mp hus
    obtain ⟨x, hx⟩ := h t (congrArg Prod.fst ht) (congrArg Prod.snd ht)
    exact ⟨x, hx⟩

theorem writes_leaf {kind : Kind} (hkind : kind ≠ .endOfFile) {kinds : List Kind}
    (hmem : kind ∈ kinds) :
    Writes (fun l : Leaf kinds => [l.token]) [] [(kind, kind.sample)] :=
  writes_sample hkind fun t ht _ => ⟨⟨t, ht ▸ hmem⟩, rfl⟩

/-- Some tree begins with a token of the kind, if it is a leaf and then something else. -/
theorem exists_writes_cons {kind : Kind} {tokens : X → List Token} {tokens' : Y → List Token}
    (hkind : kind ≠ .endOfFile) (hspare : Spare tokens') (φ : Leaf [kind] × Y → X)
    (hφ : ∀ x, tokens (φ x) = x.1.token :: tokens' x.2) :
    ∃ value faces, Writes tokens [] ((kind, value) :: faces) := by
  obtain ⟨faces, hfaces⟩ := hspare
  have hleaf := writes_leaf hkind (List.mem_singleton.mpr rfl)
  exact ⟨_, faces, (hleaf.pair hfaces).map φ hφ⟩

/-- Some tree begins with a token of the kind, if it is just a leaf. -/
theorem exists_writes_leaf {kind : Kind} {tokens : X → List Token} (hkind : kind ≠ .endOfFile)
    (φ : Leaf [kind] → X) (hφ : ∀ l, tokens (φ l) = [l.token]) :
    ∃ value faces, Writes tokens [] ((kind, value) :: faces) :=
  ⟨_, _, (writes_leaf hkind (List.mem_singleton.mpr rfl)).map φ hφ⟩

theorem spare_leaf {kinds : List Kind} (hkinds : Plain kinds) :
    Spare fun l : Leaf kinds => [l.token] := by
  obtain ⟨hne, hall⟩ := hkinds
  obtain ⟨kind, hkind⟩ := List.exists_mem_of_ne_nil kinds hne
  exact ⟨_, writes_leaf (hall kind hkind).1 hkind⟩

theorem Plain.viable {kinds : List Kind} (hkinds : Plain kinds) :
    Viable (fun l : Leaf kinds => [l.token]) [] kinds :=
  ⟨hkinds.1, fun kind hkind => ⟨_, _, writes_leaf (hkinds.2 kind hkind).1 hkind⟩⟩

/-- **A token that needs no check** is read exactly. -/
theorem exact_accept {n : Nat} {kinds : List Kind} (hkinds : Plain kinds) :
    Exact n (reads (accept kinds)) [] (fun l : Leaf kinds => [l.token]) (fun l => l.token) := by
  rw [reads_accept hkinds]
  refine Exact.take (fun l => l.token) (fun _ => []) (fun _ => rfl)
    (fun l => ⟨l.mem, .plain, hkinds.literalOf l.mem⟩) (blames_of_literalOf kinds)
    hkinds.endOfFile_not_mem hkinds.viable fun t lit ht _ m _ => ?_
  refine (Exact.give t).map (fun _ => ⟨⟨t, ht⟩, rfl⟩) ?_ (fun _ => rfl) fun _ => rfl
  rintro ⟨l, rfl⟩
  exact ⟨(), rfl⟩

/-- A token that needs no check, and then something else. -/
theorem exact_accept_bind {n : Nat} {kinds : List Kind} {g : Token → Reader β} {stop : List Kind}
    {tokens : Y → List Token} {value : Token → Y → β} (hkinds : Plain kinds)
    (hg : ∀ t m, m < n → Exact m (g t) stop tokens (value t)) (hspare : Spare tokens) :
    Exact n ((reads (accept kinds)).bind g) stop
      (fun x : Leaf kinds × Y => x.1.token :: tokens x.2) (fun x => value x.1.token x.2) :=
  (exact_accept hkinds).bind 1 hg (fun _ => Nat.le_refl _) (fun _ _ _ => List.not_mem_nil) hspare

/-- Something, and then a token that needs no check. -/
theorem Exact.bind_accept {n : Nat} {f : Reader α} {stop kinds : List Kind}
    {tokens : X → List Token} {value : X → α} (h : Exact n f stop tokens value)
    (hkinds : Plain kinds) (hstop : ∀ kind ∈ kinds, kind ∉ stop) (φ : α → β) :
    Exact n (f.bind fun a => (reads (accept kinds)).bind fun _ => Reader.give (φ a)) []
      (fun x : X × Leaf kinds => tokens x.1 ++ [x.2.token]) (fun x => φ (value x.1)) :=
  h.bind 0 (fun a _ _ => (exact_accept hkinds).bind_give fun _ => φ a) (fun _ => Nat.zero_le _)
    (fun l _ _ => leaf_not_mem hstop l) (spare_leaf hkinds)

/-- The number that a literal is. -/
def Literal.toNumber : Literal → Int64
  | .number n => n
  | _ => 0

theorem reads_number :
    reads number = Reader.take [.numberLiteral] literalOf fun _ lit =>
      Reader.give lit.toNumber := by
  funext ts
  rw [reads, number]
  refine forget_accept (fun t lit r ht hlit => ?_) fun t reason r ht hlit => ?_
  · obtain ⟨l, rfl, rfl⟩ := exists_numberLeaf (List.mem_singleton.mp ht) hlit
    simp only [numberOf_token]
    rfl
  · simp only [numberOf_of_error (List.mem_singleton.mp ht) hlit]
    rfl

theorem writes_number :
    Writes (fun l : NumberLeaf => [l.token]) [] [(.numberLiteral, Kind.sample .numberLiteral)] := by
  refine writes_sample (by decide) fun t ht hvalue => ?_
  have hfits : Numeral.decimal (.ofList ['1']) = .ok 1 :=
    (Numeral.decimal_digits_eq_ok_iff (by decide) isDigit_of_mem_one).mpr (by decide)
  exact ⟨⟨t, ht, 1, by rw [hvalue]; exact hfits⟩, rfl⟩

theorem writes_dice :
    Writes (fun l : DiceLeaf => [l.token]) [] [(.diceLiteral, Kind.sample .diceLiteral)] := by
  refine writes_sample (by decide) fun t ht hvalue => ?_
  have hfits : Numeral.decimal (.ofList ['1']) = .ok 1 :=
    (Numeral.decimal_digits_eq_ok_iff (by decide) isDigit_of_mem_one).mpr (by decide)
  have htext : IsDiceText t.value (.ofList ['1']) (.ofList ['1']) :=
    ⟨by rw [hvalue]; rfl, by decide⟩
  exact ⟨⟨t, ht, ⟨1, 1⟩, _, _, htext, hfits, hfits⟩, rfl⟩

theorem spare_number : Spare fun l : NumberLeaf => [l.token] :=
  ⟨_, writes_number⟩

/-- **A number** is read exactly. -/
theorem exact_number {n : Nat} :
    Exact n (reads number) [] (fun l : NumberLeaf => [l.token]) (fun l => l.value) := by
  rw [reads_number]
  refine Exact.take (fun l => l.token) (fun _ => []) (fun _ => rfl)
    (fun l => ⟨List.mem_singleton.mpr l.kind_eq, _, literalOf_number l⟩)
    (blames_of_literalOf _) (by decide) ⟨by decide, ?_⟩ fun t lit ht hlit m _ => ?_
  · exact List.forall_mem_singleton.mpr ⟨_, _, writes_number⟩
  · obtain ⟨l, rfl, rfl⟩ := exists_numberLeaf (List.mem_singleton.mp ht) hlit
    refine (Exact.give l.value).map (fun _ => ⟨l, rfl⟩) ?_ (fun _ => rfl) fun _ => rfl
    rintro ⟨l', hl'⟩
    exact ⟨(), Subtype.ext (numberLeaf_eq_of_token hl'.symm)⟩

end Parsing

end Adventure
