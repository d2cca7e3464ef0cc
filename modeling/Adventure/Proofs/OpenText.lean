import Mathlib.Data.List.Forall2
import Adventure.Proofs.FinalError

/-!
# Texts that are left open

A text literal that is not closed counts as a beginning: more input could close it. Whether this
helps depends on what stands before it. Behind `?` a text can stand, and once it is closed the rest
of a program can follow; at the start of a program no text can stand, and nothing that is typed
makes a program of it.

`open_text_completable` says which of the two it is: some continuation makes a program of the
input exactly if a text can stand behind the tokens that were read, and this can be seen by closing
the literal at once. What the literal says does not matter: a token can be replaced by any other of
its kind, numbers and dice apart (`parses_of_replaces`).
-/

namespace Adventure

open Text Parsing

/-! ## Replacing tokens -/

/-- The token `u` can stand where `t` does: it is of the same kind, and it is the same literal if
`t` is a number or dice. -/
structure Token.Replaces (u t : Token) : Prop where
  kind_eq : u.kind = t.kind
  value_eq : t.kind = .numberLiteral ∨ t.kind = .diceLiteral → u.value = t.value

theorem Token.Replaces.refl (t : Token) : t.Replaces t :=
  ⟨rfl, fun _ => rfl⟩

/-- Whatever replaces the tokens `ts` is derived too. -/
def Replaceable {X : Type} (tokens : X → List Token) (ts : List Token) : Prop :=
  ∀ us, List.Forall₂ Token.Replaces us ts → ∃ x, tokens x = us

namespace Replaceable

variable {X Y : Type} {tokens : X → List Token} {tokens' : Y → List Token} {ts ts' : List Token}

/-- What can be replaced in one shape can be replaced in another with the same tokens. -/
theorem map (h : Replaceable tokens ts) (φ : X → Y) (hφ : ∀ x, tokens' (φ x) = tokens x) :
    Replaceable tokens' ts := by
  intro us hus
  obtain ⟨x, rfl⟩ := h us hus
  exact ⟨φ x, hφ x⟩

/-- Tokens can be replaced one part after the other. -/
theorem pair (h : Replaceable tokens ts) (h' : Replaceable tokens' ts') :
    Replaceable (fun x : X × Y => tokens x.1 ++ tokens' x.2) (ts ++ ts') := by
  intro us hus
  obtain ⟨x, hx⟩ := h _ (List.forall₂_take_append us ts ts' hus)
  obtain ⟨y, hy⟩ := h' _ (List.forall₂_drop_append us ts ts' hus)
  refine ⟨(x, y), ?_⟩
  simp only [hx, hy, List.take_append_drop]

theorem of_nil (x : X) (h : tokens x = []) : Replaceable tokens [] := by
  rintro _ ⟨⟩
  exact ⟨x, h⟩

/-- A token can be replaced if the shape allows its kind with another value. -/
theorem of_token {t : Token} (h : ∀ u : Token, u.Replaces t → ∃ x, tokens x = [u]) :
    Replaceable tokens [t] := by
  rintro _ (_ | ⟨hu, ⟨⟩⟩)
  exact h _ hu

/-- A token of which only the kind matters can be replaced. -/
theorem leaf {kinds : List Kind} (l : Grammar.Leaf kinds) :
    Replaceable (fun l : Grammar.Leaf kinds => [l.token]) [l.token] :=
  of_token fun u hu => ⟨⟨u, hu.kind_eq ▸ l.mem⟩, rfl⟩

/-- A number can be replaced, as it keeps its value. -/
theorem number (l : Grammar.NumberLeaf) :
    Replaceable (fun l : Grammar.NumberLeaf => [l.token]) [l.token] := by
  refine of_token fun u hu => ?_
  have hvalue := hu.value_eq (.inl l.kind_eq)
  exact ⟨⟨u, hu.kind_eq.trans l.kind_eq, l.value, hvalue ▸ l.fits⟩, rfl⟩

/-- Dice can be replaced, as they keep their value. -/
theorem dice (l : Grammar.DiceLeaf) :
    Replaceable (fun l : Grammar.DiceLeaf => [l.token]) [l.token] := by
  refine of_token fun u hu => ?_
  have hvalue := hu.value_eq (.inr l.kind_eq)
  exact ⟨⟨u, hu.kind_eq.trans l.kind_eq, l.value, hvalue ▸ l.fits⟩, rfl⟩

/-- A token in front can be replaced too. -/
theorem behind {kinds : List Kind} (h : Replaceable tokens ts) (l : Grammar.Leaf kinds) :
    Replaceable (fun x : Grammar.Leaf kinds × X => x.1.token :: tokens x.2) (l.token :: ts) :=
  (leaf l).pair h

/-- A token behind can be replaced too. -/
theorem before {kinds : List Kind} (h : Replaceable tokens ts) (l : Grammar.Leaf kinds) :
    Replaceable (fun x : X × Grammar.Leaf kinds => tokens x.1 ++ [x.2.token]) (ts ++ [l.token]) :=
  h.pair (leaf l)

end Replaceable

/-! ## One rule of the grammar after the other -/

namespace Grammar

open Replaceable

mutual

theorem replaceable_expression : ∀ x : Expression, Replaceable Expression.tokens x.tokens
  | .mk first more =>
    ((replaceable_term first).pair (replaceable_terms more)).map (fun y => .mk y.1 y.2) fun _ => rfl

theorem replaceable_terms : ∀ x : Terms, Replaceable Terms.tokens x.tokens
  | .nil => of_nil .nil rfl
  | .cons sign first more =>
    (((replaceable_term first).pair (replaceable_terms more)).behind sign).map
      (fun y => .cons y.1 y.2.1 y.2.2) fun _ => rfl

theorem replaceable_term : ∀ x : Term, Replaceable Term.tokens x.tokens
  | .mk first more =>
    ((replaceable_primary first).pair (replaceable_factors more)).map (fun y => .mk y.1 y.2)
      fun _ => rfl

theorem replaceable_factors : ∀ x : Factors, Replaceable Factors.tokens x.tokens
  | .nil => of_nil .nil rfl
  | .cons sign first more =>
    (((replaceable_primary first).pair (replaceable_factors more)).behind sign).map
      (fun y => .cons y.1 y.2.1 y.2.2) fun _ => rfl

theorem replaceable_primary : ∀ x : Primary, Replaceable Primary.tokens x.tokens
  | .nested opening inner closing =>
    (((replaceable_expression inner).before closing).behind opening).map
      (fun y => .nested y.1 y.2.1 y.2.2) fun _ => rfl
  | .var name => (leaf name).map .var fun _ => rfl
  | .call name opening arguments =>
    (((replaceable_arguments arguments).behind opening).behind name).map
      (fun y => .call y.1 y.2.1 y.2.2) fun _ => rfl
  | .rollDice caret faces =>
    ((dice faces).behind caret).map (fun y => .rollDice y.1 y.2) fun _ => rfl
  | .rollVar caret name =>
    ((leaf name).behind caret).map (fun y => .rollVar y.1 y.2) fun _ => rfl
  | .number digits => (number digits).map .number fun _ => rfl
  | .dice faces => (dice faces).map .dice fun _ => rfl

theorem replaceable_arguments : ∀ x : Arguments, Replaceable Arguments.tokens x.tokens
  | .none closing => (leaf closing).map .none fun _ => rfl
  | .some arguments => (replaceable_moreArguments arguments).map .some fun _ => rfl

theorem replaceable_moreArguments : ∀ x : MoreArguments, Replaceable MoreArguments.tokens x.tokens
  | .last argument closing =>
    ((replaceable_assignable argument).before closing).map (fun y => .last y.1 y.2) fun _ => rfl
  | .cons argument comma more =>
    ((replaceable_assignable argument).pair ((replaceable_moreArguments more).behind comma)).map
      (fun y => .cons y.1 y.2.1 y.2.2) fun _ => rfl

theorem replaceable_assignable : ∀ x : Assignable, Replaceable Assignable.tokens x.tokens
  | .text text => (leaf text).map .text fun _ => rfl
  | .expression expression => (replaceable_expression expression).map .expression fun _ => rfl

end

/-- The tokens of a condition can be replaced. -/
theorem replaceable_condition (x : Condition) : Replaceable Condition.tokens x.tokens :=
  (((replaceable_assignable x.left).pair
    (((replaceable_assignable x.right).before x.closing).behind x.sign)).behind x.opening).map
    (fun y => ⟨y.1, y.2.1, y.2.2.1, y.2.2.2.1, y.2.2.2.2⟩) fun _ => rfl

mutual

theorem replaceable_instruction : ∀ x : Instruction, Replaceable Instruction.tokens x.tokens
  | .assign target sign value semicolon =>
    ((((replaceable_assignable value).before semicolon).behind sign).behind target).map
      (fun y => .assign y.1 y.2.1 y.2.2.1 y.2.2.2) fun _ => rfl
  | .call name opening arguments semicolon =>
    ((((replaceable_arguments arguments).before semicolon).behind opening).behind name).map
      (fun y => .call y.1 y.2.1 y.2.2.1 y.2.2.2) fun _ => rfl
  | .declare type name semicolon =>
    (((leaf semicolon).behind name).behind type).map (fun y => .declare y.1 y.2.1 y.2.2)
      fun _ => rfl
  | .attack attacker sign defender semicolon =>
    ((((leaf semicolon).behind defender).behind sign).behind attacker).map
      (fun y => .attack y.1 y.2.1 y.2.2.1 y.2.2.2) fun _ => rfl
  | .loop word condition body =>
    (((replaceable_condition condition).pair (replaceable_block body)).behind word).map
      (fun y => .loop y.1 y.2.1 y.2.2) fun _ => rfl
  | .branch word condition body alternative =>
    (((replaceable_condition condition).pair
      ((replaceable_block body).pair (replaceable_alternative alternative))).behind word).map
      (fun y => .branch y.1 y.2.1 y.2.2.1 y.2.2.2) fun _ => rfl
  | .log mark value semicolon =>
    (((replaceable_assignable value).before semicolon).behind mark).map
      (fun y => .log y.1 y.2.1 y.2.2) fun _ => rfl
  | .give word value semicolon =>
    (((replaceable_assignable value).before semicolon).behind word).map
      (fun y => .give y.1 y.2.1 y.2.2) fun _ => rfl

theorem replaceable_alternative : ∀ x : Alternative, Replaceable Alternative.tokens x.tokens
  | .none => of_nil .none rfl
  | .some word body =>
    ((replaceable_block body).behind word).map (fun y => .some y.1 y.2) fun _ => rfl

theorem replaceable_block : ∀ x : Block, Replaceable Block.tokens x.tokens
  | .mk opening statements =>
    ((replaceable_statements statements).behind opening).map (fun y => .mk y.1 y.2) fun _ => rfl

theorem replaceable_statements : ∀ x : Statements, Replaceable Statements.tokens x.tokens
  | .nil closing => (leaf closing).map .nil fun _ => rfl
  | .cons first more =>
    ((replaceable_instruction first).pair (replaceable_statements more)).map
      (fun y => .cons y.1 y.2) fun _ => rfl

end

/-- The tokens of parameters can be replaced. -/
theorem replaceable_moreParameters (x : MoreParameters) :
    Replaceable MoreParameters.tokens x.tokens := by
  induction x with
  | last name closing =>
    exact ((leaf closing).behind name).map (fun y => .last y.1 y.2) fun _ => rfl
  | cons name comma more ih =>
    exact ((ih.behind comma).behind name).map (fun y => .cons y.1 y.2.1 y.2.2) fun _ => rfl

theorem replaceable_parameters (x : Parameters) : Replaceable Parameters.tokens x.tokens := by
  cases x with
  | none closing => exact (leaf closing).map .none fun _ => rfl
  | some parameters => exact (replaceable_moreParameters parameters).map .some fun _ => rfl

/-- The tokens of a function can be replaced. -/
theorem replaceable_function (x : Function) : Replaceable Function.tokens x.tokens :=
  (((((replaceable_parameters x.parameters).pair (replaceable_block x.body)).behind
    x.opening).behind x.name).behind x.word).map
    (fun y => ⟨y.1, y.2.1, y.2.2.1, y.2.2.2.1, y.2.2.2.2⟩) fun _ => rfl

/-- The tokens of the fields of an item can be replaced. -/
theorem replaceable_itemFields (x : ItemFields) : Replaceable ItemFields.tokens x.tokens := by
  induction x with
  | nil closing => exact (leaf closing).map .nil fun _ => rfl
  | number field colon digits more ih =>
    exact ((((number digits).pair ih).behind colon).behind field).map
      (fun y => .number y.1 y.2.1 y.2.2.1 y.2.2.2) fun _ => rfl
  | desc field colon text more ih =>
    exact (((ih.behind text).behind colon).behind field).map
      (fun y => .desc y.1 y.2.1 y.2.2.1 y.2.2.2) fun _ => rfl

/-- The tokens of an item can be replaced. -/
theorem replaceable_item (x : Item) : Replaceable Item.tokens x.tokens :=
  ((((replaceable_itemFields x.fields).behind x.opening).behind x.name).behind x.word).map
    (fun y => ⟨y.1, y.2.1, y.2.2.1, y.2.2.2⟩) fun _ => rfl

theorem replaceable_amount (x : Amount) : Replaceable (fun x : Amount => [x.token]) [x.token] := by
  cases x with
  | number digits => exact (number digits).map .number fun _ => rfl
  | dice faces => exact (dice faces).map .dice fun _ => rfl

theorem replaceable_growth (x : Growth) : Replaceable Growth.tokens x.tokens := by
  cases x with
  | none => exact of_nil .none rfl
  | some sign amount =>
    exact ((replaceable_amount amount).behind sign).map (fun y => .some y.1 y.2) fun _ => rfl

/-- The tokens of an attribute can be replaced. -/
theorem replaceable_stat (x : Stat) : Replaceable Stat.tokens x.tokens :=
  ((number x.base).pair (replaceable_growth x.growth)).map (fun y => ⟨y.1, y.2⟩) fun _ => rfl

theorem replaceable_quantity (x : Quantity) : Replaceable Quantity.tokens x.tokens := by
  cases x with
  | one => exact of_nil .one rfl
  | many slash digits =>
    exact ((number digits).behind slash).map (fun y => .many y.1 y.2) fun _ => rfl

theorem replaceable_stacks (x : Stacks) : Replaceable Stacks.tokens x.tokens := by
  induction x with
  | last name quantity =>
    exact ((replaceable_quantity quantity).behind name).map (fun y => .last y.1 y.2) fun _ => rfl
  | cons name quantity and more ih =>
    exact (((replaceable_quantity quantity).pair (ih.behind and)).behind name).map
      (fun y => .cons y.1 y.2.1 y.2.2.1 y.2.2.2) fun _ => rfl

/-- The tokens of the fields of a character can be replaced. -/
theorem replaceable_characterFields (x : CharacterFields) :
    Replaceable CharacterFields.tokens x.tokens := by
  induction x with
  | nil closing => exact (leaf closing).map .nil fun _ => rfl
  | stat field colon s more ih =>
    exact ((((replaceable_stat s).pair ih).behind colon).behind field).map
      (fun y => .stat y.1 y.2.1 y.2.2.1 y.2.2.2) fun _ => rfl
  | carried field colon content more ih =>
    exact ((((replaceable_stacks content).pair ih).behind colon).behind field).map
      (fun y => .carried y.1 y.2.1 y.2.2.1 y.2.2.2) fun _ => rfl

/-- The tokens of a character can be replaced. -/
theorem replaceable_character (x : Character) : Replaceable Character.tokens x.tokens :=
  ((((replaceable_characterFields x.fields).behind x.opening).behind x.name).behind x.word).map
    (fun y => ⟨y.1, y.2.1, y.2.2.1, y.2.2.2⟩) fun _ => rfl

/-- The tokens of a function, a template or an instruction can be replaced. -/
theorem replaceable_part (x : Part) : Replaceable Part.tokens x.tokens := by
  cases x with
  | item i => exact (replaceable_item i).map .item fun _ => rfl
  | character c => exact (replaceable_character c).map .character fun _ => rfl
  | function f => exact (replaceable_function f).map .function fun _ => rfl
  | instruction i => exact (replaceable_instruction i).map .instruction fun _ => rfl

/-- The tokens of a program can be replaced. -/
theorem replaceable_program (d : Program) : Replaceable Program.tokens d.tokens := by
  induction d with
  | nil => exact of_nil [] rfl
  | cons part d ih =>
    exact ((replaceable_part part).pair ih).map (fun y => y.1 :: y.2) fun _ => rfl

end Grammar

/-- **What names and texts say does not matter.** Tokens that are those of a program still are if
some of them are replaced by others of their kind, numbers and dice apart. -/
theorem parses_of_replaces {ts us : List Token} (h : Parses ts)
    (hus : List.Forall₂ Token.Replaces us ts) : Parses us := by
  obtain ⟨p, hp⟩ := h
  obtain ⟨d, rfl, -⟩ := (program_eq_ok_iff _ _).mp hp
  obtain ⟨d', rfl⟩ := Grammar.replaceable_program d us hus
  exact parses_tokens d'

/-! ## Closing a text -/

/-- The characters end within a text, which says `body` so far. -/
def LeftOpen (cs body : List Char) : Prop :=
  ∃ before gap, Lexed [] cs (Source.ofChars cs none).tokens.items before (gap ++ '"' :: body) ∧
    (∀ c ∈ gap, isBlank c = true) ∧ '"' ∉ body

/-- A text that was left open is the last thing after blanks. -/
theorem Finish.of_openString {before rest : List Char} {place stop : Position}
    (h : Finish before rest (some (.openString place)) stop) :
    ∃ gap body, rest = gap ++ '"' :: body ∧ (∀ c ∈ gap, isBlank c = true) ∧ '"' ∉ body := by
  cases h with
  | openText hgap hbody => exact ⟨_, _, rfl, hgap, hbody⟩

/-- Where a text was left open, there is a place at which it can be closed. -/
theorem exists_leftOpen {cs : List Char} {place : Position}
    (h : (Source.ofChars cs none).tokens.failure = some (.openString place)) :
    ∃ body, LeftOpen cs body := by
  obtain ⟨before, rest, hlexed, hfinish⟩ := splits_tokens cs
  rw [h] at hfinish
  obtain ⟨gap, body, rfl, hgap, hbody⟩ := hfinish.of_openString
  exact ⟨body, before, gap, hlexed, hgap, hbody⟩

namespace LeftOpen

variable {cs body : List Char}

/-- More text is read behind the tokens before, together with what the open text says. -/
theorem lexed_append (h : LeftOpen cs body) (more : List Char) :
    ∃ before gap, Lexed [] (cs ++ more) (Source.ofChars cs none).tokens.items before
        (gap ++ '"' :: (body ++ more)) ∧
      ∀ c ∈ gap, isBlank c = true := by
  obtain ⟨before, gap, hlexed, hgap, -⟩ := h
  refine ⟨before, gap, ?_, hgap⟩
  have happend : gap ++ '"' :: (body ++ more) = gap ++ '"' :: body ++ more := by simp
  rw [happend]
  exact hlexed.append_of_halts fun hnil => absurd hnil (by simp)

/-- More of a text that is open leaves it open if no quotation mark is in it. -/
theorem not_mem_append (h : LeftOpen cs body) {more : List Char} (hmore : '"' ∉ more) :
    '"' ∉ body ++ more := by
  obtain ⟨-, -, -, -, hbody⟩ := h
  exact fun hmem => (List.mem_append.mp hmem).elim hbody hmore

/-- The text stays open until there is a double quote. -/
theorem failure_append (h : LeftOpen cs body) {more : List Char} (hmore : '"' ∉ more) :
    (Source.ofChars (cs ++ more) none).tokens.failure ≠ none := by
  obtain ⟨before, gap, hlexed, hgap⟩ := h.lexed_append more
  have htokens := hlexed.tokens_behind
  rw [(Finish.openText hgap (h.not_mem_append hmore)).tokens_behind] at htokens
  rw [show Source.ofChars (cs ++ more) none = .behind [] (cs ++ more) from rfl, htokens]
  exact Option.some_ne_none _

/-- A double quote closes the text, and it is read as one token. -/
theorem tokens_closed (h : LeftOpen cs body) {front : List Char} (hfront : '"' ∉ front)
    (after : List Char) :
    ∃ place before, (Source.ofChars (cs ++ (front ++ '"' :: after)) none).tokens =
      { (Source.behind before after).tokens with
        items := (Source.ofChars cs none).tokens.items ++
          ⟨.stringLiteral, .ofList (body ++ front), place⟩ ::
            (Source.behind before after).tokens.items } := by
  obtain ⟨before, gap, hlexed, hgap⟩ := h.lexed_append (front ++ '"' :: after)
  have hrest : gap ++ '"' :: (body ++ (front ++ '"' :: after)) =
      gap ++ ('"' :: (body ++ front) ++ ['"']) ++ after := by simp
  rw [hrest] at hlexed
  have hlexeme := Lexeme.text (h.not_mem_append hfront)
  have htokens :=
    (hlexed.trans (.cons hgap hlexeme (fun _ _ => rfl) (.nil _ _))).tokens_behind
  rw [List.append_assoc (Source.ofChars cs none).tokens.items] at htokens
  exact ⟨_, _, htokens⟩

/-- What makes a program of the characters closes the text first, so a text can stand there. -/
theorem extendableBy (h : LeftOpen cs body) {more : List Char} {p : Program}
    (hp : (Source.ofChars (cs ++ more) none).parse = .ok p) :
    ExtendableBy (Source.ofChars cs none).tokens.items .stringLiteral := by
  obtain ⟨hfailure, hprogram⟩ := (Source.parse_eq_ok_iff _ _).mp hp
  have hmem : '"' ∈ more := by
    by_contra hmore
    exact h.failure_append hmore hfailure
  obtain ⟨front, after, rfl, hfront⟩ := List.eq_append_cons_of_mem hmem
  obtain ⟨place, before, htokens⟩ := h.tokens_closed hfront after
  have hspelled : ∀ u ∈ (Source.ofChars (cs ++ (front ++ '"' :: after)) none).tokens.items,
      u.Spelled := fun u => spelled_of_mem_tokens
  rw [htokens] at hprogram hspelled
  exact ⟨_, _, rfl, fun u hu => hspelled u (List.mem_append_right _ hu), p, hprogram⟩

/-- Closed at once, the text is the last token. -/
theorem tokens_closed_at_once (h : LeftOpen cs body) :
    ∃ place stop, (Source.ofChars (cs ++ ['"']) none).tokens =
      ⟨(Source.ofChars cs none).tokens.items ++ [⟨.stringLiteral, .ofList body, place⟩], none,
        stop⟩ := by
  obtain ⟨place, before, htokens⟩ := h.tokens_closed List.not_mem_nil []
  rw [(Finish.done (List.forall_mem_nil _)).tokens_behind, List.nil_append, List.append_nil body]
    at htokens
  exact ⟨place, _, htokens⟩

/-- If a text can stand there, then nothing is wrong once it is closed, though the program may not
be complete. -/
theorem isIncomplete_closed (h : LeftOpen cs body)
    (htext : ExtendableBy (Source.ofChars cs none).tokens.items .stringLiteral) {e : ParseError}
    (he : (Source.ofChars (cs ++ ['"']) none).parse = .error e) : e.isIncomplete = true := by
  obtain ⟨place, stop, htokens⟩ := h.tokens_closed_at_once
  rw [Source.parse, htokens, Tokens.parse] at he
  rcases hprogram : program ((Source.ofChars cs none).tokens.items ++
      [⟨.stringLiteral, .ofList body, place⟩]) with ⟨reason, rest⟩ | p
  · simp only [hprogram, Except.error.injEq] at he
    rcases program_append_of_error hprogram with ⟨kinds, rfl⟩ | ⟨-, hmore⟩
    · rw [← he]
      rfl
    · -- the token would be wrong with anything behind it, but some text can stand in its place
      obtain ⟨v, vs, hv, -, hparses⟩ := htext
      obtain ⟨rest', hrest'⟩ := hmore vs
      rw [List.append_assoc] at hrest'
      refine absurd (parses_of_replaces hparses ?_) (not_parses_of_error hrest')
      refine List.rel_append (List.forall₂_same.mpr fun t _ => .refl t) (.cons ?_ ?_)
      · exact ⟨hv.symm, by simp [hv]⟩
      · exact List.forall₂_same.mpr fun t _ => .refl t
  · simp only [hprogram] at he
    cases he

end LeftOpen

/-! ## The main statement -/

/-- A text whose tokens can all be read, and that only ends too early, can be completed. -/
theorem exists_completion_of_isIncomplete {text : String} {e : ParseError}
    (h : (Source.ofString text).parse = .error e) (hfailure : (tokensOf text).failure = none)
    (hincomplete : e.isIncomplete = true) :
    ∃ more p, (Source.ofString (text ++ "\n" ++ more)).parse = .ok p := by
  cases textRefused h with
  | lexical hsome =>
    rw [hfailure] at hsome
    cases hsome
  | ended _ hviable => exact exists_completion hfailure hviable
  | @blamed us vs kinds got _ hitems _ _ hblames =>
    cases hblames with
    | unexpected =>
      have hmem : got ∈ (tokensOf text).items := by simp [hitems]
      exact absurd (eq_of_beq hincomplete) (kind_ne_of_mem_tokens hmem)
    | badNumber | badDice => cases hincomplete

theorem ofString_append (text more : String) :
    Source.ofString (text ++ more) = .ofChars (text.toList ++ more.toList) none := by
  rw [Source.ofString, String.toList_append]

/-- **Which open texts can be completed.** Of an input that ends within a text, some continuation
makes a program exactly if a text can stand behind the tokens that were read. This is so exactly if
the input, with the text closed at once, is a program or ends too early. -/
theorem open_text_completable {text : String} {place : Position}
    (h : (Source.ofString text).parse = .error (.lexical (.openString place))) :
    ((∃ more p, (Source.ofString (text ++ more)).parse = .ok p) ↔
      ExtendableBy (tokensOf text).items .stringLiteral) ∧
    ((∃ more p, (Source.ofString (text ++ more)).parse = .ok p) ↔
      ∀ e, (Source.ofString (text ++ "\"")).parse = .error e → e.isIncomplete = true) := by
  obtain ⟨body, hopen⟩ : ∃ body, LeftOpen text.toList body := by
    cases textRefused h with
    | lexical hfailure => exact exists_leftOpen hfailure
    | blamed _ _ _ hblames => cases hblames
  have hextendable : (∃ more p, (Source.ofString (text ++ more)).parse = .ok p) →
      ExtendableBy (tokensOf text).items .stringLiteral := by
    rintro ⟨more, p, hp⟩
    rw [ofString_append] at hp
    exact hopen.extendableBy hp
  have hclosed : ExtendableBy (tokensOf text).items .stringLiteral →
      ∀ e, (Source.ofString (text ++ "\"")).parse = .error e → e.isIncomplete = true := by
    intro htext e he
    rw [ofString_append] at he
    exact hopen.isIncomplete_closed htext he
  have hcompletable :
      (∀ e, (Source.ofString (text ++ "\"")).parse = .error e → e.isIncomplete = true) →
        ∃ more p, (Source.ofString (text ++ more)).parse = .ok p := by
    intro hincomplete
    rcases hparse : (Source.ofString (text ++ "\"")).parse with e | p
    -- the quote closes the text, so that all of it can be read
    · have hfailure : (tokensOf (text ++ "\"")).failure = none := by
        obtain ⟨place, stop, htokens⟩ := hopen.tokens_closed_at_once
        rw [tokensOf, ofString_append]
        exact congrArg Tokens.failure htokens
      obtain ⟨more, p, hp⟩ :=
        exists_completion_of_isIncomplete hparse hfailure (hincomplete e hparse)
      exact ⟨"\"" ++ "\n" ++ more, p, by rwa [← String.append_assoc, ← String.append_assoc]⟩
    · exact ⟨"\"", p, hparse⟩
  exact ⟨⟨hextendable, hcompletable ∘ hclosed⟩, ⟨hclosed ∘ hextendable, hcompletable⟩⟩

/-- What is shown can be a text, and a semicolon is all that is missing once it is closed. -/
theorem open_text_behind_log_completable :
    (Source.ofString "? \"").parse = .error (.lexical (.openString ⟨1, 3⟩)) ∧
    ExtendableBy (tokensOf "? \"").items .stringLiteral ∧
    ∃ more p, (Source.ofString ("? \"" ++ more)).parse = .ok p := by
  have hopen : (Source.ofString "? \"").parse = .error (.lexical (.openString ⟨1, 3⟩)) := by
    decide +kernel
  have hclosed : (Source.ofString ("? \"" ++ "\"")).parse =
      .error (.unexpected [.semicolon] ⟨.endOfFile, "", ⟨1, 4⟩⟩) := by decide +kernel
  obtain ⟨htext, hincomplete⟩ := open_text_completable hopen
  have hmore := hincomplete.mpr fun e he => by
    obtain rfl := Except.error.inj (hclosed.symm.trans he)
    rfl
  exact ⟨hopen, htext.mp hmore, hmore⟩

/-- No program starts with a text, so an input that starts with one that is open cannot be
completed, though it counts as a beginning. -/
theorem open_text_at_start_not_completable :
    ¬∀ (text : String) (place : Position),
      (Source.ofString text).parse = .error (.lexical (.openString place)) →
      ∃ more p, (Source.ofString (text ++ more)).parse = .ok p := by
  intro hall
  have hopen : (Source.ofString "\"").parse = .error (.lexical (.openString ⟨1, 1⟩)) := by
    decide +kernel
  have hclosed : (Source.ofString ("\"" ++ "\"")).parse =
      .error (.unexpected statementStart ⟨.stringLiteral, "", ⟨1, 1⟩⟩) := by decide +kernel
  have hfailure : (tokensOf "\"").failure = some (.openString ⟨1, 1⟩) := by decide +kernel
  obtain ⟨body, hleft⟩ := exists_leftOpen hfailure
  obtain ⟨more, p, hp⟩ := hall "\"" ⟨1, 1⟩ hopen
  rw [ofString_append] at hp hclosed
  exact Bool.false_ne_true (hleft.isIncomplete_closed (hleft.extendableBy hp) hclosed)

end Adventure
