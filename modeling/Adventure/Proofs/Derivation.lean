import Adventure.Proofs.Reading.Program

/-!
# What is a program

A text is a program if it splits into tokens without a failure and these have a derivation in the
grammar. `parse_eq_ok_iff_derives` says that exactly these texts are read as programs, and as what
the derivation stands for, of which there is only one.

The grammar asks of numbers and dice that they can be read. For the tokens of a text this is a
matter of size alone: the digits write a number, and it has to fit into 64 bits with a sign.
-/

namespace Adventure

open Text Parsing

/-- Some lexeme writes the token. -/
def Token.Spelled (t : Token) : Prop :=
  ∃ lexeme, Lexeme t.kind t.value lexeme

theorem Lexed.spelled {before cs before' rest : List Char} {ts : List Token}
    (h : Lexed before cs ts before' rest) : ∀ t ∈ ts, t.Spelled := by
  induction h with
  | nil => simp
  | cons hgap hlexeme hrest more ih =>
    intro t ht
    rcases List.mem_cons.mp ht with rfl | ht
    · exact ⟨_, hlexeme⟩
    · exact ih t ht

theorem spelled_of_mem_tokens {cs : List Char} {t : Token}
    (ht : t ∈ (Source.ofChars cs none).tokens.items) : t.Spelled := by
  obtain ⟨before, rest, hlexed, -⟩ := splits_tokens cs
  exact hlexed.spelled t ht

/-- The number that the digits write is `n`, and so it fits into 64 bits with a sign. -/
def IsWorth (digits : String) (n : Int64) : Prop :=
  (Numeral.natural digits.toList : Int) = n.toInt

instance (digits : String) (n : Int64) : Decidable (IsWorth digits n) :=
  inferInstanceAs (Decidable (_ = _))

theorem IsWorth.nonneg {digits : String} {n : Int64} (h : IsWorth digits n) : 0 ≤ n.toInt := by
  rw [← h]
  exact Int.natCast_nonneg _

theorem decimal_of_number {t : Token} {lexeme : List Char}
    (h : Lexeme t.kind t.value lexeme) (hkind : t.kind = .numberLiteral) (n : Int64) :
    Numeral.decimal t.value = .ok n ↔ IsWorth t.value n := by
  rw [hkind] at h
  obtain ⟨hne, hcs, hvalue⟩ := h.of_number
  rw [IsWorth, hvalue, String.toList_ofList]
  exact Numeral.decimal_digits_eq_ok_iff hne hcs

/-- The text of dice divides at its mark into two runs of digits. -/
theorem exists_isDiceText {t : Token} {lexeme : List Char} (h : Lexeme t.kind t.value lexeme)
    (hkind : t.kind = .diceLiteral) :
    ∃ count faces, Grammar.IsDiceText t.value count faces ∧ ∀ n,
      (Numeral.decimal count = .ok n ↔ IsWorth count n) ∧
      (Numeral.decimal faces = .ok n ↔ IsWorth faces n) := by
  rw [hkind] at h
  obtain ⟨count, faces, hcount, hcount', hfaces, hfaces', hvalue⟩ := h.of_dice
  have htext : Grammar.IsDiceText t.value (.ofList count) (.ofList faces) := by
    rw [hvalue]
    exact isDiceText_ofList hcount' faces
  refine ⟨.ofList count, .ofList faces, htext, fun n => ?_⟩
  rw [IsWorth, IsWorth, String.toList_ofList, String.toList_ofList]
  exact ⟨Numeral.decimal_digits_eq_ok_iff hcount hcount',
    Numeral.decimal_digits_eq_ok_iff hfaces hfaces'⟩

/-- The numbers of a leaf with dice are those that its digits write. -/
theorem isWorth_of_diceLeaf (l : Grammar.DiceLeaf) {lexeme : List Char}
    (h : Lexeme l.token.kind l.token.value lexeme) :
    ∃ count faces, Grammar.IsDiceText l.token.value count faces ∧
      IsWorth count l.value.count ∧ IsWorth faces l.value.faces := by
  obtain ⟨count, faces, htext, hworth⟩ := exists_isDiceText h l.kind_eq
  have hcount := count_fits l
  have hfaces := faces_fits l
  rw [diceHalves_eq htext] at hcount hfaces
  exact ⟨count, faces, htext, (hworth _).1.mp hcount, (hworth _).2.mp hfaces⟩

/-- Tokens are read as a program if nothing is wrong behind them and they are those of a program. -/
theorem Tokens.parse_eq_ok_iff (ts : Tokens) (p : Program) :
    ts.parse.1 = .ok p ↔ ts.failure = none ∧ program ts.items = .ok p := by
  unfold Tokens.parse
  rcases program ts.items with e | q
  · simp
  · rcases ts.failure with - | e <;> simp

/-- A source is read as a program if nothing is wrong with its tokens and they are those of a
program. -/
theorem Source.parse_eq_ok_iff (s : Source) (p : Program) :
    s.parse = .ok p ↔ s.tokens.failure = none ∧ program s.tokens.items = .ok p :=
  s.tokens.parse_eq_ok_iff p

/-- **Exactly the derivable texts are programs.** A text is read as the program `p` if it splits
into tokens without a failure and these are the tokens of a derivation that stands for `p`; no two
derivations have the same tokens. The literals of a derivation have to fit, which is to say that
the number that the digits write, for dice on both sides of the mark, is one of 64 bits. -/
theorem parse_eq_ok_iff_derives (text : String) :
    (∀ p, (Source.ofString text).parse = .ok p ↔
      (Source.ofString text).tokens.failure = none ∧
        ∃ d : Grammar.Program, d.tokens = (Source.ofString text).tokens.items ∧ d.value = p) ∧
    Function.Injective Grammar.Program.tokens ∧
    ∀ t ∈ (Source.ofString text).tokens.items,
      (t.kind = .numberLiteral → ∀ n, Numeral.decimal t.value = .ok n ↔ IsWorth t.value n) ∧
      (t.kind = .diceLiteral → ∃ count faces, Grammar.IsDiceText t.value count faces ∧ ∀ n,
        (Numeral.decimal count = .ok n ↔ IsWorth count n) ∧
        (Numeral.decimal faces = .ok n ↔ IsWorth faces n)) := by
  refine ⟨fun p => ?_, tokens_injective, fun t ht => ?_⟩
  · rw [Source.parse_eq_ok_iff, program_eq_ok_iff]
  · obtain ⟨lexeme, hlexeme⟩ := spelled_of_mem_tokens ht
    exact ⟨decimal_of_number hlexeme, exists_isDiceText hlexeme⟩

/-! ## A derivation -/

namespace Bandit

open Grammar

/-- A text with templates of both sorts, a comparison and a difference. -/
def text : String :=
  "item A\x7bvalue:7 value:8\x7d\n" ++ "character B\x7bhealth:3*=1D2 reward:A/2\x7d\n" ++
    "while(x<=2D6)\x7b?1-y;\x7d"

theorem decimal_digit : ∀ digit ∈ [("1", 1), ("2", 2), ("3", 3), ("6", 6), ("7", 7), ("8", 8)],
    Numeral.decimal digit.1 = .ok digit.2 := by decide +kernel

/-- A token by itself. -/
def leaf (kind : Kind) (value : String) (line column : Nat) : Leaf [kind] :=
  ⟨⟨kind, value, ⟨line, column⟩⟩, List.mem_singleton_self kind⟩

/-- The item, whose value is written twice. -/
def item : Grammar.Item :=
  ⟨leaf .item "" 1 1, leaf .identifier "A" 1 6, leaf .curlyOpen "" 1 7,
    .number ⟨⟨.value, "", ⟨1, 8⟩⟩, by decide⟩ (leaf .colon "" 1 13)
      ⟨⟨.numberLiteral, "7", ⟨1, 14⟩⟩, rfl, 7, decimal_digit ("7", 7) (by decide)⟩
    (.number ⟨⟨.value, "", ⟨1, 16⟩⟩, by decide⟩ (leaf .colon "" 1 21)
      ⟨⟨.numberLiteral, "8", ⟨1, 22⟩⟩, rfl, 8, decimal_digit ("8", 8) (by decide)⟩
    (.nil (leaf .curlyClose "" 1 23)))⟩

/-- The character, whose health grows by dice. -/
def character : Grammar.Character :=
  ⟨leaf .character "" 2 1, leaf .identifier "B" 2 11, leaf .curlyOpen "" 2 12,
    .stat ⟨⟨.health, "", ⟨2, 13⟩⟩, by decide⟩ (leaf .colon "" 2 19)
      ⟨⟨⟨.numberLiteral, "3", ⟨2, 20⟩⟩, rfl, 3, decimal_digit ("3", 3) (by decide)⟩,
        .some ⟨⟨.multipliesBy, "", ⟨2, 21⟩⟩, by decide⟩ (.dice ⟨⟨.diceLiteral, "1d2", ⟨2, 23⟩⟩, rfl,
          ⟨1, 2⟩, "1", "2", ⟨rfl, by decide⟩, decimal_digit ("1", 1) (by decide),
          decimal_digit ("2", 2) (by decide)⟩)⟩
    (.carried ⟨⟨.reward, "", ⟨2, 27⟩⟩, by decide⟩ (leaf .colon "" 2 33)
      (.last (leaf .identifier "A" 2 34) (.many (leaf .slash "" 2 35)
        ⟨⟨.numberLiteral, "2", ⟨2, 36⟩⟩, rfl, 2, decimal_digit ("2", 2) (by decide)⟩))
    (.nil (leaf .curlyClose "" 2 37)))⟩

/-- The comparison of the loop. -/
def condition : Grammar.Condition :=
  ⟨leaf .roundOpen "" 3 6,
    .expression (.mk (.mk (.var (leaf .identifier "x" 3 7)) .nil) .nil),
    ⟨⟨.lessOrEqual, "", ⟨3, 8⟩⟩, by decide⟩,
    .expression (.mk (.mk (.dice ⟨⟨.diceLiteral, "2d6", ⟨3, 10⟩⟩, rfl, ⟨2, 6⟩, "2", "6",
      ⟨rfl, by decide⟩, decimal_digit ("2", 2) (by decide), decimal_digit ("6", 6) (by decide)⟩)
      .nil) .nil),
    leaf .roundClose "" 3 13⟩

/-- What is shown in the loop. -/
def log : Grammar.Instruction :=
  .log (leaf .questionMark "" 3 15)
    (.expression (.mk (.mk (.number ⟨⟨.numberLiteral, "1", ⟨3, 16⟩⟩, rfl, 1,
      decimal_digit ("1", 1) (by decide)⟩) .nil)
      (.cons ⟨⟨.minus, "", ⟨3, 17⟩⟩, by decide⟩
        (.mk (.var (leaf .identifier "y" 3 18)) .nil) .nil)))
    (leaf .semicolon "" 3 19)

/-- The derivation of the text. -/
def tree : Grammar.Program :=
  [.item item, .character character, .instruction (.loop (leaf .whileWord "" 3 1) condition
    (.mk (leaf .curlyOpen "" 3 14) (.cons log (.nil (leaf .curlyClose "" 3 20)))))]

/-- What the text is read as. Of two values the last counts. -/
def program : Adventure.Program :=
  ⟨[.item ⟨1, "A", none, some 8, none, none, none⟩,
      .character ⟨2, "B", none, none, none, some ⟨3, .multiply, .dice ⟨1, 2⟩⟩, none, none, [], [],
        [⟨"A", 2⟩]⟩],
    [],
    [.loop 3 ⟨.var "x", .lessEqual, .dice ⟨2, 6⟩⟩
      (some [.log 3 (.chain [.number 1, .var "y"] [.sub])])]⟩

/-- The text splits into the tokens of the tree, and so it is read as what the tree stands for. -/
theorem parse_eq_derived :
    (Source.ofString text).tokens.failure = none ∧
      tree.tokens = (Source.ofString text).tokens.items ∧ tree.value = program ∧
      (Source.ofString text).parse = .ok program := by
  have htokens : (Source.ofString text).tokens.failure = none ∧
      tree.tokens = (Source.ofString text).tokens.items := by decide +kernel
  have hvalue : tree.value = program := by rfl
  exact ⟨htokens.1, htokens.2, hvalue, ((parse_eq_ok_iff_derives text).1 program).mpr
    ⟨htokens.1, tree, htokens.2, hvalue⟩⟩

end Bandit

end Adventure
