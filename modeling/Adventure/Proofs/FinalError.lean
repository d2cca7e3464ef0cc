import Adventure.Proofs.EarliestError
import Adventure.Session

/-!
# Errors that more text does not mend

A text that is no program, and not only because it ends too early, stays none: whatever is written
behind it on new lines, it is refused with the same error (`parse_error_append`). Two things keep
the error where it is. A newline continues no lexeme, so the tokens that are there stay the same
(`exists_items_append`), and so does a failure at dice without faces
(`tokens_append_of_diceWithoutFaces`). And tokens are refused for a token without a look at what
stands behind it (`program_append_of_error`).

Hence a conversation that stops collecting lines has not given up too early: it holds a command, a
program, or a text that no further lines make a program of.
-/

namespace Adventure

open Text Parsing

/-! ## Tokens in front of a new line -/

theorem halts_newline (kind : Kind) (more : List Char) : Halts kind.growsBy ('\n' :: more) :=
  halts_cons.mpr (growsBy_of_isBlank (by decide) kind)

/-- Text on a new line adds tokens behind those that are there. -/
theorem exists_items_append (cs more : List Char) :
    ∃ us, (Source.ofChars (cs ++ '\n' :: more) none).tokens.items =
      (Source.ofChars cs none).tokens.items ++ us := by
  obtain ⟨before, rest, hlexed, -⟩ := splits_tokens cs
  have hmore := (hlexed.append fun kind => halts_newline kind more).tokens_behind
  exact ⟨_, congrArg Tokens.items hmore⟩

/-- Dice without faces get none from a new line. -/
theorem Finish.append_of_diceWithoutFaces {before rest : List Char} {place stop : Position}
    (h : Finish before rest (some (.diceWithoutFaces place)) stop) (more : List Char) :
    Finish before (rest ++ '\n' :: more) (some (.diceWithoutFaces place)) stop := by
  cases h with
  | @loneDice gap count after mark hgap hdice =>
    obtain ⟨hne, hcount, hmark, hafter⟩ := hdice
    have hhalts : Halts isDigit (after ++ '\n' :: more) := by
      rcases after with - | ⟨c, after⟩
      · exact halts_cons.mpr (by decide)
      · exact halts_cons.mpr (halts_cons.mp hafter)
    have hsplit : gap ++ (count ++ mark :: after) ++ '\n' :: more =
        gap ++ (count ++ mark :: (after ++ '\n' :: more)) := by simp
    rw [hsplit]
    exact .loneDice hgap ⟨hne, hcount, hmark, hhalts⟩

/-- A text that fails at dice without faces is read no further, whatever follows. -/
theorem tokens_append_of_diceWithoutFaces {cs : List Char} {place : Position}
    (h : (Source.ofChars cs none).tokens.failure = some (.diceWithoutFaces place))
    (more : List Char) :
    (Source.ofChars (cs ++ '\n' :: more) none).tokens = (Source.ofChars cs none).tokens := by
  obtain ⟨before, rest, hlexed, hfinish⟩ := splits_tokens cs
  refine Splits.tokens_eq ⟨before, rest ++ '\n' :: more, ?_, ?_⟩
  · exact hlexed.append fun kind => halts_newline kind more
  · rw [h] at hfinish ⊢
    exact hfinish.append_of_diceWithoutFaces more

/-- The only failures of a text that ends normally are dice without faces and open texts. -/
theorem Finish.failure_cases {before rest : List Char} {e : LexicalError} {stop : Position}
    (h : Finish before rest (some e) stop) :
    ∃ place, e = .diceWithoutFaces place ∨ e = .openString place := by
  cases h with
  | loneDice => exact ⟨_, .inl rfl⟩
  | openText => exact ⟨_, .inr rfl⟩

/-! ## Refusals in front of more tokens -/

/-- The reason is about a token, and not about there being none. -/
def Parsing.Rejection.IsAboutToken : Rejection → Prop
  | .ended _ => False
  | _ => True

theorem Parsing.Rejection.Blames.isAboutToken {reason : Rejection} {kinds : List Kind}
    {got : Token} (h : reason.Blames kinds got) : reason.IsAboutToken := by
  cases h <;> trivial

/-- What is wrong with a token does not depend on how the source ends. -/
theorem Parsing.Rejection.IsAboutToken.toError_eq {reason : Rejection} (h : reason.IsAboutToken)
    (ts ts' : Tokens) : reason.toError ts = reason.toError ts' := by
  cases reason with
  | ended kinds => exact h.elim
  | unexpected | badNumber | badDice => rfl

/-- Tokens that are refused for one of them are refused for it with any others behind them. -/
theorem program_append_of_error {ts : List Token} {reason : Rejection} {rest : List Token}
    (h : program ts = .error ⟨reason, rest⟩) :
    (∃ kinds, reason = .ended kinds) ∨
      reason.IsAboutToken ∧ ∀ us, ∃ rest', program (ts ++ us) = .error ⟨reason, rest'⟩ := by
  cases program_refused h with
  | inside h =>
    cases h with
    | ended => exact .inl ⟨_, rfl⟩
    | blamed hviable hreason hlocal =>
      refine .inr ⟨hreason.isAboutToken, fun us => ⟨rest ++ us, ?_⟩⟩
      rw [List.append_assoc]
      exact hlocal (rest ++ us)
  | between d _ hlocal =>
    refine .inr ⟨trivial, fun us => ⟨rest ++ us, ?_⟩⟩
    rw [List.append_assoc]
    exact hlocal (rest ++ us)

/-! ## The main statement -/

/-- A text that no next token can be read of, but not because a text in it is open, has the same
error with anything on new lines behind it. -/
theorem parse_append_of_lexical {cs : List Char} {e : LexicalError}
    (hfailure : (Source.ofChars cs none).tokens.failure = some e)
    (hfinal : (ParseError.lexical e).isIncomplete = false) (more : List Char) :
    (Source.ofChars (cs ++ '\n' :: more) none).parse = (Source.ofChars cs none).parse := by
  obtain ⟨before, rest, -, hfinish⟩ := splits_tokens cs
  rw [hfailure] at hfinish
  obtain ⟨place, rfl | rfl⟩ := hfinish.failure_cases
  · rw [Source.parse, tokens_append_of_diceWithoutFaces hfailure, Source.parse]
  · cases hfinal

theorem parse_error_append {cs : List Char} {e : ParseError}
    (h : (Source.ofChars cs none).parse = .error e) (hfinal : e.isIncomplete = false)
    (more : List Char) : (Source.ofChars (cs ++ '\n' :: more) none).parse = .error e := by
  have hparse := h
  unfold Source.parse Tokens.parse at hparse
  rcases hprogram : program (Source.ofChars cs none).tokens.items with ⟨reason, rest⟩ | p
  · simp only [hprogram, Except.error.injEq] at hparse
    rcases program_append_of_error hprogram with ⟨kinds, rfl⟩ | ⟨habout, hmore⟩
    · -- the tokens ended: either the text did, or its next token cannot be read
      rcases hfailure : (Source.ofChars cs none).tokens.failure with - | lexical
      · simp only [Rejection.toError, hfailure] at hparse
        subst hparse
        cases hfinal
      · simp only [Rejection.toError, hfailure] at hparse
        subst hparse
        rw [parse_append_of_lexical hfailure hfinal, h]
    -- the refusal depends on tokens that are there already, and so it stays with more behind them
    · obtain ⟨us, hus⟩ := exists_items_append cs more
      obtain ⟨rest', hrest'⟩ := hmore us
      rw [← hus] at hrest'
      unfold Source.parse Tokens.parse
      simp only [hrest']
      rw [← hparse, habout.toError_eq]
  · -- the tokens are a program, so it is the failure behind them that is reported
    rcases hfailure : (Source.ofChars cs none).tokens.failure with - | lexical
    · simp only [hprogram, hfailure] at hparse
      cases hparse
    · simp only [hprogram, hfailure, Except.error.injEq] at hparse
      subst hparse
      rw [parse_append_of_lexical hfailure hfinal, h]

theorem ofString_newline (text more : String) :
    Source.ofString (text ++ "\n" ++ more) =
      Source.ofChars (text.toList ++ '\n' :: more.toList) none := by
  simp [Source.ofString]

/-- **A final error is final.** If a text is refused, and not because it ends too early, it is
refused with the same error whatever stands on new lines behind it. So lines are collected for as
long as they can become a program: where a conversation collects no more, and what it has is neither
a command nor a program, no further lines make it one. -/
theorem final_parse_error_stays (text more : String) :
    (∀ e, (Source.ofString text).parse = .error e → e.isIncomplete = false →
      (Source.ofString (text ++ "\n" ++ more)).parse = .error e) ∧
    (Input.isOpen text = false → (∀ name, trimmed text.toList ≠ ':' :: name) →
      (∀ p, (Source.ofString text).parse ≠ .ok p) →
      ∀ p, (Source.ofString (text ++ "\n" ++ more)).parse ≠ .ok p) := by
  have hstays : ∀ e, (Source.ofString text).parse = .error e → e.isIncomplete = false →
      (Source.ofString (text ++ "\n" ++ more)).parse = .error e := by
    intro e h hfinal
    rw [ofString_newline]
    exact parse_error_append h hfinal more.toList
  refine ⟨hstays, fun hclosed hcommand hprogram p hp => ?_⟩
  rcases hparse : (Source.ofString text).parse with e | q
  · have hfinal : e.isIncomplete = false := by
      unfold Input.isOpen at hclosed
      split at hclosed
      · next name htrimmed => exact absurd htrimmed (hcommand name)
      · rw [show (Source.ofChars text.toList none).parse = .error e from hparse] at hclosed
        exact hclosed
    rw [hstays e hparse hfinal] at hp
    cases hp
  · exact hprogram q hparse

/-- Faces on the next line are no faces of the dice, and `>` and `=` on two lines are no `>=`. -/
theorem final_parse_errors_at_line_end :
    (Source.ofString "? 2d").parse = .error (.lexical (.diceWithoutFaces ⟨1, 4⟩)) ∧
    (Source.ofString ("? 2d" ++ "\n" ++ "6;")).parse =
      .error (.lexical (.diceWithoutFaces ⟨1, 4⟩)) ∧
    Input.isOpen "a >" = false ∧
    ∀ p, (Source.ofString ("a >" ++ "\n" ++ "= b;")).parse ≠ .ok p := by
  have hdice : (Source.ofString "? 2d").parse = .error (.lexical (.diceWithoutFaces ⟨1, 4⟩)) := by
    decide +kernel
  have hsign : (Source.ofString "a >").parse =
      .error (.unexpected afterIdentifier ⟨.moreThan, "", ⟨1, 3⟩⟩) := by decide +kernel
  have hclosed : Input.isOpen "a >" = false := by decide +kernel
  have htrimmed : trimmed "a >".toList = ['a', ' ', '>'] := by decide +kernel
  refine ⟨hdice, (final_parse_error_stays "? 2d" "6;").1 _ hdice rfl, hclosed,
    (final_parse_error_stays "a >" "= b;").2 hclosed ?_ ?_⟩
  · intro name
    rw [htrimmed]
    simp
  · intro p
    rw [hsign]
    simp

end Adventure
