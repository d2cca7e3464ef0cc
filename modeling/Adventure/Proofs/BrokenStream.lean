import Adventure.Proofs.FinalError
import Adventure.Proofs.WellFormed

/-!
# Streams that break off

A stream can fail behind its last character. Nothing of this shows in the tokens in front of it:
they are those of the same text with a normal end, and only where the end would be there is the
failure (`Source.tokens_breaking`). Readers do not know how the tokens end, so that they refuse the
same tokens as before, unless they got to the end; there, the failure is what they report.

So a text that breaks off is never taken for a program. Reading it fails with the failure of the
stream wherever a text with a normal end is a program or ends too early, and from then on for good;
everywhere else it fails as if nothing had happened (`broken_stream_is_no_end`).
-/

namespace Adventure

open Text Parsing

/-! ## Tokens -/

/-- The source as it is if the stream fails with `text`. -/
def Source.breaking (s : Source) (text : String) : Source :=
  { s with failure := some text }

/-- The tokens as they are if the stream fails with `text` where it has ended. -/
def Tokens.breaking (ts : Tokens) (text : String) : Tokens :=
  { ts with failure := ts.failure.or (some (.unreadable text ts.stop)) }

theorem Tokens.breaking_of_failure {ts : Tokens} {e : LexicalError} (h : ts.failure = some e)
    (text : String) : ts.breaking text = ts := by
  rw [breaking, h, Option.some_or, ← h]

namespace Source

variable {s : Source} {text : String}

/-- Behind the last character there is the failure. -/
theorem token_breaking_of_blank (hs : ∀ c ∈ s.rest, isBlank c = true) :
    (s.breaking text).token =
      (.error (.unreadable text (s.position.after s.rest)), (s.advance s.rest).breaking text) := by
  have hrest : (s.breaking text).rest = s.rest ++ [] := (List.append_nil _).symm
  have hend : ((s.breaking text).advance s.rest).rest = [] := rest_advance_append hrest
  have hfailure : ((s.breaking text).advance s.rest).failure = some text := rfl
  rw [token, skip_isBlank hrest hs halts_nil, tokenHere, hend]
  simp only [hfailure]
  rfl

/-- **The failure stands where the end would be**, and the tokens in front of it are the same. -/
theorem tokens_breaking (h : s.failure = none) (text : String) :
    (s.breaking text).tokens = s.tokens.breaking text := by
  induction hn : s.rest.length using Nat.strong_induction_on generalizing s with
  | _ n ih =>
    obtain ⟨gap, front, hs, hgap, hfront⟩ := front_cases s.rest
    have hbreaking : (s.breaking text).rest = gap ++ front := hs
    rcases hfront with rfl | ⟨kind, value, lexeme, after, rfl, hlexeme, hhalt⟩ |
      ⟨count, mark, after, rfl, hdice⟩ | ⟨body, rfl, hbody⟩
    -- only blanks are left: the one text ends where the other breaks
    · have hblank : ∀ c ∈ s.rest, isBlank c = true := by rwa [hs, List.append_nil]
      rw [tokens_of_end (token_of_blank hblank h) rfl,
        tokens_of_error (token_breaking_of_blank hblank)]
      rfl
    · -- the same lexeme comes first, and less is left behind it
      rw [← List.append_assoc] at hs hbreaking
      have hlt : (s.advance (gap ++ lexeme)).rest.length < n := by
        obtain ⟨x, xs, rfl, -⟩ := hlexeme.exists_cons
        rw [rest_advance_append hs, ← hn, hs]
        simp only [List.length_append, List.length_cons]
        omega
      rw [tokens_of_ok (token_of_lexeme hlexeme hs hgap hhalt) hlexeme.kind_ne,
        tokens_of_ok (token_of_lexeme hlexeme hbreaking hgap hhalt) hlexeme.kind_ne]
      have hend : (s.advance (gap ++ lexeme)).failure = none := h
      have hmore : ((s.breaking text).advance (gap ++ lexeme)).tokens =
          (s.advance (gap ++ lexeme)).tokens.breaking text := ih _ hlt hend rfl
      rw [hmore]
      rfl
    · rw [tokens_of_error (token_of_loneDice hdice hs hgap),
        tokens_of_error (token_of_loneDice hdice hbreaking hgap)]
      rfl
    · rw [tokens_of_error (token_of_openText hs hgap hbody),
        tokens_of_error (token_of_openText hbreaking hgap hbody)]
      rfl

end Source

/-! ## Readings -/

/-- What is left of the tokens after a number of readings, each of which goes on where the one
before has stopped. The first reading is that of `Source.parse`. -/
def Tokens.left (ts : Tokens) : (readings : Nat) → Tokens
  | 0 => ts
  | k + 1 => (ts.left k).parse.2

theorem Tokens.leftOf_left (ts : Tokens) (k : Nat) : ts.LeftOf (ts.left k) := by
  induction k with
  | zero => exact .all
  | succ k ih => exact .next ih

/-- A reading came to the end of the tokens: they are a program, or end too early. -/
def CameToEnd (result : Except ParseError Program) : Prop :=
  (∃ p, result = .ok p) ∨
    ∃ expected got, result = .error (.unexpected expected got) ∧ got.kind = .endOfFile

theorem cameToEnd_ok (p : Program) : CameToEnd (.ok p) :=
  .inl ⟨p, rfl⟩

theorem not_cameToEnd {e : ParseError}
    (h : ∀ expected got, e = .unexpected expected got → got.kind ≠ .endOfFile) :
    ¬CameToEnd (.error e) := by
  rintro (⟨p, hp⟩ | ⟨expected, got, hgot, hend⟩)
  · cases hp
  · exact h expected got (Except.error.inj hgot) hend

theorem not_cameToEnd_lexical (e : LexicalError) : ¬CameToEnd (.error (.lexical e)) :=
  not_cameToEnd fun _ _ h => by cases h

/-- A refusal is for a token that is there, or for the end, behind which there is nothing. -/
theorem program_error_cases {ts : List Token} {reason : Rejection} {rest : List Token}
    (h : program ts = .error ⟨reason, rest⟩) :
    (∃ expected, reason = .ended expected ∧ rest = []) ∨
      reason.IsAboutToken ∧ ∀ expected got, reason = .unexpected expected got → got ∈ ts := by
  cases program_refused h with
  | inside h =>
    cases h with
    | ended => exact .inl ⟨_, rfl, rfl⟩
    | blamed hviable hreason hlocal =>
      refine .inr ⟨hreason.isAboutToken, fun expected got' hgot => ?_⟩
      subst hgot
      cases hreason
      simp
  | between d rest hlocal =>
    refine .inr ⟨trivial, fun expected got' hgot => ?_⟩
    cases hgot
    simp

namespace Tokens

variable {ts : Tokens}

/-- A refusal for a token is reported as it is, and it did not come to the end. -/
theorem toError_of_isAboutToken {reason : Rejection} (habout : reason.IsAboutToken)
    (hitems : ∀ t ∈ ts.items, t.kind ≠ .endOfFile)
    (hmem : ∀ expected got, reason = .unexpected expected got → got ∈ ts.items) :
    (∀ e, reason.toError ts ≠ .lexical e) ∧ ¬CameToEnd (.error (reason.toError ts)) := by
  cases reason with
  | ended => exact habout.elim
  | unexpected expected got =>
    refine ⟨nofun, not_cameToEnd fun expected' got' hgot => ?_⟩
    obtain ⟨rfl, rfl⟩ := ParseError.unexpected.inj hgot
    exact hitems got (hmem expected got rfl)
  | badNumber | badDice => exact ⟨nofun, not_cameToEnd nofun⟩

/-- **A reading of a text that breaks off** ends with the failure if it would have come to the end,
and then nothing is left. Otherwise it ends with the same error as before, which is not that
failure. The tokens that are left are the same. -/
theorem parse_breaking (text : String) (hend : ts.failure = none)
    (hitems : ∀ t ∈ ts.items, t.kind ≠ .endOfFile) :
    (ts.breaking text).parse.2 = ts.parse.2.breaking text ∧
      ((ts.breaking text).parse.1 = .error (.lexical (.unreadable text ts.stop)) ∧
          CameToEnd ts.parse.1 ∧ ts.parse.2.items = [] ∨
        (ts.breaking text).parse.1 = ts.parse.1 ∧ ¬CameToEnd ts.parse.1 ∧
          ts.parse.1 ≠ .error (.lexical (.unreadable text ts.stop))) := by
  have hfailure : (ts.breaking text).failure = some (.unreadable text ts.stop) := by
    rw [breaking, hend, Option.none_or]
  have hsame : (ts.breaking text).items = ts.items := rfl
  unfold parse
  rcases hprogram : program ts.items with ⟨reason, rest⟩ | p
  · simp only [hsame, hprogram]
    refine ⟨rfl, ?_⟩
    rcases program_error_cases hprogram with ⟨expected, rfl, rfl⟩ | ⟨habout, hmem⟩
    · refine .inl ⟨?_, .inr ⟨expected, ts.endToken, ?_, rfl⟩, rfl⟩
      · simp only [Rejection.toError, hfailure]
      · simp only [Rejection.toError, hend]
    · obtain ⟨hlexical, hcame⟩ := toError_of_isAboutToken habout hitems hmem
      rw [habout.toError_eq (ts.breaking text) ts]
      exact .inr ⟨rfl, hcame, fun h => hlexical _ (Except.error.inj h)⟩
  · simp only [hsame, hprogram, hfailure, hend]
    exact ⟨rfl, .inl ⟨trivial, cameToEnd_ok p, trivial⟩⟩

/-- A reading of tokens with a failure behind them comes to no end, and reports no other failure. -/
theorem parse_of_failure {e : LexicalError} (hfailure : ts.failure = some e)
    (hitems : ∀ t ∈ ts.items, t.kind ≠ .endOfFile) :
    ¬CameToEnd ts.parse.1 ∧ ∀ e', ts.parse.1 = .error (.lexical e') → e' = e := by
  unfold parse
  rcases hprogram : program ts.items with ⟨reason, rest⟩ | p
  · simp only
    rcases program_error_cases hprogram with ⟨expected, rfl, rfl⟩ | ⟨habout, hmem⟩
    · simp only [Rejection.toError, hfailure]
      refine ⟨not_cameToEnd_lexical e, fun e' h => ?_⟩
      cases h
      rfl
    · obtain ⟨hlexical, hcame⟩ := toError_of_isAboutToken habout hitems hmem
      exact ⟨hcame, fun e' h => absurd (Except.error.inj h) (hlexical e')⟩
  · simp only [hfailure]
    refine ⟨not_cameToEnd_lexical e, fun e' h => ?_⟩
    cases h
    rfl

/-- Where no token is left, the failure is reported by every reading. -/
theorem parse_of_nothing_left {e : LexicalError} (hfailure : ts.failure = some e)
    (hitems : ts.items = []) : ts.parse = (.error (.lexical e), ts) := by
  obtain ⟨items, failure, stop⟩ := ts
  obtain rfl : items = [] := hitems
  obtain rfl : failure = some e := hfailure
  unfold parse
  simp only [program_nil]

theorem stop_parse (ts : Tokens) : ts.parse.2.stop = ts.stop := by
  unfold parse
  split
  · split <;> rfl
  · rfl

theorem stop_left (ts : Tokens) (k : Nat) : (ts.left k).stop = ts.stop := by
  induction k with
  | zero => rfl
  | succ k ih => exact (stop_parse _).trans ih

/-- Readings leave the same tokens of a text that breaks off. -/
theorem left_breaking (text : String) (hend : ts.failure = none)
    (hitems : ∀ t ∈ ts.items, t.kind ≠ .endOfFile) (k : Nat) :
    (ts.breaking text).left k = (ts.left k).breaking text := by
  induction k with
  | zero => rfl
  | succ k ih =>
    obtain ⟨hfailure, hsuffix⟩ := (ts.leftOf_left k).kept
    rw [left, ih]
    exact (parse_breaking text (hfailure.trans hend) fun t ht => hitems t (hsuffix.subset ht)).1

/-- Where no token is left, none comes back. -/
theorem left_of_nothing_left {e : LexicalError} {k : Nat} (hfailure : ts.failure = some e)
    (hitems : (ts.left (k + 1)).items = []) (j : Nat) :
    (ts.left (k + 1 + j)).parse.1 = .error (.lexical e) := by
  have hkept : (ts.left (k + 1)).failure = some e := (ts.leftOf_left (k + 1)).kept.1.trans hfailure
  have hstays : ∀ j, ts.left (k + 1 + j) = ts.left (k + 1) := by
    intro j
    induction j with
    | zero => rfl
    | succ j ih => rw [← Nat.add_assoc, left, ih, parse_of_nothing_left hkept hitems]
  rw [hstays, parse_of_nothing_left hkept hitems]

end Tokens

/-! ## The main statement -/

/-- The tokens of a text that ends normally. -/
def endedTokens (cs : List Char) : Tokens :=
  (Source.ofChars cs none).tokens

/-- The tokens of a text whose stream fails with `text` behind its last character. -/
def brokenTokens (cs : List Char) (text : String) : Tokens :=
  (Source.ofChars cs (some text)).tokens

/-- The failure, where the text would end. -/
def brokenHere (cs : List Char) (text : String) : LexicalError :=
  .unreadable text (endedTokens cs).endToken.position

theorem brokenTokens_eq (cs : List Char) (text : String) :
    brokenTokens cs text = (endedTokens cs).breaking text := by
  have hend : (Source.ofChars cs none).failure = none := rfl
  exact Source.tokens_breaking hend text

theorem brokenTokens_of_end {cs : List Char} (h : (endedTokens cs).failure = none)
    (text : String) : (brokenTokens cs text).failure = some (brokenHere cs text) := by
  rw [brokenTokens_eq, Tokens.breaking, h, Option.none_or]
  rfl

theorem brokenTokens_of_failure {cs : List Char} {e : LexicalError}
    (h : (endedTokens cs).failure = some e) (text : String) :
    brokenTokens cs text = endedTokens cs := by
  rw [brokenTokens_eq, Tokens.breaking_of_failure h]

/-- No failure of a text that ends normally is one of the stream. -/
theorem ne_brokenHere {cs : List Char} {e : LexicalError} (h : (endedTokens cs).failure = some e)
    (text : String) : brokenHere cs text ≠ e := by
  obtain ⟨before, rest, -, hfinish⟩ := splits_tokens cs
  change Finish before rest (endedTokens cs).failure _ at hfinish
  rw [h] at hfinish
  obtain ⟨place, rfl | rfl⟩ := hfinish.failure_cases <;> exact nofun

/-- A reading of the text that breaks off, beside the same reading of one that ends normally. -/
theorem readings_part (cs : List Char) (text : String) (k : Nat) :
    ((brokenTokens cs text).left k).parse.1 = .error (.lexical (brokenHere cs text)) ∧
        CameToEnd ((endedTokens cs).left k).parse.1 ∧
        (brokenTokens cs text).failure = some (brokenHere cs text) ∧
        ((brokenTokens cs text).left (k + 1)).items = [] ∨
      ((brokenTokens cs text).left k).parse.1 = ((endedTokens cs).left k).parse.1 ∧
        ¬CameToEnd ((endedTokens cs).left k).parse.1 ∧
        ((endedTokens cs).left k).parse.1 ≠ .error (.lexical (brokenHere cs text)) := by
  obtain ⟨hkept, hsuffix⟩ := ((endedTokens cs).leftOf_left k).kept
  have hall : ∀ t ∈ (endedTokens cs).items, t.kind ≠ .endOfFile := fun t ht =>
    kind_ne_of_mem_tokens ht
  have hitems : ∀ t ∈ ((endedTokens cs).left k).items, t.kind ≠ .endOfFile := fun t ht =>
    hall t (hsuffix.subset ht)
  rcases hfailure : (endedTokens cs).failure with - | e
  · obtain ⟨hleft, hparts⟩ := Tokens.parse_breaking text (hkept.trans hfailure) hitems
    rw [Tokens.left, brokenTokens_eq, Tokens.left_breaking text hfailure hall, hleft,
      ← brokenTokens_eq, brokenTokens_of_end hfailure]
    rw [Tokens.stop_left] at hparts
    rcases hparts with ⟨hbroken, hcame, hnothing⟩ | hsame
    · exact .inl ⟨hbroken, hcame, rfl, hnothing⟩
    · exact .inr hsame
  · obtain ⟨hcame, honly⟩ := Tokens.parse_of_failure (hkept.trans hfailure) hitems
    rw [brokenTokens_of_failure hfailure]
    exact .inr ⟨rfl, hcame, fun h => ne_brokenHere hfailure text (honly _ h)⟩

/-- **A stream that fails is not mistaken for one that ends.** The tokens of a text that breaks off
are those of the text, with the failure in place of the end; a text that cannot be split into tokens
fails as before. Reading the text never gives a program. It gives the failure of the stream exactly
where a text with a normal end is a program or ends too early, and else the same error; and after
the failure there is nothing but this failure. All of this holds for later readings too, which go on
where the one before has stopped. -/
theorem broken_stream_is_no_end (cs : List Char) (text : String) :
    ((endedTokens cs).failure = none →
      (endedTokens cs).listed = (brokenTokens cs text).listed ++ [(endedTokens cs).endToken] ∧
      (brokenTokens cs text).failure = some (brokenHere cs text)) ∧
    ((endedTokens cs).failure ≠ none → brokenTokens cs text = endedTokens cs) ∧
    ∀ k, (∀ p, ((brokenTokens cs text).left k).parse.1 ≠ .ok p) ∧
      (((brokenTokens cs text).left k).parse.1 = .error (.lexical (brokenHere cs text)) ↔
        CameToEnd ((endedTokens cs).left k).parse.1) ∧
      (((brokenTokens cs text).left k).parse.1 ≠ .error (.lexical (brokenHere cs text)) →
        ((brokenTokens cs text).left k).parse.1 = ((endedTokens cs).left k).parse.1) ∧
      (((brokenTokens cs text).left k).parse.1 = .error (.lexical (brokenHere cs text)) →
        ∀ j, ((brokenTokens cs text).left (k + j)).parse.1 =
          .error (.lexical (brokenHere cs text))) := by
  refine ⟨fun hend => ⟨?_, brokenTokens_of_end hend text⟩, fun hfailure => ?_, fun k => ?_⟩
  · simp only [Tokens.listed, hend, brokenTokens_of_end hend text]
    rw [brokenTokens_eq]
    rfl
  · obtain ⟨e, he⟩ := Option.ne_none_iff_exists'.mp hfailure
    exact brokenTokens_of_failure he text
  · rcases readings_part cs text k with
      ⟨hbroken, hcame, hfailure, hnothing⟩ | ⟨hsame, hcame, hother⟩
    -- the broken reading has come to the end, where all later ones stay
    · rw [hbroken]
      refine ⟨by simp, ⟨fun _ => hcame, fun _ => rfl⟩, fun h => absurd rfl h, fun _ j => ?_⟩
      rcases j with - | j
      · exact hbroken
      · rw [Nat.add_comm j, ← Nat.add_assoc]
        exact Tokens.left_of_nothing_left hfailure hnothing j
    · rw [hsame]
      exact ⟨fun p hp => hcame (hp ▸ cameToEnd_ok p),
        ⟨fun h => absurd h hother, fun h => absurd h hcame⟩, fun _ => rfl,
        fun h => absurd h hother⟩

/-- A whole `if` without an `else`. -/
def wholeIf : List Char :=
  "if (1 < 1) \x7b\x7d".toList

/-- Where an `else` could follow, the stream fails. The text is not taken for the whole `if` that it
would be, neither at once nor later. -/
theorem if_breaks_off_before_else :
    (∃ p, (Source.ofChars wholeIf none).parse = .ok p) ∧
    (Source.ofChars wholeIf (some "disk")).parse =
      .error (.lexical (.unreadable "disk" ⟨1, 13⟩)) ∧
    ∀ j, ((brokenTokens wholeIf "disk").left j).parse.1 =
      .error (.lexical (.unreadable "disk" ⟨1, 13⟩)) := by
  obtain ⟨p, hp⟩ : ∃ p, (Source.ofChars wholeIf none).parse = .ok p := by
    have hok : (Source.ofChars wholeIf none).parse.isOk = true := by decide +kernel
    rcases hparse : (Source.ofChars wholeIf none).parse with e | p
    · rw [hparse] at hok
      cases hok
    · exact ⟨p, rfl⟩
  have hplace : (endedTokens wholeIf).stop = ⟨1, 13⟩ := by decide +kernel
  have hbroken : brokenHere wholeIf "disk" = .unreadable "disk" ⟨1, 13⟩ :=
    congrArg (LexicalError.unreadable "disk") hplace
  have hcame : CameToEnd ((endedTokens wholeIf).left 0).parse.1 := .inl ⟨p, hp⟩
  obtain ⟨-, -, hreadings⟩ := broken_stream_is_no_end wholeIf "disk"
  obtain ⟨-, hiff, -, hstays⟩ := hreadings 0
  have hfirst := hiff.mpr hcame
  have hlater := hstays hfirst
  simp only [Nat.zero_add, hbroken] at hfirst hlater
  exact ⟨⟨p, hp⟩, hfirst, hlater⟩

end Adventure
