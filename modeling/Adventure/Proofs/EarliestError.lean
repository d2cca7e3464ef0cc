import Mathlib.Data.List.Nodup
import Adventure.Proofs.Derivation

/-!
# Errors are found as early as they can be

A text that is no program is refused at the first token that no program has there: the tokens before
it can be completed to a program, with each of the kinds that the error names, and with the token
they cannot (`parse_error_earliest`). This is what readers know of their refusals
(`Parsing.program_refused`), brought to texts: a token of a text has one place in it, and tokens
that some text writes can be written behind the text.
-/

namespace Adventure

open Text Parsing

/-! ## Completions -/

/-- The tokens are those of a program. -/
def Parses (us : List Token) : Prop :=
  ∃ p, program us = .ok p

/-- The tokens can be completed to a program. -/
def Extendable (us : List Token) : Prop :=
  ∃ vs : List Token, (∀ v ∈ vs, v.Spelled) ∧ Parses (us ++ vs)

/-- The tokens can be completed to a program that goes on with a token of the kind. -/
def ExtendableBy (us : List Token) (kind : Kind) : Prop :=
  ∃ (v : Token) (vs : List Token), v.kind = kind ∧ (∀ u ∈ v :: vs, u.Spelled) ∧
    Parses (us ++ v :: vs)

/-- The tokens can be completed to a program, but not once `got` stands behind them. If `got` is the
end, they are no program as they stand. -/
structure StuckAt (us : List Token) (got : Token) : Prop where
  extendable : Extendable us
  not_parses : ∀ vs, ¬Parses (us ++ got :: vs)
  not_complete : got.kind = .endOfFile → ¬Parses us

theorem Parses.extendable {us : List Token} (h : Parses us) : Extendable us :=
  ⟨[], by simp, by rwa [List.append_nil]⟩

theorem ExtendableBy.extendable {us : List Token} {kind : Kind} (h : ExtendableBy us kind) :
    Extendable us := by
  obtain ⟨v, vs, -, hspelled, hparses⟩ := h
  exact ⟨v :: vs, hspelled, hparses⟩

theorem parses_tokens (d : Grammar.Program) : Parses d.tokens :=
  ⟨d.value, program_tokens d⟩

theorem Parsing.Viable.extendableBy {us : List Token} {kinds : List Kind}
    (h : Viable Grammar.Program.tokens us kinds) : ∀ kind ∈ kinds, ExtendableBy us kind := by
  intro kind hkind
  obtain ⟨value, faces, hfaces⟩ := h.2 kind hkind
  -- any places will do for the tokens of the completion
  obtain ⟨us', hus'⟩ : ∃ us' : List Token, us'.map Token.face = (kind, value) :: faces :=
    ⟨((kind, value) :: faces).map fun face => ⟨face.1, face.2, .start⟩, by
      rw [List.map_map]
      exact List.map_id' _⟩
  obtain ⟨d, hd⟩ := hfaces.exists_tree us' hus'
  obtain ⟨v, vs, rfl, hv, -⟩ := List.map_eq_cons_iff.mp hus'
  refine ⟨v, vs, congrArg Prod.fst hv, fun u hu => ?_, ?_⟩
  · exact hfaces.spelled u.face (by rw [← hus']; exact List.mem_map_of_mem hu)
  · rw [← hd]
    exact parses_tokens d

theorem Parsing.Viable.endOfFile_not_mem {X : Type} {tokens : X → List Token} {us : List Token}
    {kinds : List Kind} (h : Viable tokens us kinds) : Kind.endOfFile ∉ kinds := by
  intro hmem
  obtain ⟨value, faces, hfaces⟩ := h.2 _ hmem
  obtain ⟨lexeme, hlexeme⟩ := hfaces.spelled _ List.mem_cons_self
  exact hlexeme.kind_ne rfl

theorem Parsing.Viable.extendable {us : List Token} {kinds : List Kind}
    (h : Viable Grammar.Program.tokens us kinds) : Extendable us := by
  obtain ⟨kind, hkind⟩ := List.exists_mem_of_ne_nil kinds h.1
  exact (h.extendableBy kind hkind).extendable

theorem not_parses_of_error {us : List Token} {e : Refusal} (h : program us = .error e) :
    ¬Parses us := by
  rintro ⟨p, hp⟩
  rw [h] at hp
  cases hp

/-- The kinds are those that can stand behind `us`; the end is one of them only if `us` is a program
already. -/
structure Expects (us : List Token) (kinds : List Kind) : Prop where
  parses : Kind.endOfFile ∈ kinds → Parses us
  extendableBy : ∀ kind ∈ kinds, kind ≠ .endOfFile → ExtendableBy us kind

theorem Parsing.Viable.expects {us : List Token} {kinds : List Kind}
    (h : Viable Grammar.Program.tokens us kinds) : Expects us kinds where
  parses := fun hmem => absurd hmem h.endOfFile_not_mem
  extendableBy := fun kind hkind _ => h.extendableBy kind hkind

/-- Between two parts of a program another part can begin, or the program can end. -/
theorem expects_statementStart (d : Grammar.Program) : Expects d.tokens statementStart where
  parses := fun _ => parses_tokens d
  extendableBy := by
    intro kind hkind hne
    have hviable := viable_part.program d
    rw [List.append_nil] at hviable
    refine hviable.extendableBy kind ?_
    rw [show statementStart = partStart ++ [.endOfFile] from rfl] at hkind
    rcases List.mem_append.mp hkind with hkind | hkind
    · exact hkind
    · exact absurd (List.mem_singleton.mp hkind) hne

/-! ## Places of tokens -/

/-- Tokens of a text stand at different places. -/
theorem items_nodup (cs : List Char) : (Source.ofChars cs none).tokens.items.Nodup := by
  obtain ⟨before, rest, hlexed, -⟩ := splits_tokens cs
  refine hlexed.pairwise_position.imp ?_
  rintro t u hbefore rfl
  exact hbefore.ne rfl

theorem kind_ne_of_mem_tokens {cs : List Char} {t : Token}
    (ht : t ∈ (Source.ofChars cs none).tokens.items) : t.kind ≠ .endOfFile := by
  obtain ⟨lexeme, hlexeme⟩ := spelled_of_mem_tokens ht
  exact hlexeme.kind_ne

theorem listed_nodup (cs : List Char) : (Source.ofChars cs none).tokens.listed.Nodup := by
  unfold Tokens.listed
  split
  · refine List.nodup_append.mpr ⟨items_nodup cs, List.nodup_singleton _, ?_⟩
    intro t ht u hu
    rintro rfl
    rw [List.mem_singleton.mp hu] at ht
    exact kind_ne_of_mem_tokens ht rfl
  · exact items_nodup cs

/-- In a list without repetitions, what stands behind `us` has one index. -/
theorem getElem?_eq_some_iff_of_nodup {α : Type} {us vs : List α} {x : α}
    (h : (us ++ x :: vs).Nodup) (j : Nat) : (us ++ x :: vs)[j]? = some x ↔ j = us.length := by
  have hget : (us ++ x :: vs)[us.length]? = some x := by simp
  constructor
  · intro hj
    obtain ⟨hlt, -⟩ := List.getElem?_eq_some_iff.mp hj
    exact (List.getElem?_inj hlt h).mp (hj.trans hget.symm)
  · rintro rfl
    exact hget

/-! ## Errors of a text -/

/-- The tokens of a text. -/
def tokensOf (text : String) : Tokens :=
  (Source.ofString text).tokens

/-- `Blames kinds got error`: the error is about the token `got`, where one of `kinds` could
stand. -/
inductive Blames (kinds : List Kind) (got : Token) : ParseError → Prop where
  | unexpected : Blames kinds got (.unexpected kinds got)
  | badNumber (fault : Numeral.Fault) : Blames kinds got (.badNumber got fault)
  | badDice (half : String) (fault : Numeral.Fault) : Blames kinds got (.badDice got half fault)

/-- How a text is refused. -/
inductive TextRefused (text : String) : ParseError → Prop where
  /-- its tokens are all right, but there is no next one -/
  | lexical {e : LexicalError} (hfailure : (tokensOf text).failure = some e)
      (hextendable : Extendable (tokensOf text).items) : TextRefused text (.lexical e)
  /-- it ends too early -/
  | ended {kinds : List Kind} (hfailure : (tokensOf text).failure = none)
      (hviable : Viable Grammar.Program.tokens (tokensOf text).items kinds)
      (hstuck : StuckAt (tokensOf text).items (tokensOf text).endToken) :
      TextRefused text (.unexpected kinds (tokensOf text).endToken)
  /-- one of its tokens is to blame -/
  | blamed {us vs : List Token} {kinds : List Kind} {got : Token} {error : ParseError}
      (hitems : (tokensOf text).items = us ++ got :: vs) (hexpects : Expects us kinds)
      (hstuck : StuckAt us got) (hblames : Blames kinds got error) : TextRefused text error

theorem stuckAt_of_items {text : String} {us vs : List Token} {got : Token}
    (hitems : (tokensOf text).items = us ++ got :: vs) (hextendable : Extendable us)
    (hparses : ∀ vs, ¬Parses (us ++ got :: vs)) : StuckAt us got := by
  have hmem : got ∈ (tokensOf text).items := by simp [hitems]
  exact ⟨hextendable, hparses, fun hend => absurd hend (kind_ne_of_mem_tokens hmem)⟩

theorem textRefused_of_refuses {text : String} {reason : Rejection} {rest : List Token}
    (hparses : ¬Parses (tokensOf text).items)
    (h : Refuses program Grammar.Program.tokens (tokensOf text).items ⟨reason, rest⟩) :
    TextRefused text (reason.toError (tokensOf text)) := by
  generalize hitems : (tokensOf text).items = items at h
  cases h with
  | ended hviable hend =>
    subst hitems
    -- where the tokens end, either the text does or its next token cannot be read
    rcases hfailure : (tokensOf text).failure with - | e
    · simp only [Rejection.toError, hfailure]
      refine .ended hfailure hviable ⟨hviable.extendable, fun vs => ?_, fun _ => hparses⟩
      exact not_parses_of_error (hend _ vs rfl)
    · simp only [Rejection.toError, hfailure]
      exact .lexical hfailure hviable.extendable
  | @blamed before _ kinds _ got hviable hreason hlocal =>
    refine .blamed hitems hviable.expects (stuckAt_of_items hitems hviable.extendable ?_) ?_
    · exact fun vs => not_parses_of_error (hlocal vs)
    cases hreason with
    | unexpected => exact .unexpected
    | badNumber fault => exact .badNumber fault
    | badDice half fault => exact .badDice half fault

/-- **Every error of a text is one of three sorts.** -/
theorem textRefused {text : String} {error : ParseError}
    (h : (Source.ofString text).parse = .error error) : TextRefused text error := by
  have hparse : (tokensOf text).parse.1 = .error error := h
  unfold Tokens.parse at hparse
  rcases hprogram : program (tokensOf text).items with ⟨reason, rest⟩ | p
  · simp only [hprogram] at hparse
    obtain rfl := Except.error.inj hparse
    generalize hitems : (tokensOf text).items = items at hprogram
    cases program_refused hprogram with
    | inside h =>
      subst hitems
      exact textRefused_of_refuses (not_parses_of_error hprogram) h
    | @between d got rest hlocal =>
      -- a token that was read is not the end of the file, so any beginning of a statement is expected
      have hmem : got ∈ (tokensOf text).items := by simp [hitems]
      have hexpected : expectedBetween got = statementStart :=
        if_neg (kind_ne_of_mem_tokens hmem)
      refine .blamed hitems (expects_statementStart d)
        (stuckAt_of_items hitems (parses_tokens d).extendable ?_) ?_
      · exact fun vs => not_parses_of_error (hlocal vs)
      · rw [hexpected]
        exact .unexpected
  · -- the tokens are a program, so it is the failure behind them that is reported
    rcases hfailure : (tokensOf text).failure with - | e
    · simp only [hprogram, hfailure] at hparse
      cases hparse
    · simp only [hprogram, hfailure] at hparse
      obtain rfl := Except.error.inj hparse
      exact .lexical hfailure (Parses.extendable ⟨p, hprogram⟩)

/-! ## Writing a completion -/

/-- Tokens that some text writes are written by some text with blanks between them. -/
theorem exists_spells {faces : List (Kind × String)}
    (h : ∀ face ∈ faces, ∃ lexeme, Lexeme face.1 face.2 lexeme) :
    ∃ cs : List Char, ∀ gap : List Char, (∀ c ∈ gap, isBlank c = true) →
      ∃ rest : List Char, (∀ c ∈ rest, isBlank c = true) ∧ Spells (gap ++ cs) faces rest := by
  induction faces with
  | nil => exact ⟨[], fun gap hgap => ⟨gap, hgap, by rw [List.append_nil]; exact .nil gap⟩⟩
  | cons face faces ih =>
    obtain ⟨⟨lexeme, hlexeme⟩, hfaces⟩ := List.forall_mem_cons.mp h
    obtain ⟨cs, hcs⟩ := ih hfaces
    obtain ⟨rest, hrest, hspells⟩ := hcs [' '] isBlank_of_mem_space
    refine ⟨lexeme ++ ([' '] ++ cs), fun gap hgap => ⟨rest, hrest, ?_⟩⟩
    rw [← List.append_assoc]
    refine Spells.cons hgap hlexeme ?_ hspells
    exact halts_cons.mpr (growsBy_of_isBlank (isBlank_of_mem_space ' ' List.mem_cons_self) _)

/-- What can go on can be written on: behind a newline, some text makes a program of it. -/
theorem exists_completion {text : String} {kinds : List Kind}
    (hfailure : (tokensOf text).failure = none)
    (hviable : Viable Grammar.Program.tokens (tokensOf text).items kinds) :
    ∃ more p, (Source.ofString (text ++ "\n" ++ more)).parse = .ok p := by
  obtain ⟨kind, hkind⟩ := List.exists_mem_of_ne_nil kinds hviable.1
  obtain ⟨value, faces, hfaces⟩ := hviable.2 kind hkind
  obtain ⟨cs, hcs⟩ := exists_spells hfaces.spelled
  -- the text is read up to its last blanks, and the completion behind them
  obtain ⟨before, rest, hlexed, hfinish⟩ := splits_tokens text.toList
  have hblank : ∀ c ∈ rest ++ ['\n'], isBlank c = true := by
    rw [show (Source.ofChars text.toList none).tokens.failure = none from hfailure] at hfinish
    intro c hc
    rcases List.mem_append.mp hc with hc | hc
    · exact hfinish.isBlank_of_mem c hc
    · rw [List.mem_singleton.mp hc]
      decide
  obtain ⟨rest', hrest', hspells⟩ := hcs _ hblank
  obtain ⟨us, before', hus, hfaces'⟩ := hspells before
  have hextra : ∀ kind : Kind, Halts kind.growsBy ('\n' :: cs) := fun kind =>
    halts_cons.mpr (growsBy_of_isBlank (hblank '\n' (by simp)) kind)
  rw [List.append_assoc] at hus
  have hsplits : Splits (text.toList ++ '\n' :: cs)
      ⟨(tokensOf text).items ++ us, none, placeAfter (before' ++ rest')⟩ :=
    ⟨before', rest', (hlexed.append hextra).trans hus, .done hrest'⟩
  have hmore : Source.ofString (text ++ "\n" ++ .ofList cs) =
      Source.ofChars (text.toList ++ '\n' :: cs) none := by
    simp [Source.ofString]
  obtain ⟨d, hd⟩ := hfaces.exists_tree us hfaces'
  refine ⟨.ofList cs, d.value, ?_⟩
  rw [hmore, Source.parse_eq_ok_iff, hsplits.tokens_eq]
  refine ⟨rfl, ?_⟩
  rw [← hd]
  exact program_tokens d

/-! ## The main statement -/

/-- A token of the text has one index, and the tokens before it are those before the index. -/
theorem exists_index {text : String} {us vs : List Token} {got : Token}
    (hitems : (tokensOf text).items = us ++ got :: vs) :
    ∃ i, (∀ j, (tokensOf text).listed[j]? = some got ↔ j = i) ∧
      (tokensOf text).items.take i = us := by
  have hnodup : (tokensOf text).listed.Nodup := listed_nodup text.toList
  obtain ⟨vs', hlisted⟩ : ∃ vs', (tokensOf text).listed = us ++ got :: vs' := by
    unfold Tokens.listed
    split
    · exact ⟨vs ++ [(tokensOf text).endToken], by simp [hitems]⟩
    · exact ⟨vs, hitems⟩
  rw [hlisted] at hnodup ⊢
  exact ⟨us.length, getElem?_eq_some_iff_of_nodup hnodup, by rw [hitems, List.take_left]⟩

/-- The end has the index behind all tokens. -/
theorem exists_index_end {text : String} (hfailure : (tokensOf text).failure = none) :
    ∃ i, (∀ j, (tokensOf text).listed[j]? = some (tokensOf text).endToken ↔ j = i) ∧
      (tokensOf text).items.take i = (tokensOf text).items := by
  have hlisted : (tokensOf text).listed = (tokensOf text).items ++ [(tokensOf text).endToken] := by
    rw [Tokens.listed, hfailure]
  have hnodup : (tokensOf text).listed.Nodup := listed_nodup text.toList
  rw [hlisted] at hnodup ⊢
  exact ⟨_, getElem?_eq_some_iff_of_nodup hnodup, List.take_length⟩

/-- **Errors are found as early as they can be.** An unexpected token has one place among the tokens
of the text, the end counting as the last of them. The tokens before it can be completed to a
program; they are one already if the end is among the expected kinds, and can go on with every other
expected kind; no program begins with them and the token. Likewise for a literal that does not fit.
If there is no next token, the tokens before can be completed. And a text that only ends too early
becomes a program if the right text is written behind it, on a new line. -/
theorem parse_error_earliest (text : String) :
    (∀ expected got, (Source.ofString text).parse = .error (.unexpected expected got) →
      ∃ i, (∀ j, (tokensOf text).listed[j]? = some got ↔ j = i) ∧
        StuckAt ((tokensOf text).items.take i) got ∧
        Expects ((tokensOf text).items.take i) expected) ∧
    (∀ literal fault, (Source.ofString text).parse = .error (.badNumber literal fault) →
      ∃ i, (∀ j, (tokensOf text).listed[j]? = some literal ↔ j = i) ∧
        StuckAt ((tokensOf text).items.take i) literal) ∧
    (∀ literal half fault, (Source.ofString text).parse = .error (.badDice literal half fault) →
      ∃ i, (∀ j, (tokensOf text).listed[j]? = some literal ↔ j = i) ∧
        StuckAt ((tokensOf text).items.take i) literal) ∧
    (∀ e, (Source.ofString text).parse = .error (.lexical e) →
      (tokensOf text).failure = some e ∧ Extendable (tokensOf text).items) ∧
    (∀ expected got, (Source.ofString text).parse = .error (.unexpected expected got) →
      got.kind = .endOfFile →
      ∃ more p, (Source.ofString (text ++ "\n" ++ more)).parse = .ok p) := by
  refine ⟨?_, ?_, ?_, ?_, ?_⟩
  · intro expected got h
    cases textRefused h with
    | ended hfailure hviable hstuck =>
      -- the end stands behind all tokens, so the tokens before it are all there are
      obtain ⟨i, hplace, htake⟩ := exists_index_end hfailure
      exact ⟨i, hplace, by rwa [htake], by rw [htake]; exact hviable.expects⟩
    | blamed hitems hexpects hstuck hblames =>
      obtain ⟨i, hplace, rfl⟩ := exists_index hitems
      cases hblames with
      | unexpected => exact ⟨i, hplace, hstuck, hexpects⟩
  · intro literal fault h
    cases textRefused h with
    | blamed hitems hexpects hstuck hblames =>
      obtain ⟨i, hplace, rfl⟩ := exists_index hitems
      cases hblames with
      | badNumber => exact ⟨i, hplace, hstuck⟩
  · intro literal half fault h
    cases textRefused h with
    | blamed hitems hexpects hstuck hblames =>
      obtain ⟨i, hplace, rfl⟩ := exists_index hitems
      cases hblames with
      | badDice => exact ⟨i, hplace, hstuck⟩
  · intro e h
    cases textRefused h with
    | lexical hfailure hextendable => exact ⟨hfailure, hextendable⟩
    -- a token is never blamed for what the lexer could not read
    | blamed hitems hexpects hstuck hblames => cases hblames
  · intro expected got h hgot
    cases textRefused h with
    | ended hfailure hviable hstuck => exact exists_completion hfailure hviable
    | blamed hitems hexpects hstuck hblames =>
      cases hblames with
      | unexpected =>
        -- a token that was read is not the end of the file
        have hmem : got ∈ (tokensOf text).items := by simp [hitems]
        exact absurd hgot (kind_ne_of_mem_tokens hmem)

/-- Programs cannot be compared, but whether a result is a given error can be decided. -/
instance decidableEqError {ε α : Type} [DecidableEq ε] (result : Except ε α) (e : ε) :
    Decidable (result = .error e) :=
  match result with
  | .ok _ => isFalse nofun
  | .error _ => decidable_of_iff _ (Except.error.injEq ..).symm.to_iff

/-- A value that is missing, closed too early, too large, or not a token at all. -/
theorem parse_errors_behind_log :
    (∃ i, (∀ j, (tokensOf "? )").listed[j]? = some ⟨.roundClose, "", ⟨1, 3⟩⟩ ↔ j = i) ∧
      StuckAt ((tokensOf "? )").items.take i) ⟨.roundClose, "", ⟨1, 3⟩⟩ ∧
      Expects ((tokensOf "? )").items.take i) primaryStart) ∧
    (∃ i, (∀ j, (tokensOf "?9223372036854775808").listed[j]? =
        some ⟨.numberLiteral, "9223372036854775808", ⟨1, 2⟩⟩ ↔ j = i) ∧
      StuckAt ((tokensOf "?9223372036854775808").items.take i)
        ⟨.numberLiteral, "9223372036854775808", ⟨1, 2⟩⟩) ∧
    (∃ i, (∀ j, (tokensOf "?2D9223372036854775808").listed[j]? =
        some ⟨.diceLiteral, "2d9223372036854775808", ⟨1, 2⟩⟩ ↔ j = i) ∧
      StuckAt ((tokensOf "?2D9223372036854775808").items.take i)
        ⟨.diceLiteral, "2d9223372036854775808", ⟨1, 2⟩⟩) ∧
    ((tokensOf "? \"").failure = some (.openString ⟨1, 3⟩) ∧
      Extendable (tokensOf "? \"").items) ∧
    ∃ more p, (Source.ofString ("?" ++ "\n" ++ more)).parse = .ok p := by
  -- one text for each kind of error
  have hclosed : (Source.ofString "? )").parse =
      .error (.unexpected primaryStart ⟨.roundClose, "", ⟨1, 3⟩⟩) := by decide +kernel
  have hnumber : (Source.ofString "?9223372036854775808").parse =
      .error (.badNumber ⟨.numberLiteral, "9223372036854775808", ⟨1, 2⟩⟩ .outOfRange) := by
    decide +kernel
  have hdice : (Source.ofString "?2D9223372036854775808").parse =
      .error (.badDice ⟨.diceLiteral, "2d9223372036854775808", ⟨1, 2⟩⟩ "9223372036854775808"
        .outOfRange) := by decide +kernel
  have hopen : (Source.ofString "? \"").parse = .error (.lexical (.openString ⟨1, 3⟩)) := by
    decide +kernel
  have hended : (Source.ofString "?").parse =
      .error (.unexpected primaryStart ⟨.endOfFile, "", ⟨1, 1⟩⟩) := by decide +kernel
  exact ⟨(parse_error_earliest "? )").1 _ _ hclosed,
    (parse_error_earliest "?9223372036854775808").2.1 _ _ hnumber,
    (parse_error_earliest "?2D9223372036854775808").2.2.1 _ _ _ hdice,
    (parse_error_earliest "? \"").2.2.2.1 _ hopen,
    (parse_error_earliest "?").2.2.2.2 _ _ hended rfl⟩

end Adventure
