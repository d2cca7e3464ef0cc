import Adventure.Proofs.Lexeme

/-!
# Texts as sequences of lexemes

A text splits into lexemes with blanks between them, up to its end or to a place where no token can
be read. `Splits` says what such a split is, without saying how it is found: the lexemes are those
of the tokens, none is continued by what follows it, and every token tells the place of its first
character, counted in the text before it.

The main statement, `tokens_eq_iff_splits`, is that `Source.tokens` finds the split of every text
and that there is only one. The rest of the module is about texts put together from parts:
`Lexed.trans` joins two readings, `Lexed.append` adds text that continues no lexeme, and `Spells`
forgets the places.
-/

namespace Adventure

open Text

/-! ## Places -/

/-- The place after the text `cs`: the line is one more than the newlines in it, the column is the
number of characters after the last one. -/
def placeAfter (cs : List Char) : Position :=
  ⟨cs.count '\n' + 1, (cs.reverse.takeWhile (· != '\n')).length⟩

/-- A character more is a step further. -/
theorem step_placeAfter (cs : List Char) (c : Char) :
    (placeAfter cs).step c = placeAfter (cs ++ [c]) := by
  by_cases h : c = '\n'
  · simp [placeAfter, Position.step, h]
  · simp [placeAfter, Position.step, h, List.count_append]

/-- More characters are so many steps further. -/
theorem after_placeAfter (cs ds : List Char) :
    (placeAfter cs).after ds = placeAfter (cs ++ ds) := by
  induction ds generalizing cs with
  | nil => simp
  | cons d ds ih => rw [Position.after_cons, step_placeAfter, ih, List.append_assoc]; rfl

/-- The place `p` comes before the place `q`. -/
def Position.Before (p q : Position) : Prop :=
  p.line < q.line ∨ p.line = q.line ∧ p.column < q.column

theorem Position.Before.trans {p q r : Position} (h₁ : p.Before q) (h₂ : q.Before r) :
    p.Before r := by
  simp only [Position.Before] at h₁ h₂ ⊢
  omega

theorem Position.Before.ne {p q : Position} (h : p.Before q) : p ≠ q := by
  rintro rfl
  simp only [Position.Before] at h
  omega

/-- A place with more characters before it comes later. -/
theorem placeAfter_before {cs ds : List Char} (h : ds ≠ []) :
    (placeAfter cs).Before (placeAfter (cs ++ ds)) := by
  have hstep : ∀ (cs : List Char) (d : Char), (placeAfter cs).Before (placeAfter (cs ++ [d])) := by
    intro cs d
    rw [← step_placeAfter]
    unfold Position.step Position.Before
    split
    · exact .inl (Nat.lt_succ_self _)
    · exact .inr ⟨rfl, Nat.lt_succ_self _⟩
  induction ds generalizing cs with
  | nil => exact absurd rfl h
  | cons d ds ih =>
    rcases ds with - | ⟨e, ds⟩
    · exact hstep cs d
    · have hmore : (placeAfter (cs ++ [d])).Before (placeAfter (cs ++ [d] ++ e :: ds)) :=
        ih (by simp)
      rw [List.append_assoc] at hmore
      exact (hstep cs d).trans hmore

/-! ## Readings of a text -/

/-- `Lexed before cs ts before' rest`: where the text `before` has been read and `cs` is to come,
the tokens `ts` are read off, and then `before'` has been read and `rest` is to come. -/
inductive Lexed : List Char → List Char → List Token → List Char → List Char → Prop where
  /-- nothing is read -/
  | nil (before rest : List Char) : Lexed before rest [] before rest
  /-- a token is read behind some blanks -/
  | cons {before gap lexeme rest before' rest' : List Char} {kind : Kind} {value : String}
      {ts : List Token} (hgap : ∀ c ∈ gap, isBlank c = true) (hlexeme : Lexeme kind value lexeme)
      (hrest : Halts kind.growsBy rest)
      (more : Lexed (before ++ gap ++ lexeme) rest ts before' rest') :
      Lexed before (gap ++ lexeme ++ rest)
        (⟨kind, value, placeAfter (before ++ gap ++ lexeme.take 1)⟩ :: ts) before' rest'

/-- `Finish before rest failure stop`: where the text `before` has been read, there is no further
token in `rest`, for the reason `failure` unless the text just ends, and reading stops at `stop`. -/
inductive Finish (before : List Char) : List Char → Option LexicalError → Position → Prop where
  /-- only blanks are left -/
  | done {rest : List Char} (hrest : ∀ c ∈ rest, isBlank c = true) :
      Finish before rest none (placeAfter (before ++ rest))
  /-- a number and a dice mark come next, and no digit after them -/
  | loneDice {gap count after : List Char} {mark : Char} (hgap : ∀ c ∈ gap, isBlank c = true)
      (hdice : LoneDice count mark after) :
      Finish before (gap ++ (count ++ mark :: after))
        (some (.diceWithoutFaces (placeAfter (before ++ gap ++ count ++ [mark]))))
        (placeAfter (before ++ gap ++ count ++ [mark]))
  /-- a double quote comes next, and no other one after it -/
  | openText {gap body : List Char} (hgap : ∀ c ∈ gap, isBlank c = true) (hbody : '"' ∉ body) :
      Finish before (gap ++ '"' :: body)
        (some (.openString (placeAfter (before ++ gap ++ ['"']))))
        (placeAfter (before ++ (gap ++ '"' :: body)))

/-- The text `cs` splits into the tokens `ts`. -/
def Splits (cs : List Char) (ts : Tokens) : Prop :=
  ∃ before rest, Lexed [] cs ts.items before rest ∧ Finish before rest ts.failure ts.stop

/-- The source that has `rest` to come after `before` was read, and ends normally. -/
def Source.behind (before rest : List Char) : Source :=
  ⟨rest, placeAfter before, none⟩

/-- Reading characters takes a source behind them. -/
theorem Source.advance_behind (before cs rest : List Char) :
    (Source.behind before (cs ++ rest)).advance cs = Source.behind (before ++ cs) rest := by
  simp only [Source.behind, Source.advance, List.drop_left, after_placeAfter]

/-- No lexeme ends the text. -/
theorem Lexeme.kind_ne {kind : Kind} {value : String} {cs : List Char}
    (h : Lexeme kind value cs) : kind ≠ .endOfFile := by
  cases h with
  | fixed h =>
    rintro rfl
    cases h
  | identifier | number | dice | text | stray => decide

namespace Source

/-- Nothing is read after an error. -/
theorem tokens_of_error {s s' : Source} {e : LexicalError} (h : s.token = (.error e, s')) :
    s.tokens = ⟨[], some e, s'.position⟩ := by
  rw [tokens]
  split
  · next e' s'' h' =>
    obtain ⟨rfl, rfl⟩ : e = e' ∧ s' = s'' := by simpa using h.symm.trans h'
    rfl
  · next h' => simp [h] at h'

/-- Nothing is read after the end. -/
theorem tokens_of_end {s s' : Source} {t : Token} (h : s.token = (.ok t, s'))
    (ht : t.kind = .endOfFile) : s.tokens = ⟨[], none, s'.position⟩ := by
  rw [tokens]
  split
  · next h' => simp [h] at h'
  · next t' s'' h' =>
    obtain ⟨rfl, rfl⟩ : t = t' ∧ s' = s'' := by simpa using h.symm.trans h'
    rw [dif_pos ht]

/-- A token is read before the others. -/
theorem tokens_of_ok {s s' : Source} {t : Token} (h : s.token = (.ok t, s'))
    (ht : t.kind ≠ .endOfFile) :
    s.tokens = { s'.tokens with items := t :: s'.tokens.items } := by
  rw [tokens]
  split
  · next h' => simp [h] at h'
  · next t' s'' h' =>
    obtain ⟨rfl, rfl⟩ : t = t' ∧ s' = s'' := by simpa using h.symm.trans h'
    rw [dif_neg ht]

end Source

/-! ## The reader finds the split -/

/-- Reading on after a reading gives its tokens first. -/
theorem Lexed.tokens_behind {before cs before' rest : List Char} {ts : List Token}
    (h : Lexed before cs ts before' rest) :
    (Source.behind before cs).tokens =
      { (Source.behind before' rest).tokens with
        items := ts ++ (Source.behind before' rest).tokens.items } := by
  induction h with
  | nil before rest => rfl
  | @cons before gap lexeme rest before' rest' kind value ts hgap hlexeme hrest more ih =>
    have htoken := Source.token_of_lexeme (s := .behind before (gap ++ lexeme ++ rest)) hlexeme rfl
      hgap hrest
    rw [Source.advance_behind] at htoken
    rw [Source.tokens_of_ok htoken hlexeme.kind_ne, ← List.append_assoc, ih]
    simp only [Source.behind, after_placeAfter, List.append_assoc, List.cons_append]

/-- A text that is finished has no more tokens. -/
theorem Finish.tokens_behind {before rest : List Char} {failure : Option LexicalError}
    {stop : Position} (h : Finish before rest failure stop) :
    (Source.behind before rest).tokens = ⟨[], failure, stop⟩ := by
  cases h with
  | done hrest =>
    rw [Source.tokens_of_end (Source.token_of_blank hrest rfl) rfl]
    simp only [Source.behind, Source.position_advance, after_placeAfter]
  | loneDice hgap hdice =>
    rw [Source.tokens_of_error (Source.token_of_loneDice hdice rfl hgap)]
    simp only [Source.behind, Source.position_advance, after_placeAfter, List.append_assoc]
  | openText hgap hbody =>
    rw [Source.tokens_of_error (Source.token_of_openText rfl hgap hbody)]
    simp only [Source.behind, Source.position_advance, after_placeAfter, List.append_assoc]

/-- Every text can be read up to a place where no further token is. The induction is on the length
of what is to come, which every lexeme shortens. -/
theorem exists_lexed (before cs : List Char) :
    ∃ ts before' rest failure stop, Lexed before cs ts before' rest ∧
      Finish before' rest failure stop := by
  induction hn : cs.length using Nat.strong_induction_on generalizing before cs with
  | _ n ih =>
    obtain ⟨gap, front, rfl, hgap, hfront⟩ := front_cases cs
    rcases hfront with rfl | ⟨kind, value, lexeme, after, rfl, hlexeme, hhalt⟩ |
      ⟨count, mark, after, rfl, hdice⟩ | ⟨body, rfl, hbody⟩
    · rw [List.append_nil]
      exact ⟨[], before, gap, _, _, .nil _ _, .done hgap⟩
    · obtain ⟨x, xs, rfl, -⟩ := hlexeme.exists_cons
      have hlt : after.length < n := by
        simp only [List.length_append, List.length_cons] at hn
        omega
      obtain ⟨ts, before', rest, failure, stop, hts, hstop⟩ :=
        ih _ hlt (before ++ gap ++ x :: xs) after rfl
      rw [← List.append_assoc]
      exact ⟨_, before', rest, failure, stop, .cons hgap hlexeme hhalt hts, hstop⟩
    · exact ⟨[], before, _, _, _, .nil _ _, .loneDice hgap hdice⟩
    · exact ⟨[], before, _, _, _, .nil _ _, .openText hgap hbody⟩

/-- A text has the tokens it is split into. -/
theorem Splits.tokens_eq {cs : List Char} {ts : Tokens} (h : Splits cs ts) :
    (Source.ofChars cs none).tokens = ts := by
  obtain ⟨before, rest, hts, hstop⟩ := h
  have htokens := hts.tokens_behind
  rw [hstop.tokens_behind, List.append_nil] at htokens
  exact htokens

/-- Every text is split into its tokens. -/
theorem splits_tokens (cs : List Char) : Splits cs (Source.ofChars cs none).tokens := by
  obtain ⟨ts, before, rest, failure, stop, hts, hstop⟩ := exists_lexed [] cs
  have hsplits : Splits cs ⟨ts, failure, stop⟩ := ⟨before, rest, hts, hstop⟩
  rw [hsplits.tokens_eq]
  exact hsplits

/-- A reading neither loses nor adds text. -/
theorem Lexed.append_eq {before cs before' rest : List Char} {ts : List Token}
    (h : Lexed before cs ts before' rest) : before ++ cs = before' ++ rest := by
  induction h with
  | nil => rfl
  | cons hgap hlexeme hrest more ih => rw [← ih]; simp only [List.append_assoc]

/-- Reading stops at the end of a text without errors. -/
theorem Finish.stop_eq {before rest : List Char} {stop : Position}
    (h : Finish before rest none stop) : stop = placeAfter (before ++ rest) := by
  cases h with
  | done hrest => rfl

/-- Only blanks are left at the end of a text without errors. -/
theorem Finish.isBlank_of_mem {before rest : List Char} {stop : Position}
    (h : Finish before rest none stop) : ∀ c ∈ rest, isBlank c = true := by
  cases h with
  | done hrest => exact hrest

/-- **The tokens of a text are its only split.** The reader finds the split of every text, so it
neither loses nor makes up text, takes every lexeme as far as it goes, and fails only at dice
without faces and at texts that are not closed. A listing has the mark of the end behind the tokens,
at the place after the whole text, exactly if nothing failed. -/
theorem tokens_eq_iff_splits (cs : List Char) :
    (∀ ts, (Source.ofChars cs none).tokens = ts ↔ Splits cs ts) ∧
      (Source.ofChars cs none).tokens.listed =
        (Source.ofChars cs none).tokens.items ++
          (if (Source.ofChars cs none).tokens.failure = none
            then [⟨.endOfFile, "", placeAfter cs⟩] else []) := by
  refine ⟨fun ts => ⟨fun h => h ▸ splits_tokens cs, Splits.tokens_eq⟩, ?_⟩
  obtain ⟨before, rest, hts, hstop⟩ := splits_tokens cs
  rcases hfailure : (Source.ofChars cs none).tokens.failure with - | e
  · rw [hfailure] at hstop
    have hplace := hstop.stop_eq
    rw [← hts.append_eq, List.nil_append] at hplace
    rw [Tokens.listed, hfailure, if_pos rfl]
    simp only [Tokens.endToken, hplace]
  · rw [Tokens.listed, hfailure, if_neg (by simp), List.append_nil]

/-! ## Texts put together -/

namespace Lexed

variable {before cs before' rest : List Char} {ts : List Token}

/-- Two readings, the second where the first ends, are one. -/
theorem trans {before'' rest' : List Char} {us : List Token} (h : Lexed before cs ts before' rest)
    (h' : Lexed before' rest us before'' rest') : Lexed before cs (ts ++ us) before'' rest' := by
  induction h with
  | nil => exact h'
  | cons hgap hlexeme hrest more ih => exact .cons hgap hlexeme hrest (ih h')

/-- Where text is left, there was some. -/
theorem ne_nil (h : Lexed before cs ts before' rest) (hrest : rest ≠ []) : cs ≠ [] := by
  cases h with
  | nil => exact hrest
  | cons hgap hlexeme hhalt more =>
    obtain ⟨x, xs, rfl, -⟩ := hlexeme.exists_cons
    simp

/-- More text can be added behind a reading, if it does not continue a lexeme at its end. -/
theorem append_of_halts {extra : List Char} (h : Lexed before cs ts before' rest)
    (hextra : rest = [] → ∀ kind : Kind, Halts kind.growsBy extra) :
    Lexed before (cs ++ extra) ts before' (rest ++ extra) := by
  induction h with
  | nil => exact .nil _ _
  | @cons before gap lexeme rest before' rest' kind value ts hgap hlexeme hrest more ih =>
    rw [List.append_assoc _ rest]
    refine .cons hgap hlexeme ?_ (ih hextra)
    rcases rest with - | ⟨c, rest⟩
    · exact hextra (not_imp_not.mp more.ne_nil rfl) kind
    · rwa [List.cons_append, halts_cons, ← halts_cons]

/-- Text that continues no lexeme can be added behind a reading. -/
theorem append {extra : List Char} (h : Lexed before cs ts before' rest)
    (hextra : ∀ kind : Kind, Halts kind.growsBy extra) :
    Lexed before (cs ++ extra) ts before' (rest ++ extra) :=
  h.append_of_halts fun _ => hextra

/-- Blanks in front are read with those of the first token. -/
theorem blank {gap : List Char} (h : Lexed (before ++ gap) cs ts before' rest) (hts : ts ≠ [])
    (hgap : ∀ c ∈ gap, isBlank c = true) : Lexed before (gap ++ cs) ts before' rest := by
  cases h with
  | nil => exact absurd rfl hts
  | @cons _ gap' lexeme cs' _ _ kind value ts hgap' hlexeme hrest more =>
    have hblank : ∀ c ∈ gap ++ gap', isBlank c = true := List.forall_mem_append.mpr ⟨hgap, hgap'⟩
    rw [List.append_assoc before] at more ⊢
    rw [← List.append_assoc gap, ← List.append_assoc gap]
    exact .cons hblank hlexeme hrest more

/-- Every token read stands behind what was read before. -/
theorem before_position (h : Lexed before cs ts before' rest) :
    ∀ t ∈ ts, (placeAfter before).Before t.position := by
  induction h with
  | nil => simp
  | @cons before gap lexeme rest before' rest' kind value ts hgap hlexeme hrest more ih =>
    obtain ⟨x, xs, rfl, -⟩ := hlexeme.exists_cons
    intro t ht
    rcases List.mem_cons.mp ht with rfl | ht
    · simp only [List.append_assoc]
      exact placeAfter_before (by simp)
    · refine Position.Before.trans ?_ (ih t ht)
      rw [List.append_assoc]
      exact placeAfter_before (by simp)

/-- The tokens read stand one behind the other. -/
theorem pairwise_position (h : Lexed before cs ts before' rest) :
    ts.Pairwise fun t u => t.position.Before u.position := by
  induction h with
  | nil => exact .nil
  | @cons before gap lexeme rest before' rest' kind value ts hgap hlexeme hrest more ih =>
    refine List.pairwise_cons.mpr ⟨fun u hu => ?_, ih⟩
    have hu' := more.before_position u hu
    obtain ⟨x, xs, rfl, -⟩ := hlexeme.exists_cons
    rcases xs with - | ⟨y, ys⟩
    · exact hu'
    · refine Position.Before.trans ?_ hu'
      have hsplit : before ++ gap ++ x :: y :: ys = before ++ gap ++ [x] ++ y :: ys := by simp
      rw [hsplit]
      exact placeAfter_before (by simp)

end Lexed

/-- What a token is, apart from where it stands. -/
def Token.face (t : Token) : Kind × String :=
  (t.kind, t.value)

/-- The text `cs` begins with tokens of the given faces, and `rest` follows them. -/
def Spells (cs : List Char) (faces : List (Kind × String)) (rest : List Char) : Prop :=
  ∀ before, ∃ ts before', Lexed before cs ts before' rest ∧ ts.map Token.face = faces

namespace Spells

variable {cs rest : List Char} {faces : List (Kind × String)}

/-- Nothing spells nothing. -/
theorem nil (rest : List Char) : Spells rest [] rest :=
  fun before => ⟨[], before, .nil _ _, rfl⟩

/-- A lexeme behind blanks is one face more. -/
theorem cons {gap lexeme rest' : List Char} {kind : Kind} {value : String}
    (hgap : ∀ c ∈ gap, isBlank c = true) (hlexeme : Lexeme kind value lexeme)
    (hrest : Halts kind.growsBy rest) (more : Spells rest faces rest') :
    Spells (gap ++ lexeme ++ rest) ((kind, value) :: faces) rest' := by
  intro before
  obtain ⟨ts, before', hts, hfaces⟩ := more (before ++ gap ++ lexeme)
  exact ⟨_, before', .cons hgap hlexeme hrest hts, by rw [List.map_cons, hfaces]; rfl⟩

/-- Blanks may stand before what is spelled. -/
theorem blank {gap : List Char} (h : Spells cs faces rest) (hfaces : faces ≠ [])
    (hgap : ∀ c ∈ gap, isBlank c = true) : Spells (gap ++ cs) faces rest := by
  intro before
  obtain ⟨ts, before', hts, rfl⟩ := h (before ++ gap)
  exact ⟨ts, before', hts.blank (by simpa using hfaces) hgap, rfl⟩

/-- What is spelled in two parts is spelled. -/
theorem append {faces' : List (Kind × String)} {rest' : List Char} (h : Spells cs faces rest)
    (h' : Spells rest faces' rest') : Spells cs (faces ++ faces') rest' := by
  intro before
  obtain ⟨ts, before', hts, hfaces⟩ := h before
  obtain ⟨us, before'', hus, hfaces'⟩ := h' before'
  exact ⟨ts ++ us, before'', hts.trans hus, by rw [List.map_append, hfaces, hfaces']⟩

end Spells

end Adventure
