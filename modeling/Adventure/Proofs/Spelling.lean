import Adventure.Proofs.Lexing

/-!
# Writing tokens

Tokens can be written and read again. A `Piece` is a token that can be written, with what is free in
writing it, and `joined` puts the spellings of pieces one behind the other, with blanks between
them.

The main statement, `tokens_joined`, is that reading such a text gives the pieces back. It takes
that every piece is written as a lexeme of its kind (`Piece.lexeme_spelling`) and that a blank ends
every lexeme, so that none runs into the next one.
-/

namespace Adventure

open Text

/-! ## Pieces -/

/-- A row of digits. -/
structure Digits where
  /-- the digits -/
  chars : List Char
  ne_nil : chars ≠ []
  isDigit_of_mem : ∀ c ∈ chars, isDigit c = true

/-- A word that is not reserved. -/
structure FreeWord where
  /-- the letters and underscores -/
  chars : List Char
  ne_nil : chars ≠ []
  isWordChar_of_mem : ∀ c ∈ chars, isWordChar c = true
  free : ∀ kind : Kind, kind.spelling? ≠ some (.ofList chars)

/-- Blanks that stand between two tokens: at least one. -/
structure Gap where
  /-- the blanks -/
  chars : List Char
  ne_nil : chars ≠ []
  isBlank_of_mem : ∀ c ∈ chars, isBlank c = true

/-- A token that can be written. -/
inductive Piece where
  /-- a reserved word, an operator or a punctuation mark -/
  | fixed (kind : Kind) (h : kind.spelling?.isSome = true)
  /-- a name -/
  | identifier (word : FreeWord)
  /-- a number -/
  | number (digits : Digits)
  /-- a dice literal, with a capital mark or a small one -/
  | dice (count faces : Digits) (capital : Bool)
  /-- a text that has no double quote in it -/
  | text (body : List Char) (h : '"' ∉ body)
  /-- a character that starts no token of any other kind -/
  | stray (c : Char) (h : IsStray c)

namespace Piece

/-- The kind and the text of the token. The mark of a dice literal is small. -/
def face : Piece → Kind × String
  | fixed kind _ => (kind, "")
  | identifier word => (.identifier, .ofList word.chars)
  | number digits => (.numberLiteral, .ofList digits.chars)
  | dice count faces _ => (.diceLiteral, .ofList (count.chars ++ 'd' :: faces.chars))
  | text body _ => (.stringLiteral, .ofList body)
  | stray c _ => (.unknown, .singleton c)

/-- The characters that write the token. -/
def spelling : Piece → List Char
  | fixed kind h => (kind.spelling?.get h).toList
  | identifier word => word.chars
  | number digits => digits.chars
  | dice count faces capital => count.chars ++ (if capital then 'D' else 'd') :: faces.chars
  | text body _ => '"' :: body ++ ['"']
  | stray c _ => [c]

end Piece

/-- The pieces, written one behind the other, with the given gaps between them. -/
def joined (gap : Nat → Gap) : List Piece → List Char
  | [] => []
  | [p] => p.spelling
  | p :: q :: more => p.spelling ++ (gap 0).chars ++ joined (fun i => gap (i + 1)) (q :: more)

/-! ## Pieces are lexemes -/

theorem Piece.lexeme_spelling (p : Piece) : Lexeme p.face.1 p.face.2 p.spelling := by
  cases p with
  | fixed kind h => exact .fixed (Option.some_get h).symm
  | identifier word => exact .identifier word.ne_nil word.isWordChar_of_mem word.free
  | number digits => exact .number digits.ne_nil digits.isDigit_of_mem
  | dice count faces capital =>
    have hmark : isDiceMark (if capital then 'D' else 'd') = true := by
      cases capital <;> decide
    exact .dice count.ne_nil count.isDigit_of_mem hmark faces.ne_nil faces.isDigit_of_mem
  | text body h => exact .text h
  | stray c h => exact .stray h

/-! ## Reading what is written -/

/-- Blanks continue no lexeme. -/
theorem Gap.halts (g : Gap) (kind : Kind) (rest : List Char) :
    Halts kind.growsBy (g.chars ++ rest) := by
  obtain ⟨c, cs, hchars⟩ := List.exists_cons_of_ne_nil g.ne_nil
  have hc : isBlank c = true := g.isBlank_of_mem c (by simp [hchars])
  rw [hchars, List.cons_append, halts_cons]
  exact growsBy_of_isBlank hc kind

/-- One piece more is read if what follows does not continue it. -/
theorem Spells.piece {p : Piece} {rest rest' : List Char} {faces : List (Kind × String)}
    (hrest : Halts p.face.1.growsBy rest) (more : Spells rest faces rest') :
    Spells (p.spelling ++ rest) (p.face :: faces) rest' := by
  have hpiece : Spells ([] ++ p.spelling ++ rest) (p.face :: faces) rest' :=
    .cons (by simp) p.lexeme_spelling hrest more
  exact hpiece

/-- A gap is read with the piece behind it, so every piece is read up to its own end. -/
theorem spells_joined (gap : Nat → Gap) (ps : List Piece) :
    Spells (joined gap ps) (ps.map Piece.face) [] := by
  fun_induction joined gap ps with
  | case1 => exact .nil []
  | case2 gap p =>
    have hpiece := Spells.piece (p := p) halts_nil (.nil [])
    rwa [List.append_nil] at hpiece
  | case3 gap p q more ih =>
    have hmore : Spells ((gap 0).chars ++ joined (fun i => gap (i + 1)) (q :: more))
        ((q :: more).map Piece.face) [] := ih.blank (by simp) (gap 0).isBlank_of_mem
    rw [List.append_assoc]
    exact .piece ((gap 0).halts _ _) hmore

/-- **Tokens that are written can be read.** If tokens of any kinds are written one behind the
other, with blanks of any kind and number between them, then reading the text finds exactly these
tokens, with their kinds and texts and in their order, and then the end. Dice literals have a small
mark however they are written. -/
theorem tokens_joined (gap : Nat → Gap) (ps : List Piece) :
    (Source.ofChars (joined gap ps) none).tokens.failure = none ∧
      (Source.ofChars (joined gap ps) none).tokens.listed.map Token.face =
        ps.map Piece.face ++ [(.endOfFile, "")] := by
  obtain ⟨ts, before, hts, hfaces⟩ := spells_joined gap ps []
  have hsplits : Splits (joined gap ps) ⟨ts, none, placeAfter (before ++ [])⟩ :=
    ⟨before, [], hts, .done (by simp)⟩
  rw [hsplits.tokens_eq]
  refine ⟨rfl, ?_⟩
  rw [Tokens.listed, List.map_append, hfaces]
  rfl

/-- One digit. -/
def Digits.two : Digits :=
  ⟨['2'], by decide, List.forall_mem_singleton.mpr (by decide)⟩

/-- A word that begins like a reserved one. -/
def FreeWord.iff : FreeWord where
  chars := ['i', 'f', 'f']
  ne_nil := by decide
  isWordChar_of_mem := List.all_eq_true.mp (by decide +kernel)
  free kind := by cases kind <;> decide

/-- A line break. -/
def Gap.newline : Gap :=
  ⟨['\n'], by decide, List.forall_mem_singleton.mpr (by decide)⟩

/-- Tokens of every sort, some of which would run into the next one without a gap. -/
def Piece.medley : List Piece :=
  [.fixed .ifWord rfl, .identifier .iff, .fixed .moreThan rfl, .fixed .attackMove rfl,
    .number .two, .dice .two .two true, .text ['i', 'f'] (by decide),
    .stray '$' ⟨by decide, by decide, by decide, by decide, fun kind => by cases kind <;> decide⟩]

/-- Each on a line of its own, they are read one by one. -/
theorem tokens_medley :
    joined (fun _ => .newline) Piece.medley = "if\niff\n>\n>>\n2\n2D2\n\"if\"\n$".toList ∧
      (Source.ofChars (joined (fun _ => .newline) Piece.medley) none).tokens.listed.map Token.face =
        [(.ifWord, ""), (.identifier, "iff"), (.moreThan, ""), (.attackMove, ""),
          (.numberLiteral, "2"), (.diceLiteral, "2d2"), (.stringLiteral, "if"), (.unknown, "$"),
          (.endOfFile, "")] :=
  ⟨by decide, (tokens_joined (fun _ => .newline) Piece.medley).2⟩

end Adventure
