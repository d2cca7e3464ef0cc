import Adventure.Text.Blank
import Adventure.Text.Letter
import Adventure.Token

/-!
# From text to tokens

`Source.token` reads the next token of a source. Blanks before it are skipped. Words and digits are
taken as far as they go, and a symbol of two characters wins over one of one character. A number
directly followed by `d` or `D` is a dice literal and needs digits after it; a text literal runs to
the next double quote, over any lines. Nothing else can go wrong, apart from the stream itself.

`Source.tokens` reads all tokens. It ends because every token takes at least one character.
-/

namespace Adventure

open Text

/-- Why no token could be read. -/
inductive LexicalError where
  /-- a dice literal has no digits after its `d` -/
  | diceWithoutFaces (position : Position)
  /-- a text literal that starts at `position` is not closed -/
  | openString (position : Position)
  /-- the stream failed with `text` -/
  | unreadable (text : String) (position : Position)
  deriving DecidableEq, Repr

namespace LexicalError

/-- The name of the kind of error. -/
def kind : LexicalError → String
  | diceWithoutFaces _ => "DiceLiteralError"
  | openString _ => "StringLiteralError"
  | unreadable _ _ => "ReadError"

/-- What went wrong, in words. -/
def reason : LexicalError → String
  | diceWithoutFaces _ => "Dice literal without the amount of faces"
  | openString _ => "String opening without closing"
  | unreadable text _ => text

/-- Where it went wrong. -/
def position : LexicalError → Position
  | diceWithoutFaces p | openString p | unreadable _ p => p

/-- The whole message. -/
def message (e : LexicalError) : String :=
  s!"{e.kind}: {e.reason}, {e.position.describe}"

/-- The text of the failure behind the error. -/
def cause? : LexicalError → Option String
  | unreadable text _ => some text
  | _ => none

end LexicalError

/-- Whether `c` can stand in a word. -/
def isWordChar (c : Char) : Bool :=
  isLetter c || c == '_'

/-- Whether `c` is a decimal digit. -/
def isDigit (c : Char) : Bool :=
  '0' ≤ c && c ≤ '9'

/-- Whether `c` joins the two numbers of a dice literal. -/
def isDiceMark (c : Char) : Bool :=
  c == 'd' || c == 'D'

namespace Token

/-- The token of a word: a reserved word, or else an identifier. -/
def ofWord (word : String) (position : Position) : Token :=
  match Kind.ofWord? word with
  | some kind => ⟨kind, "", position⟩
  | none => ⟨.identifier, word, position⟩

/-- The token of a symbol that starts with `c` and is followed by `cs`, and the characters it
takes. A character that starts no symbol is a token of its own. -/
def ofSymbol (c : Char) (cs : List Char) (position : Position) : Token × List Char :=
  match cs.head?.bind fun d => (Kind.ofPair? c d).map fun kind => (kind, d) with
  | some (kind, d) => (⟨kind, "", position⟩, [c, d])
  | none =>
    match Kind.ofSingle? c with
    | some kind => (⟨kind, "", position⟩, [c])
    | none => (⟨.unknown, String.singleton c, position⟩, [c])

end Token

namespace Source

/-- The next token of a source whose blanks have been skipped, and the source after it. -/
def tokenHere (s : Source) : Except LexicalError Token × Source :=
  match s.rest with
  | [] =>
    match s.failure with
    | some text => (.error (.unreadable text s.position), s)
    | none => (.ok ⟨.endOfFile, "", s.position⟩, s)
  | c :: cs =>
    let start := s.position.step c
    if isWordChar c then
      let word := c :: cs.takeWhile isWordChar
      (.ok (.ofWord (.ofList word) start), s.advance word)
    else if isDigit c then
      let count := c :: cs.takeWhile isDigit
      match cs.dropWhile isDigit with
      | mark :: more =>
        if isDiceMark mark then
          let faces := more.takeWhile isDigit
          let taken := count ++ mark :: faces
          if faces.isEmpty then
            (.error (.diceWithoutFaces (s.advance taken).position), s.advance taken)
          else
            (.ok ⟨.diceLiteral, .ofList (count ++ 'd' :: faces), start⟩, s.advance taken)
        else
          (.ok ⟨.numberLiteral, .ofList count, start⟩, s.advance count)
      | [] => (.ok ⟨.numberLiteral, .ofList count, start⟩, s.advance count)
    else if c == '"' then
      let body := cs.takeWhile (· != '"')
      match cs.dropWhile (· != '"') with
      | [] => (.error (.openString start), s.advance (c :: body))
      | close :: _ => (.ok ⟨.stringLiteral, .ofList body, start⟩, s.advance (c :: body ++ [close]))
    else
      let (token, taken) := Token.ofSymbol c cs start
      (.ok token, s.advance taken)

/-- The next token of a source, or what is wrong with it, and the source after it. After the end
there are only further ends. -/
def token (s : Source) : Except LexicalError Token × Source :=
  (s.skip isBlank).tokenHere

theorem length_rest_advance_cons_lt {s : Source} {c : Char} {cs : List Char}
    (h : s.rest = c :: cs) (taken : List Char) :
    (s.advance (c :: taken)).rest.length < s.rest.length := by
  simp only [rest_advance, h, List.length_cons, List.drop_succ_cons, List.length_drop]
  omega

/-- **A token takes at least one character**, unless it is the end. -/
theorem length_rest_tokenHere_lt {s s' : Source} {t : Token} (h : s.tokenHere = (.ok t, s'))
    (ht : t.kind ≠ .endOfFile) : s'.rest.length < s.rest.length := by
  unfold tokenHere at h
  split at h
  -- at the end there is an error or the token of the end
  · split at h
    · simp at h
    · simp only [Prod.mk.injEq, Except.ok.injEq] at h
      exact absurd (h.1 ▸ rfl) ht
  · next c cs hs =>
    have key := length_rest_advance_cons_lt hs
    simp only at h
    -- words, numbers and dice, texts, and symbols
    split at h
    · obtain ⟨-, rfl⟩ := Prod.mk.inj h
      exact key _
    split at h
    · split at h
      · split at h
        · split at h
          · simp at h
          · obtain ⟨-, rfl⟩ := Prod.mk.inj h
            exact key _
        · obtain ⟨-, rfl⟩ := Prod.mk.inj h
          exact key _
      · obtain ⟨-, rfl⟩ := Prod.mk.inj h
        exact key _
    split at h
    · split at h
      · simp at h
      · obtain ⟨-, rfl⟩ := Prod.mk.inj h
        exact key _
    · obtain ⟨-, rfl⟩ := Prod.mk.inj h
      -- a symbol has one character or two
      unfold Token.ofSymbol
      split
      · exact key _
      · split <;> exact key _

theorem length_rest_token_lt {s s' : Source} {t : Token} (h : s.token = (.ok t, s'))
    (ht : t.kind ≠ .endOfFile) : s'.rest.length < s.rest.length := by
  refine Nat.lt_of_lt_of_le (length_rest_tokenHere_lt h ht) ?_
  rw [rest_skip]
  exact (List.dropWhile_suffix _).length_le

end Source

/-- All tokens of a source: those before its end, and what stands at the end. -/
structure Tokens where
  /-- the tokens before the end -/
  items : List Token
  /-- what is wrong at the end, if it is not the normal one -/
  failure : Option LexicalError
  /-- the place up to which the source was read -/
  stop : Position
  deriving DecidableEq, Repr

/-- The tokens of a source up to its end or its first error. -/
def Source.tokens (s : Source) : Tokens :=
  match _h : s.token with
  | (.error e, s') => ⟨[], some e, s'.position⟩
  | (.ok t, s') =>
    if _ht : t.kind = .endOfFile then ⟨[], none, s'.position⟩
    else
      let more := s'.tokens
      { more with items := t :: more.items }
termination_by s.rest.length
decreasing_by exact length_rest_token_lt _h _ht

namespace Tokens

/-- The token that marks the normal end. -/
def endToken (ts : Tokens) : Token :=
  ⟨.endOfFile, "", ts.stop⟩

/-- The tokens as a listing shows them: with the end, if it was reached. -/
def listed (ts : Tokens) : List Token :=
  match ts.failure with
  | none => ts.items ++ [ts.endToken]
  | some _ => ts.items

end Tokens

end Adventure
