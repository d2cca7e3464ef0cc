import Adventure.Proofs.BrokenStream
import Adventure.Proofs.ParserCalls

/-!
# Asking for tokens

What a source answers when it is asked for a token (`Source.Asked`), and where a parser stands that
asks a source: it awaits some of the tokens of the source, and then the end (`Parser.Awaits`). The
number in it is a limit for how often the source will have been asked when all of these tokens are
taken and the end was seen. Looking ahead and taking tokens keep that limit.

`Parser.Tracks` says that a reading comes to the same as a reader of lists of tokens.
-/

namespace Adventure

open Text Parsing

/-! ## What a source answers -/

namespace Source

/-- What comes of asking the source for a token: an answer, and what is left. -/
inductive Asked (s : Source) : Except LexicalError Token → Source → Prop where
  /-- a token was taken -/
  | taken {t : Token} {s' : Source} (hkind : t.kind ≠ .endOfFile)
      (hless : s'.rest.length < s.rest.length) : Asked s (.ok t) s'
  /-- there is only the end, here and from here on -/
  | ended {s' : Source} (hagain : s'.token = (.ok ⟨.endOfFile, "", s'.position⟩, s')) :
      Asked s (.ok ⟨.endOfFile, "", s'.position⟩) s'
  /-- what comes next is no token -/
  | malformed {e : LexicalError} {s' : Source} (hless : s'.rest.length < s.rest.length) :
      Asked s (.error e) s'
  /-- the stream has failed -/
  | unreadable (text : String) (position : Position) {s' : Source} :
      Asked s (.error (.unreadable text position)) s'

/-- Behind the end there is only the end. -/
theorem token_advance_of_blank {s : Source} (h : s.failure = none) :
    (s.advance s.rest).token =
      (.ok ⟨.endOfFile, "", (s.advance s.rest).position⟩, s.advance s.rest) := by
  have hrest : (s.advance s.rest).rest = [] := by rw [rest_advance, List.drop_length]
  have hblank : ∀ c ∈ (s.advance s.rest).rest, isBlank c = true := by
    rw [hrest]
    exact fun c hc => absurd hc List.not_mem_nil
  have htoken := token_of_blank hblank h
  rw [hrest, Position.after_nil] at htoken
  have hstays : (s.advance s.rest).advance [] = s.advance s.rest := rfl
  rw [htoken, hstays]

/-- **What a source answers**, by the shapes that its text can begin with. -/
theorem asked (s : Source) : s.Asked s.token.1 s.token.2 := by
  obtain ⟨gap, front, hs, hgap, hfront⟩ := front_cases s.rest
  rcases hfront with rfl | ⟨kind, value, lexeme, after, rfl, hlexeme, hhalt⟩ |
    ⟨count, mark, after, rfl, hdice⟩ | ⟨body, rfl, hbody⟩
  · have hblank : ∀ c ∈ s.rest, isBlank c = true := by rwa [hs, List.append_nil]
    rcases hfailure : s.failure with - | text
    · rw [token_of_blank hblank hfailure]
      exact .ended (token_advance_of_blank hfailure)
    · have hbreaking : s.breaking text = s := by rw [breaking, ← hfailure]
      rw [← hbreaking, token_breaking_of_blank hblank]
      exact .unreadable text _
  · rw [← List.append_assoc] at hs
    have htoken := token_of_lexeme hlexeme hs hgap hhalt
    rw [htoken]
    exact .taken hlexeme.kind_ne (length_rest_token_lt htoken hlexeme.kind_ne)
  · rw [token_of_loneDice hdice hs hgap]
    refine .malformed ?_
    simp only [rest_advance, hs, List.length_drop, List.length_append, List.length_cons]
    omega
  · rw [token_of_openText hs hgap hbody]
    refine .malformed ?_
    simp only [rest_advance, hs, List.length_drop, List.length_append, List.length_cons]
    omega

theorem asked_of_token {s s' : Source} {answer : Except LexicalError Token}
    (h : s.token = (answer, s')) : s.Asked answer s' := by
  have hasked := s.asked
  rwa [h] at hasked

/-- There are no more tokens than characters. -/
theorem length_items_tokens_le (s : Source) : s.tokens.items.length ≤ s.rest.length := by
  induction hn : s.rest.length using Nat.strong_induction_on generalizing s with
  | _ n ih =>
    rcases htoken : s.token with ⟨answer, s'⟩
    cases asked_of_token htoken with
    | taken hkind hless =>
      have hmore := ih s'.rest.length (by omega) s' rfl
      rw [tokens_of_ok htoken hkind, List.length_cons]
      omega
    | ended => rw [tokens_of_end htoken rfl]; exact Nat.zero_le n
    | malformed => rw [tokens_of_error htoken]; exact Nat.zero_le n
    | unreadable => rw [tokens_of_error htoken]; exact Nat.zero_le n

section Tokens

variable {s : Source} {ts : Tokens}

/-- Where a token comes next, that is the answer. -/
theorem token_of_tokens_cons {t : Token} {items : List Token}
    (h : s.tokens = { ts with items := t :: items }) :
    t.kind ≠ .endOfFile ∧ ∃ s', s.token = (.ok t, s') ∧ s'.tokens = { ts with items := items } := by
  rcases htoken : s.token with ⟨answer, s'⟩
  cases asked_of_token htoken with
  | taken hkind hless =>
    rw [tokens_of_ok htoken hkind] at h
    obtain ⟨hitems, hfailure, hstop⟩ := Tokens.mk.inj h
    obtain ⟨rfl, rfl⟩ := List.cons.inj hitems
    refine ⟨hkind, s', rfl, ?_⟩
    rw [← hfailure, ← hstop]
  | ended =>
    rw [tokens_of_end htoken rfl] at h
    cases (Tokens.mk.inj h).1
  | malformed =>
    rw [tokens_of_error htoken] at h
    cases (Tokens.mk.inj h).1
  | unreadable =>
    rw [tokens_of_error htoken] at h
    cases (Tokens.mk.inj h).1

/-- Where no token comes next, the answer is how the source ends. -/
theorem token_of_tokens_nil (h : s.tokens = { ts with items := [] }) :
    (∃ e s', ts.failure = some e ∧ s.token = (.error e, s')) ∨
      ∃ s', ts.failure = none ∧ s.token = (.ok ts.endToken, s') ∧
        s'.token = (.ok ts.endToken, s') := by
  rcases htoken : s.token with ⟨answer, s'⟩
  cases asked_of_token htoken with
  | taken hkind hless =>
    rw [tokens_of_ok htoken hkind] at h
    cases (Tokens.mk.inj h).1
  | ended hagain =>
    rw [tokens_of_end htoken rfl] at h
    obtain ⟨-, hfailure, hstop⟩ := Tokens.mk.inj h
    refine .inr ⟨s', hfailure.symm, ?_, ?_⟩
    · rw [Tokens.endToken, ← hstop]
    · rw [Tokens.endToken, ← hstop]
      exact hagain
  | malformed =>
    rw [tokens_of_error htoken] at h
    exact .inl ⟨_, s', (Tokens.mk.inj h).2.1.symm, rfl⟩
  | unreadable =>
    rw [tokens_of_error htoken] at h
    exact .inl ⟨_, s', (Tokens.mk.inj h).2.1.symm, rfl⟩

/-- A source that answers with the end has no tokens. -/
theorem tokens_of_endToken {s' : Source} (h : s.token = (.ok ts.endToken, s'))
    (hend : ts.failure = none) : s.tokens = { ts with items := [] } := by
  have hstop : s'.position = ts.stop := by
    generalize ht : ts.endToken = t at h
    cases asked_of_token h with
    | taken hkind => exact absurd (ht ▸ rfl) hkind
    | ended => exact (Token.mk.inj ht).2.2.symm
  rw [tokens_of_end h rfl, hstop, hend]

end Tokens

end Source

/-! ## Parsers that ask a source -/

/-- A lexer, and how often it was asked. -/
structure Counted (σ : Type) where
  inner : σ
  asked : Nat

instance {σ : Type} [Lexer σ] : Lexer (Counted σ) where
  token c := ((Lexer.token c.inner).1, ⟨(Lexer.token c.inner).2, c.asked + 1⟩)

theorem token_counted {s s' : Source} {answer : Except LexicalError Token}
    (h : s.token = (answer, s')) (n : Nat) :
    Lexer.token (⟨s, n⟩ : Counted Source) = (answer, ⟨s', n + 1⟩) := by
  simp only [Lexer.token, h]

namespace Parser

/-- `p.Awaits ts items limit`: what comes next are the tokens `items`, and then the end of `ts`.
When that was seen, the source will have been asked `limit` times at most. -/
inductive Awaits (ts : Tokens) : List Token → Nat → Parser (Counted Source) → Prop where
  /-- nothing is ahead -/
  | free {s : Source} {items : List Token} (n : Nat) (hs : s.tokens = { ts with items := items }) :
      Awaits ts items (n + items.length + 1) ⟨⟨s, n⟩, none, none⟩
  /-- a token is ahead -/
  | ahead {s : Source} {t : Token} {items : List Token} (n : Nat) (ht : t.kind ≠ .endOfFile)
      (hs : s.tokens = { ts with items := items }) :
      Awaits ts (t :: items) (n + items.length + 1) ⟨⟨s, n⟩, some t, none⟩
  /-- the end was looked at -/
  | atEnd {s : Source} (n : Nat) (hend : ts.failure = none)
      (hs : s.token = (.ok ts.endToken, s)) : Awaits ts [] n ⟨⟨s, n⟩, some ts.endToken, none⟩
  /-- the lexer has failed -/
  | failed (s : Source) (n : Nat) {e : LexicalError} (he : ts.failure = some e) :
      Awaits ts [] n ⟨⟨s, n⟩, none, some e⟩

/-- `p.Halted ts items limit`: reading has stopped in front of the tokens `items`, the source was
asked at most `limit` times, and what comes next is awaited again. -/
structure Halted (ts : Tokens) (items : List Token) (limit : Nat) (p : Parser (Counted Source)) :
    Prop where
  nothing : p.buffered = none
  asked_le : p.lexer.asked ≤ limit
  awaits : ∃ limit', p.Awaits ts items limit'

namespace Awaits

variable {ts : Tokens} {items : List Token} {t : Token} {limit : Nat}
  {p : Parser (Counted Source)}

theorem asked_le (h : p.Awaits ts items limit) : p.lexer.asked ≤ limit := by
  cases h with
  | free n | ahead n => exact Nat.le_succ_of_le (Nat.le_add_right n _)
  | atEnd | failed => exact Nat.le_refl _

theorem halted (h : p.Awaits ts items limit) (hnothing : p.buffered = none) :
    p.Halted ts items limit :=
  ⟨hnothing, h.asked_le, limit, h⟩

/-- No token that is awaited is the end. -/
theorem kind_ne (h : p.Awaits ts (t :: items) limit) : t.kind ≠ .endOfFile := by
  cases h with
  | free n hs => exact (Source.token_of_tokens_cons hs).1
  | ahead n ht => exact ht

/-- What was asked for is no longer to be asked for. -/
theorem limit_cons (n : Nat) (t : Token) (items : List Token) :
    n + (t :: items).length + 1 = n + 1 + items.length + 1 := by
  rw [List.length_cons]
  omega

/-- Looking at a token. -/
theorem peek_cons (h : p.Awaits ts (t :: items) limit) (kinds : List Kind) :
    (p.peek kinds).1 = decide (t.kind ∈ kinds) ∧
      (p.peek kinds).2.Awaits ts (t :: items) limit := by
  cases h with
  | @free s _ n hs =>
    obtain ⟨ht, s', htoken, hmore⟩ := Source.token_of_tokens_cons hs
    simp only [peek, token_counted htoken n]
    refine ⟨trivial, ?_⟩
    rw [limit_cons]
    exact .ahead (n + 1) ht hmore
  | ahead n ht hs => exact ⟨rfl, .ahead n ht hs⟩

/-- Looking for a token at the end. -/
theorem peek_nil (h : p.Awaits ts [] limit) {kinds : List Kind} (hkinds : .endOfFile ∉ kinds) :
    (p.peek kinds).1 = false ∧ (p.peek kinds).2.Awaits ts [] limit := by
  cases h with
  | free n hs =>
    rcases Source.token_of_tokens_nil hs with ⟨e, s', he, htoken⟩ | ⟨s', hend, htoken, hagain⟩
    · simp only [peek, token_counted htoken n]
      exact ⟨trivial, .failed s' (n + 1) he⟩
    · simp only [peek, token_counted htoken n]
      exact ⟨decide_eq_false hkinds, .atEnd (n + 1) hend hagain⟩
  | atEnd _ hend hs => exact ⟨decide_eq_false hkinds, .atEnd limit hend hs⟩
  | failed s _ he => exact ⟨rfl, .failed s limit he⟩

/-- Taking a token. -/
theorem accept_cons (h : p.Awaits ts (t :: items) limit) (kinds : List Kind) :
    ∃ q, p.accept kinds =
        (if t.kind ∈ kinds then .ok t else .error (.unexpected kinds t), q) ∧
      q.Awaits ts items limit ∧ q.buffered = none := by
  cases h with
  | @free s _ n hs =>
    obtain ⟨ht, s', htoken, hmore⟩ := Source.token_of_tokens_cons hs
    refine ⟨⟨⟨s', n + 1⟩, none, none⟩, ?_, ?_, rfl⟩
    · simp only [accept, next, token_counted htoken n]
    · rw [limit_cons]
      exact .free (n + 1) hmore
  | @ahead s _ _ n ht hs => exact ⟨⟨⟨s, n⟩, none, none⟩, rfl, .free n hs, rfl⟩

/-- Asking for a token where the lexer fails. -/
theorem accept_of_failure (h : p.Awaits ts [] limit) {e : LexicalError} (he : ts.failure = some e)
    (kinds : List Kind) :
    ∃ q, p.accept kinds = (.error (.lexical e), q) ∧ q.Halted ts [] limit := by
  cases h with
  | free n hs =>
    rcases Source.token_of_tokens_nil hs with ⟨e', s', he', htoken⟩ | ⟨s', hend, -, -⟩
    · obtain rfl : e = e' := Option.some.inj (he.symm.trans he')
      have hfailed : Awaits ts [] (n + 1) ⟨⟨s', n + 1⟩, none, some e⟩ := .failed s' (n + 1) he
      exact ⟨_, by simp only [accept, next, token_counted htoken n], hfailed.halted rfl⟩
    · cases he.symm.trans hend
  | atEnd _ hend => cases he.symm.trans hend
  | failed s _ he' =>
    obtain rfl : e = _ := Option.some.inj (he.symm.trans he')
    exact ⟨_, rfl, (Awaits.failed s limit he).halted rfl⟩

/-- Asking for a token at the end. -/
theorem accept_of_end (h : p.Awaits ts [] limit) (hend : ts.failure = none) (kinds : List Kind) :
    ∃ q, p.accept kinds =
        (if .endOfFile ∈ kinds then .ok ts.endToken else .error (.unexpected kinds ts.endToken),
          q) ∧
      q.Halted ts [] limit := by
  cases h with
  | free n hs =>
    rcases Source.token_of_tokens_nil hs with ⟨e, s', he, -⟩ | ⟨s', -, htoken, hagain⟩
    · cases hend.symm.trans he
    · refine ⟨⟨⟨s', n + 1⟩, none, none⟩, ?_, rfl, Nat.le_refl _, _, .free (n + 1) ?_⟩
      · simp only [accept, next, token_counted htoken n]
        rfl
      · exact Source.tokens_of_endToken hagain hend
  | @atEnd s _ _ hs =>
    refine ⟨⟨⟨s, limit⟩, none, none⟩, rfl, rfl, Nat.le_refl _, _, .free limit ?_⟩
    exact Source.tokens_of_endToken hs hend
  | failed s _ he => cases hend.symm.trans he

end Awaits

/-! ## Readings and readers of lists -/

/-- A reading comes to the same as a reader of lists of tokens: it reads the same, and what that one
leaves is awaited; or it fails for the same reason, and reading has stopped in front of what that
one leaves. -/
inductive Tracks {α ρ : Type} (ts : Tokens) (limit : Nat) (rest : ρ → List Token) :
    Except Refusal (α × ρ) → Option (Except ParseError α × Parser (Counted Source)) → Prop where
  | ok {a : α} {r : ρ} {q : Parser (Counted Source)} (hq : q.Awaits ts (rest r) limit) :
      Tracks ts limit rest (.ok (a, r)) (some (.ok a, q))
  | refused {reason : Rejection} {items : List Token} {q : Parser (Counted Source)}
      (hq : q.Halted ts items limit) :
      Tracks ts limit rest (.error ⟨reason, items⟩) (some (.error (reason.toError ts), q))

namespace Tracks

variable {α β ρ ρ' : Type} {ts : Tokens} {limit : Nat} {rest : ρ → List Token}
  {rest' : ρ' → List Token} {items : List Token} {t : Token} {kinds : List Kind}
  {p : Parser (Counted Source)}

/-- One thing after another. -/
theorem bind {x : Except Refusal (α × ρ)} {m : Reading (Counted Source) α}
    {f : α × ρ → Except Refusal (β × ρ')} {g : α → Reading (Counted Source) β}
    (hm : Tracks ts limit rest x (m p))
    (hg : ∀ a r q, q.Awaits ts (rest r) limit → Tracks ts limit rest' (f (a, r)) (g a q)) :
    Tracks ts limit rest' (x >>= f) ((m >>= g) p) := by
  generalize ho : m p = o at hm
  cases hm with
  | ok hq =>
    rw [Reading.bind_of_ok ho]
    exact hg _ _ _ hq
  | refused hq =>
    rw [Reading.bind_of_error ho]
    exact .refused hq

/-- A last step that only says how much is left. -/
theorem bind_pure {x : Except Refusal (α × ρ)} {f : α × ρ → Except Refusal (α × ρ')}
    {o : Option (Except ParseError α × Parser (Counted Source))} (h : Tracks ts limit rest x o)
    (hf : ∀ a r, ∃ r', f (a, r) = .ok (a, r') ∧ rest' r' = rest r) :
    Tracks ts limit rest' (x >>= f) o := by
  cases h with
  | @ok a r q hq =>
    obtain ⟨r', hr', hrest⟩ := hf a r
    change Tracks ts limit rest' (f (a, r)) _
    rw [hr']
    rw [← hrest] at hq
    exact .ok hq
  | refused hq => exact .refused hq

/-- A token is needed at the end. -/
theorem ended {g : Token → Reading (Counted Source) β} (hp : p.Awaits ts [] limit)
    (hkinds : .endOfFile ∉ kinds) :
    Tracks ts limit rest (.error ⟨.ended kinds, []⟩) ((Reading.accept kinds >>= g) p) := by
  rcases hfailure : ts.failure with - | e
  · obtain ⟨q, haccept, hq⟩ := hp.accept_of_end hfailure kinds
    rw [if_neg hkinds] at haccept
    have herror : (Rejection.ended kinds).toError ts = .unexpected kinds ts.endToken := by
      simp only [Rejection.toError, hfailure]
    rw [Reading.bind_of_error (congrArg some haccept), ← herror]
    exact .refused hq
  · obtain ⟨q, haccept, hq⟩ := hp.accept_of_failure hfailure kinds
    have herror : (Rejection.ended kinds).toError ts = .lexical e := by
      simp only [Rejection.toError, hfailure]
    rw [Reading.bind_of_error (congrArg some haccept), ← herror]
    exact .refused hq

/-- The token that comes next may be taken. -/
theorem taken {x : Except Refusal (β × ρ)} {g : Token → Reading (Counted Source) β}
    (hp : p.Awaits ts (t :: items) limit) (ht : t.kind ∈ kinds)
    (hg : ∀ q, q.Awaits ts items limit → q.buffered = none → Tracks ts limit rest x (g t q)) :
    Tracks ts limit rest x ((Reading.accept kinds >>= g) p) := by
  obtain ⟨q, haccept, hq, hnothing⟩ := hp.accept_cons kinds
  rw [if_pos ht] at haccept
  rw [Reading.bind_of_ok (congrArg some haccept)]
  exact hg q hq hnothing

/-- The token that comes next may not stand there. -/
theorem unexpected {g : Token → Reading (Counted Source) β} (hp : p.Awaits ts (t :: items) limit)
    (ht : t.kind ∉ kinds) :
    Tracks ts limit rest (.error ⟨.unexpected kinds t, items⟩)
      ((Reading.accept kinds >>= g) p) := by
  obtain ⟨q, haccept, hq, hnothing⟩ := hp.accept_cons kinds
  rw [if_neg ht] at haccept
  rw [Reading.bind_of_error (congrArg some haccept)]
  exact .refused (hq.halted hnothing)

/-- Taking a token, and going on with it. -/
theorem accept_bind {f : Token × Shorter items → Except Refusal (β × ρ)}
    {g : Token → Reading (Counted Source) β} (hp : p.Awaits ts items limit)
    (hkinds : .endOfFile ∉ kinds)
    (hg : ∀ t (r : Shorter items) q, t.kind ∈ kinds → q.Awaits ts r.rest limit →
      q.buffered = none → Tracks ts limit rest (f (t, r)) (g t q)) :
    Tracks ts limit rest (Parsing.accept kinds items >>= f) ((Reading.accept kinds >>= g) p) := by
  cases items with
  | nil => exact ended hp hkinds
  | cons t items =>
    by_cases ht : t.kind ∈ kinds
    · rw [Parsing.accept, if_pos ht]
      exact taken hp ht fun q hq hnothing => hg t (.tail t items) q ht hq hnothing
    · rw [Parsing.accept, if_neg ht]
      exact unexpected hp ht

section Look

variable {x : Except Refusal (α × ρ)} {yes : Token → Reading (Counted Source) α}
  {no : Reading (Counted Source) α}

/-- Looking at a token, which is taken if it is of one of the kinds. -/
theorem look (hp : p.Awaits ts (t :: items) limit)
    (hyes : t.kind ∈ kinds → ∀ q, q.Awaits ts items limit → q.buffered = none →
      Tracks ts limit rest x (yes t q))
    (hno : t.kind ∉ kinds → ∀ q, q.Awaits ts (t :: items) limit → Tracks ts limit rest x (no q)) :
    Tracks ts limit rest x ((do
      if ← Reading.peek kinds then
        let t ← Reading.accept kinds
        yes t
      else no) p) := by
  obtain ⟨hseen, hq⟩ := hp.peek_cons kinds
  have hpeek : Reading.peek kinds p = some (.ok (decide (t.kind ∈ kinds)), (p.peek kinds).2) := by
    rw [Reading.peek, hseen]
  rw [Reading.bind_of_ok hpeek]
  by_cases ht : t.kind ∈ kinds
  · rw [if_pos (decide_eq_true ht)]
    exact taken hq ht (hyes ht)
  · rw [if_neg (by simpa using ht)]
    exact hno ht _ hq

/-- Looking for a token at the end. -/
theorem look_nil (hp : p.Awaits ts [] limit) (hkinds : .endOfFile ∉ kinds)
    (hno : ∀ q, q.Awaits ts [] limit → Tracks ts limit rest x (no q)) :
    Tracks ts limit rest x ((do
      if ← Reading.peek kinds then
        let t ← Reading.accept kinds
        yes t
      else no) p) := by
  obtain ⟨hseen, hq⟩ := hp.peek_nil hkinds
  have hpeek : Reading.peek kinds p = some (.ok false, (p.peek kinds).2) := by
    rw [Reading.peek, hseen]
  rw [Reading.bind_of_ok hpeek, if_neg Bool.false_ne_true]
  exact hno _ hq

/-- Either a token of the kind, or what another reader reads. -/
theorem either {kind : Kind} {f g : (items : List Token) → Reads α items} {value : Token → α}
    {other : Reading (Counted Source) α} (hkind : kind ≠ .endOfFile) (hnil : f [] = g [])
    (hcons : ∀ t tail, f (t :: tail) =
      if t.kind = kind then .ok (value t, .tail t tail) else g (t :: tail))
    (hp : p.Awaits ts items limit)
    (hother : ∀ q, q.Awaits ts items limit → Tracks ts limit Shorter.rest (g items) (other q)) :
    Tracks ts limit Shorter.rest (f items) ((do
      if ← Reading.peek [kind] then
        let t ← Reading.accept [kind]
        return value t
      else other) p) := by
  cases items with
  | nil =>
    rw [hnil]
    exact look_nil hp (by simpa using hkind.symm) hother
  | cons t tail =>
    rw [hcons]
    refine look hp (fun ht q hq _ => ?_) fun ht q hq => ?_
    · rw [if_pos (List.mem_singleton.mp ht)]
      exact .ok hq
    · rw [if_neg (mt List.mem_singleton.mpr ht)]
      exact hother q hq

end Look

section Literals

variable {q : Parser (Counted Source)} (hq : q.Halted ts items limit)

include hq

/-- The number of a token that was just taken. -/
theorem numberOf_bind {f : Int64 → Except Refusal (β × ρ)} {g : Int64 → Reading (Counted Source) β}
    (hg : ∀ n, Tracks ts limit rest (f n) (g n q)) :
    Tracks ts limit rest (Parsing.numberOf t items >>= f) ((Reading.numberOf t >>= g) q) := by
  rw [Parsing.numberOf, Reading.numberOf]
  rcases Numeral.decimal t.value with fault | n
  · exact .refused hq
  · exact hg n

/-- The dice of a token that was just taken. -/
theorem diceOf_bind {f : Dice → Except Refusal (β × ρ)} {g : Dice → Reading (Counted Source) β}
    (hg : ∀ d, Tracks ts limit rest (f d) (g d q)) :
    Tracks ts limit rest (Parsing.diceOf t items >>= f) ((Reading.diceOf t >>= g) q) := by
  rw [Parsing.diceOf, Reading.diceOf]
  rcases diceHalves t.value with ⟨first, second⟩
  dsimp only
  rcases Numeral.decimal first with fault | count
  · exact .refused hq
  · rcases Numeral.decimal second with fault | faces
    · exact .refused hq
    · exact hg ⟨count, faces⟩

end Literals

end Tracks

end Parser

end Adventure
