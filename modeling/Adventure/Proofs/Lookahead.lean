import Adventure.Proofs.FailureReport

/-!
# Looking ahead and taking

Whatever is looked at and taken, and in whatever order, a parser is in one of three states: it has
nothing ahead, it has the next token ahead, or the lexer has failed at the next token
(`Parser.Stands`). What it answers depends on how many tokens were taken, and on nothing else
(`Parser.Stands.answers_eq`). Readings of programs make such calls alone, and report the failure of
the lexer. `Parser.lookahead_transparent` puts both together.
-/

namespace Adventure

namespace Lexer

variable {σ : Type} [Lexer σ]

/-- The lexer after it was asked `n` times. -/
def after (s : σ) : (n : Nat) → σ
  | 0 => s
  | n + 1 => (token (after s n)).2

/-- What the lexer answers when it has been asked `n` times before. -/
def produced (s : σ) (n : Nat) : Except LexicalError Token :=
  (token (after s n)).1

theorem token_after (s : σ) (n : Nat) : token (after s n) = (produced s n, after s (n + 1)) := rfl

end Lexer

namespace Parser

variable {σ : Type} [Lexer σ]

/-! ## Where a parser stands -/

/-- `p.Stands s n`: of the tokens that the lexer `s` produces, `n` were taken. -/
inductive Stands (s : σ) (n : Nat) : Parser σ → Prop where
  /-- nothing was asked for beyond them -/
  | free : Stands s n ⟨Lexer.after s n, none, none⟩
  /-- the next one was looked at -/
  | ahead {t : Token} (h : Lexer.produced s n = .ok t) :
      Stands s n ⟨Lexer.after s (n + 1), some t, none⟩
  /-- there is no next one -/
  | failed {e : LexicalError} (h : Lexer.produced s n = .error e) :
      Stands s n ⟨Lexer.after s (n + 1), none, some e⟩

namespace Stands

variable {s : σ} {n : Nat} {p : Parser σ}

/-- **Looking ahead** tells of the next token, and takes none. -/
theorem peek (h : Stands s n p) (kinds : List Kind) :
    Stands s n (p.peek kinds).2 ∧
      ((p.peek kinds).1 = true ↔ ∃ t, Lexer.produced s n = .ok t ∧ t.kind ∈ kinds) := by
  cases h with
  | free =>
    rcases hproduced : Lexer.produced s n with e | t
    · simp only [Parser.peek, Lexer.token_after, hproduced]
      exact ⟨.failed hproduced, by simp⟩
    · simp only [Parser.peek, Lexer.token_after, hproduced]
      exact ⟨.ahead hproduced, by simp⟩
  | ahead hproduced => exact ⟨.ahead hproduced, by simp [Parser.peek, hproduced]⟩
  | failed hproduced => exact ⟨.failed hproduced, by simp [Parser.peek, hproduced]⟩

/-- **Taking a token** takes the next one, whether or not it is of an expected kind. -/
theorem accept_of_ok (h : Stands s n p) {t : Token} (ht : Lexer.produced s n = .ok t)
    (kinds : List Kind) :
    (p.accept kinds).1 = (if t.kind ∈ kinds then .ok t else .error (.unexpected kinds t)) ∧
      Stands s (n + 1) (p.accept kinds).2 := by
  cases h with
  | free =>
    simp only [Parser.accept, Parser.next, Lexer.token_after, ht]
    exact ⟨trivial, .free⟩
  | ahead hproduced =>
    obtain rfl : _ = t := Except.ok.inj (hproduced.symm.trans ht)
    exact ⟨rfl, .free⟩
  | failed hproduced => cases hproduced.symm.trans ht

/-- Where the lexer fails, no token is taken. -/
theorem accept_of_error (h : Stands s n p) {e : LexicalError}
    (he : Lexer.produced s n = .error e) (kinds : List Kind) :
    (p.accept kinds).1 = .error (.lexical e) ∧ Stands s n (p.accept kinds).2 := by
  cases h with
  | free =>
    simp only [Parser.accept, Parser.next, Lexer.token_after, he]
    exact ⟨trivial, .failed he⟩
  | ahead hproduced => cases hproduced.symm.trans he
  | failed hproduced =>
    obtain rfl : _ = e := Except.error.inj (hproduced.symm.trans he)
    exact ⟨rfl, .failed he⟩

end Stands

namespace Stands

variable {s : σ} {n : Nat} {p q : Parser σ}

/-- A call takes the next token or none. -/
theorem perform (h : Stands s n p) (call : Call) :
    ((p.perform call).1.token? = none ∧ Stands s n (p.perform call).2) ∨
      ∃ t, Lexer.produced s n = .ok t ∧ (p.perform call).1.token? = some t ∧
        Stands s (n + 1) (p.perform call).2 := by
  cases call with
  | peek kinds => exact .inl ⟨rfl, (h.peek kinds).1⟩
  | accept kinds =>
    rcases hproduced : Lexer.produced s n with e | t
    · obtain ⟨hresult, hstands⟩ := h.accept_of_error hproduced kinds
      exact .inl ⟨by rw [Parser.perform, hresult]; rfl, hstands⟩
    · obtain ⟨hresult, hstands⟩ := h.accept_of_ok hproduced kinds
      refine .inr ⟨t, rfl, ?_, hstands⟩
      rw [Parser.perform, hresult]
      split <;> rfl

/-- **Calls take the tokens in the order of the lexer.** -/
theorem after (h : Stands s n p) (calls : List Call) :
    Stands s (n + (p.taken calls).length) (p.after calls) ∧
      ∀ i t, (p.taken calls)[i]? = some t → Lexer.produced s (n + i) = .ok t := by
  induction calls generalizing n p with
  | nil => exact ⟨h, fun i t ht => by simp [taken, answers] at ht⟩
  | cons call calls ih =>
    rw [taken_cons]
    -- a call takes no token, or the one that was produced next
    rcases h.perform call with ⟨hnone, hstands⟩ | ⟨t, hproduced, htoken, hstands⟩
    · rw [hnone]
      exact ih hstands
    · rw [htoken]
      obtain ⟨hafter, htokens⟩ := ih hstands
      refine ⟨?_, fun i u hu => ?_⟩
      · have hlength : n + ((some t).toList ++ (p.perform call).2.taken calls).length =
            n + 1 + ((p.perform call).2.taken calls).length := by
          simp only [Option.toList_some, List.singleton_append, List.length_cons]
          omega
        rw [hlength]
        exact hafter
      · cases i with
        | zero =>
          obtain rfl : t = u := by simpa using hu
          exact hproduced
        | succ i =>
          have hsucc : n + (i + 1) = n + 1 + i := by omega
          rw [hsucc]
          exact htokens i u (by simpa using hu)

/-- Where the same number of tokens was taken, a call answers the same and takes the same. -/
theorem perform_eq (h : Stands s n p) (h' : Stands s n q) (call : Call) :
    (p.perform call).1 = (q.perform call).1 ∧
      ∃ m, Stands s m (p.perform call).2 ∧ Stands s m (q.perform call).2 := by
  cases call with
  | peek kinds =>
    have hsame : (p.peek kinds).1 = (q.peek kinds).1 :=
      Bool.eq_iff_iff.mpr ((h.peek kinds).2.trans (h'.peek kinds).2.symm)
    exact ⟨congrArg Answer.seen hsame, n, (h.peek kinds).1, (h'.peek kinds).1⟩
  | accept kinds =>
    rcases hproduced : Lexer.produced s n with e | t
    · obtain ⟨hresult, hstands⟩ := h.accept_of_error hproduced kinds
      obtain ⟨hresult', hstands'⟩ := h'.accept_of_error hproduced kinds
      exact ⟨congrArg Answer.got (hresult.trans hresult'.symm), n, hstands, hstands'⟩
    · obtain ⟨hresult, hstands⟩ := h.accept_of_ok hproduced kinds
      obtain ⟨hresult', hstands'⟩ := h'.accept_of_ok hproduced kinds
      exact ⟨congrArg Answer.got (hresult.trans hresult'.symm), n + 1, hstands, hstands'⟩

/-- **What a parser answers depends on how many tokens were taken**, and on nothing else. -/
theorem answers_eq (h : Stands s n p) (h' : Stands s n q) (calls : List Call) :
    p.answers calls = q.answers calls := by
  induction calls generalizing n p q with
  | nil => rfl
  | cons call calls ih =>
    obtain ⟨hanswer, m, hstands, hstands'⟩ := h.perform_eq h' call
    rw [answers, answers, hanswer, ih hstands hstands']

end Stands

/-! ## The law of the lookahead -/

/-- **Looking ahead loses, repeats and reorders nothing.** After any calls, the tokens that were
taken are the first ones that the lexer produces, in their order; looking ahead tells of the next
one, it changes no later answer, and what it has found can be taken. Where a call asks the lexer for
a token and there is none, it is refused, and so is everything that is asked later, without asking
the lexer again. This holds of any parser, and so at any call that is made in reading a program.
When reading a program is over, nothing is ahead that the next reading would drop, and if the lexer
has failed, then reading fails with just that. -/
theorem lookahead_transparent (s : σ) (calls : List Call) :
    (∀ i t, ((ofLexer s).taken calls)[i]? = some t → Lexer.produced s i = .ok t) ∧
    (∀ kinds,
      let p := (ofLexer s).after calls
      let following := Lexer.produced s ((ofLexer s).taken calls).length
      ((p.peek kinds).1 = true ↔ ∃ t, following = .ok t ∧ t.kind ∈ kinds) ∧
      (∀ later, (p.peek kinds).2.answers later = p.answers later) ∧
      ((p.peek kinds).1 = true →
        ∃ t, following = .ok t ∧ ((p.peek kinds).2.accept kinds).1 = .ok t)) ∧
    (∀ (p : Parser σ) (e : LexicalError) (call : Call),
      p.error = none → p.buffered = none → (Lexer.token p.lexer).1 = .error e →
      (p.perform call).1 = call.refused e ∧ (p.perform call).2.Refuses e) ∧
    ∀ (p q : Parser σ) (depth : Nat) (r : Except ParseError Program),
      p.parse depth = some (r, q) →
      q.buffered = none ∧ ∀ e, q.error = some e → r = .error (.lexical e) ∧ q.Refuses e := by
  have hstart : Stands s 0 (ofLexer s) := .free
  obtain ⟨hstands, htaken⟩ := hstart.after calls
  -- as many tokens have been produced as were taken
  rw [Nat.zero_add] at hstands
  refine ⟨fun i t hi => by simpa using htaken i t hi, fun kinds => ?_, ?_, ?_⟩
  · obtain ⟨hpeeked, hiff⟩ := hstands.peek kinds
    refine ⟨hiff, hpeeked.answers_eq hstands, fun hfound => ?_⟩
    obtain ⟨t, ht, hkind⟩ := hiff.mp hfound
    exact ⟨t, ht, by rw [(hpeeked.accept_of_ok ht kinds).1, if_pos hkind]⟩
  · intro p e call hfree hnothing he
    rw [perform_of_token_error hfree hnothing he call]
    exact ⟨rfl, refuses_of_failed rfl rfl⟩
  · intro p q depth r h
    exact parse_reports h

end Parser

end Adventure
