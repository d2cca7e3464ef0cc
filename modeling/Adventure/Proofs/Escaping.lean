import Adventure.Syntax.Format

/-!
# Texts and their escapes

A text in double quotes has an escape for some of its characters, and the language knows no escapes:
a text that is written in quotes and read again is the text of the escapes. `Expr.escapeTexts` does
this to every text of an expression. Nothing comes of it exactly if no text of the expression has a
character with an escape (`Expr.escapeTexts_eq_iff`).
-/

namespace Adventure

open Text

namespace Text

/-- The character stands for itself in a quoted text. -/
def IsVerbatim (c : Char) : Prop :=
  escaped c = [c]

/-- Hexadecimal digits are not quotation marks. -/
theorem doubleQuote_not_mem_hexadecimal (width n : Nat) : '"' ∉ hexadecimal width n := by
  have hdigit : ∀ d < 16, Nat.digitChar d ≠ '"' := by decide
  have hdigits : '"' ∉ Nat.toDigits 16 n := by
    induction n using Nat.strongRecOn with
    | ind n ih =>
      intro hmem
      rw [Nat.toDigits_eq_if (by decide)] at hmem
      split at hmem
      next hlt => exact hdigit n hlt (List.mem_singleton.mp hmem).symm
      next hge =>
        rcases List.mem_append.mp hmem with hmem | hmem
        · exact ih (n / 16) (by omega) hmem
        · exact hdigit (n % 16) (by omega) (List.mem_singleton.mp hmem).symm
  intro hmem
  rcases List.mem_append.mp hmem with hmem | hmem
  · exact absurd (List.eq_of_mem_replicate hmem) (by decide)
  · exact hdigits hmem

/-- A character stands for itself, or it is escaped by a backslash and something more, with a double
quote only for the double quote. -/
theorem escaped_cases (c : Char) :
    (escaped c = [c] ∧ c ≠ '"') ∨
      ∃ d ds, escaped c = '\\' :: d :: ds ∧ ('"' ∈ d :: ds → c = '"') := by
  have hquote : c.toNat = 0x22 → c = '"' := fun h => Char.toNat_inj.mp h
  unfold escaped
  split
  next h => exact .inr ⟨_, _, rfl, fun _ => hquote h⟩
  -- the characters without a letter of their own; the others are settled below by what they are
  case h_10 hne _ _ _ _ _ _ _ _ =>
    have hhex : ∀ (mark : Char), mark ≠ '"' → ∀ width, '"' ∈ mark :: hexadecimal width c.toNat →
        c = '"' := by
      intro mark hmark width hmem
      rcases List.mem_cons.mp hmem with h | h
      · exact absurd h.symm hmark
      · exact absurd h (doubleQuote_not_mem_hexadecimal _ _)
    split
    · refine .inl ⟨rfl, ?_⟩
      rintro rfl
      exact hne rfl
    split
    · exact .inr ⟨_, _, rfl, hhex _ (by decide) _⟩
    split
    · exact .inr ⟨_, _, rfl, hhex _ (by decide) _⟩
    · exact .inr ⟨_, _, rfl, hhex _ (by decide) _⟩
  all_goals exact .inr ⟨_, _, rfl, fun h => absurd h (by decide)⟩

/-- Escaping adds no quotation marks. -/
theorem doubleQuote_not_mem_escapedText {s : String} (h : '"' ∉ s.toList) :
    '"' ∉ escapedText s := by
  intro hmem
  obtain ⟨c, hc, hmem⟩ := List.mem_flatMap.mp hmem
  have hne : c ≠ '"' := fun heq => h (heq ▸ hc)
  rcases escaped_cases c with ⟨hself, -⟩ | ⟨d, ds, hescaped, hquote⟩
  · rw [hself] at hmem
    exact hne (List.mem_singleton.mp hmem).symm
  · rw [hescaped] at hmem
    rcases List.mem_cons.mp hmem with heq | hmem
    · exact absurd heq (by decide)
    · exact hne (hquote hmem)

/-- Escaping makes no text shorter. -/
theorem length_le_flatMap_escaped (cs : List Char) : cs.length ≤ (cs.flatMap escaped).length := by
  induction cs with
  | nil => exact Nat.le_refl _
  | cons c cs ih =>
    rw [List.flatMap_cons, List.length_append, List.length_cons]
    rcases escaped_cases c with ⟨h, -⟩ | ⟨d, ds, h, -⟩
    · rw [h, List.length_singleton]
      omega
    · rw [h, List.length_cons]
      omega

/-- An escape is longer than what it stands for, so no other text makes up for it. -/
theorem flatMap_escaped_eq_iff (cs : List Char) :
    cs.flatMap escaped = cs ↔ ∀ c ∈ cs, IsVerbatim c := by
  induction cs with
  | nil => simp
  | cons c cs ih =>
    rw [List.flatMap_cons, List.forall_mem_cons, ← ih, IsVerbatim]
    rcases escaped_cases c with ⟨h, -⟩ | ⟨d, ds, h, -⟩
    · simp [h]
    · have hlength := length_le_flatMap_escaped cs
      constructor
      · -- the escape alone is longer than `c`, and the rest does not get shorter
        intro heq
        have hlengths := congrArg List.length heq
        simp only [h, List.length_append, List.length_cons] at hlengths
        omega
      · rintro ⟨heq, -⟩
        rw [h] at heq
        cases heq

/-- A text is left as it is if each of its characters is. -/
theorem escapedText_eq_iff (s : String) :
    String.ofList (escapedText s) = s ↔ ∀ c ∈ s.toList, IsVerbatim c := by
  rw [← flatMap_escaped_eq_iff, ← String.toList_inj, String.toList_ofList, escapedText]

end Text

namespace Expr

mutual

/-- The expression with every text replaced by what stands between its quotes. -/
def escapeTexts : Expr → Expr
  | .number n => .number n
  | .text s => .text (.ofList (escapedText s))
  | .dice d => .dice d
  | .var x => .var x
  | .call f arguments => .call f (escapeAll arguments)
  | .roll e => .roll e.escapeTexts
  | .chain operands operators => .chain (escapeAll operands) operators
  | .hole => .hole
  | .foreign label => .foreign label

/-- The expressions with every text replaced by what stands between its quotes. -/
def escapeAll : List Expr → List Expr
  | [] => []
  | e :: es => e.escapeTexts :: escapeAll es

end

mutual

/-- The texts of an expression. -/
def texts : Expr → List String
  | .text s => [s]
  | .call _ arguments => textsAll arguments
  | .roll e => e.texts
  | .chain operands _ => textsAll operands
  | .number _ | .dice _ | .var _ | .hole | .foreign _ => []

/-- The texts of expressions. -/
def textsAll : List Expr → List String
  | [] => []
  | e :: es => e.texts ++ textsAll es

end

theorem escapeAll_eq_map (es : List Expr) : escapeAll es = es.map escapeTexts := by
  induction es with
  | nil => rw [escapeAll, List.map_nil]
  | cons e es ih => rw [escapeAll, List.map_cons, ih]

theorem formatAll_eq_map (es : List Expr) : formatAll es = es.map format := by
  induction es with
  | nil => rw [formatAll, List.map_nil]
  | cons e es ih => rw [formatAll, List.map_cons, ih]

mutual

/-- **Escaping changes nothing** exactly if all characters of the texts stand for themselves. -/
theorem escapeTexts_eq_iff : ∀ e : Expr,
    e.escapeTexts = e ↔ ∀ s ∈ e.texts, ∀ c ∈ s.toList, IsVerbatim c
  | .number _ | .dice _ | .var _ | .hole | .foreign _ => by simp [escapeTexts, texts]
  | .text s => by simp [escapeTexts, texts, escapedText_eq_iff]
  | .call f arguments => by simp [escapeTexts, texts, escapeAll_eq_iff arguments]
  | .roll e => by simp [escapeTexts, texts, escapeTexts_eq_iff e]
  | .chain operands operators => by simp [escapeTexts, texts, escapeAll_eq_iff operands]

theorem escapeAll_eq_iff : ∀ es : List Expr,
    escapeAll es = es ↔ ∀ s ∈ textsAll es, ∀ c ∈ s.toList, IsVerbatim c
  | [] => by simp [escapeAll, textsAll]
  | e :: es => by
    rw [escapeAll, textsAll, List.forall_mem_append, List.cons.injEq, escapeTexts_eq_iff e,
      escapeAll_eq_iff es]

end

end Expr

end Adventure
