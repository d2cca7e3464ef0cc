import Adventure.Text.Numeral
import Adventure.Token.Lexer

/-!
# The value of digits

Digits write a number of any size; reading them gives that number if it fits into 64 bits with a
sign, and fails as out of range if it does not (`decimal_digits`).
-/

namespace Adventure.Text.Numeral

/-- The number that digits write. -/
def natural (cs : List Char) : Nat :=
  Nat.ofDigitChars 10 cs 0

theorem isDigit_of_mem_toDigits {n : Nat} {c : Char} (h : c ∈ Nat.toDigits 10 n) :
    isDigit c = true := by
  have hdigit := Nat.isDigit_of_mem_toDigits (by decide) (by decide) h
  simpa [isDigit, Char.isDigit, Char.le_def] using hdigit

theorem digit?_of_isDigit {c : Char} (h : isDigit c = true) :
    digit? c = some (c.toNat - '0'.toNat) ∧ c.toNat - '0'.toNat < 10 := by
  obtain ⟨hge, hle⟩ : '0' ≤ c ∧ c ≤ '9' := by simpa [isDigit] using h
  refine ⟨if_pos ⟨hge, hle⟩, ?_⟩
  have hle' : c.toNat ≤ '9'.toNat := hle
  have h9 : '9'.toNat = '0'.toNat + 9 := by decide
  omega

theorem le_ofDigitChars (cs : List Char) (value : Nat) :
    value ≤ Nat.ofDigitChars 10 cs value := by
  induction cs generalizing value with
  | nil => exact Nat.le_refl _
  | cons c cs ih =>
    rw [Nat.ofDigitChars_cons]
    exact Nat.le_trans (by omega) (ih _)

/-- The bound is met along the way exactly if it is met in the end, since digits only add. -/
theorem magnitudeFrom_digits {bits : Nat} {cs : List Char} (hcs : ∀ c ∈ cs, isDigit c = true)
    {value : Nat} (hvalue : value < Nat.pow 2 bits) :
    magnitudeFrom bits 10 value cs =
      if Nat.ofDigitChars 10 cs value < Nat.pow 2 bits then .ok (Nat.ofDigitChars 10 cs value)
      else .error .outOfRange := by
  induction cs generalizing value with
  | nil => rw [magnitudeFrom, Nat.ofDigitChars_nil, if_pos hvalue]
  | cons c cs ih =>
    obtain ⟨hc, hcs⟩ := List.forall_mem_cons.mp hcs
    obtain ⟨hdigit, hlt⟩ := digit?_of_isDigit hc
    have hnext : value * 10 + (c.toNat - '0'.toNat) = 10 * value + (c.toNat - '0'.toNat) := by
      omega
    simp only [magnitudeFrom, hdigit, hnext, Nat.ofDigitChars_cons]
    rw [if_neg (by omega)]
    by_cases hover : Nat.pow 2 bits ≤ 10 * value + (c.toNat - '0'.toNat)
    · have hle := le_ofDigitChars cs (10 * value + (c.toNat - '0'.toNat))
      rw [if_pos hover, if_neg (by omega)]
    · rw [if_neg hover]
      exact ih hcs (by omega)

theorem splitSign_digits {cs : List Char} (hcs : ∀ c ∈ cs, isDigit c = true) :
    splitSign cs = (false, cs) := by
  unfold splitSign
  split
  · exact absurd (hcs '+' List.mem_cons_self) (by decide)
  · exact absurd (hcs '-' List.mem_cons_self) (by decide)
  · rfl

/-- **Digits are read as the number that they write**, unless it does not fit. -/
theorem decimal_digits {cs : List Char} (hne : cs ≠ []) (hcs : ∀ c ∈ cs, isDigit c = true) :
    decimal (.ofList cs) =
      if natural cs < Nat.pow 2 63 then .ok (Int64.ofInt (natural cs)) else .error .outOfRange := by
  have hmagnitude := magnitudeFrom_digits hcs (show 0 < Nat.pow 2 64 by decide)
  have hempty : cs.isEmpty = false := by simpa using hne
  simp only [decimal, decimalWithin, String.toList_ofList, splitSign_digits hcs, hempty,
    hmagnitude]
  by_cases hfits : natural cs < Nat.pow 2 63
  · have hlt : Nat.ofDigitChars 10 cs 0 < Nat.pow 2 64 := by
      exact Nat.lt_trans hfits (by decide)
    rw [if_pos hlt, if_pos hfits]
    exact if_pos hfits
  · rw [if_neg hfits]
    by_cases hlt : Nat.ofDigitChars 10 cs 0 < Nat.pow 2 64
    · rw [if_pos hlt]
      exact if_neg hfits
    · rw [if_neg hlt]
      rfl

/-- A number fits if it is the value of a number of 64 bits. -/
theorem decimal_digits_eq_ok_iff {cs : List Char} (hne : cs ≠ [])
    (hcs : ∀ c ∈ cs, isDigit c = true) {n : Int64} :
    decimal (.ofList cs) = .ok n ↔ (natural cs : Int) = n.toInt := by
  have hbound : Nat.pow 2 63 = 9223372036854775808 := by decide
  rw [decimal_digits hne hcs, hbound]
  by_cases hfits : natural cs < 9223372036854775808
  · have hvalue : (Int64.ofInt (natural cs)).toInt = natural cs :=
      Int64.toInt_ofInt_of_le (by omega) (by omega)
    rw [if_pos hfits, Except.ok.injEq, ← Int64.toInt_inj, hvalue]
  · rw [if_neg hfits]
    have hn := n.toInt_lt
    constructor
    · intro h
      cases h
    · intro h
      omega

end Adventure.Text.Numeral
