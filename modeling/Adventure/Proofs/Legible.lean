import Adventure.Proofs.RoundTrip
import Adventure.Proofs.WellFormed

/-!
# Texts that tell what was written

What is written of a thing is legible if a text that starts with it tells what the thing is and
where it ends: no other thing is written as a beginning of the same text (`Legible`). For this it
may matter what follows. A number, for example, ends where the digits end, so it is legible in front
of everything but a digit.

Numbers, names and quoted texts are legible, and so is everything that is written by writing legible
things one after the other, as long as each is followed by something that ends it. Lists are
legible if it can be told whether something more follows (`flatMap_append_inj`).
-/

namespace Adventure

open Text Parsing

/-- What is written of `a` tells that it is `a`, and what follows, where what follows is such that
`stop` holds of it and only things that are `ok` are written. -/
def Legible {α : Type} (write : α → List Char) (ok : α → Prop) (stop : List Char → Prop) (a : α) :
    Prop :=
  ∀ b, ok b → ∀ r s, stop r → stop s → write a ++ r = write b ++ s → a = b ∧ r = s

/-! ## Runs of characters -/

section Runs

variable {r s : List Char}

/-- Characters of a class end where something else follows. -/
theorem run_append_inj {p : Char → Bool} {xs ys : List Char}
    (hxs : ∀ c ∈ xs, p c = true) (hys : ∀ c ∈ ys, p c = true) (hr : Halts p r)
    (hs : Halts p s) (h : xs ++ r = ys ++ s) : xs = ys ∧ r = s := by
  have htake := congrArg (List.takeWhile p) h
  have hdrop := congrArg (List.dropWhile p) h
  rw [takeWhile_append_of_halts hxs hr, takeWhile_append_of_halts hys hs] at htake
  rw [dropWhile_append_of_halts hxs hr, dropWhile_append_of_halts hys hs] at hdrop
  exact ⟨htake, hdrop⟩

theorem name_append_inj {x y : String} (hx : IsName x) (hy : IsName y) (hr : Halts isWordChar r)
    (hs : Halts isWordChar s) (h : x.toList ++ r = y.toList ++ s) : x = y ∧ r = s := by
  obtain ⟨hname, hrest⟩ := run_append_inj hx.word hy.word hr hs h
  exact ⟨String.toList_inj.mp hname, hrest⟩

theorem nat_append_inj {m n : Nat} (hr : Halts isDigit r) (hs : Halts isDigit s)
    (h : (toString m).toList ++ r = (toString n).toList ++ s) : m = n ∧ r = s := by
  simp only [Nat.toString_eq_repr, Nat.toList_repr] at h
  obtain ⟨hdigits, hrest⟩ := run_append_inj (fun c => Numeral.isDigit_of_mem_toDigits)
    (fun c => Numeral.isDigit_of_mem_toDigits) hr hs h
  refine ⟨?_, hrest⟩
  have hvalue := congrArg (Nat.ofDigitChars 10 · 0) hdigits
  simpa only [Nat.ofDigitChars_ten_toDigits] using hvalue

theorem int_append_inj {a b : Int} (ha : 0 ≤ a) (hb : 0 ≤ b) (hr : Halts isDigit r)
    (hs : Halts isDigit s) (h : (toString a).toList ++ r = (toString b).toList ++ s) :
    a = b ∧ r = s := by
  obtain ⟨m, rfl⟩ := Int.eq_ofNat_of_zero_le ha
  obtain ⟨n, rfl⟩ := Int.eq_ofNat_of_zero_le hb
  obtain ⟨rfl, hrest⟩ := nat_append_inj hr hs h
  exact ⟨rfl, hrest⟩

theorem decimal_append_inj {m n : Int64} (hm : IsNatural m) (hn : IsNatural n)
    (hr : Halts isDigit r) (hs : Halts isDigit s)
    (h : (decimalText m).toList ++ r = (decimalText n).toList ++ s) : m = n ∧ r = s := by
  obtain ⟨hvalue, hrest⟩ := int_append_inj hm.1 hn.1 hr hs h
  exact ⟨Int64.toInt_inj.mp hvalue, hrest⟩

end Runs

/-! ## Escapes -/

namespace Text

/-- The digit of a hexadecimal numeral. -/
def hexDigit (c : Char) : Nat :=
  "0123456789abcdef".toList.idxOf c

/-- The number that hexadecimal digits write. -/
def hexValue (cs : List Char) : Nat :=
  cs.foldl (fun value c => 16 * value + hexDigit c) 0

theorem hexValue_toDigits (n : Nat) : hexValue (Nat.toDigits 16 n) = n := by
  have hdigit : ∀ d < 16, hexDigit (Nat.digitChar d) = d := by decide
  induction n using Nat.strongRecOn with
  | ind n ih =>
    rw [Nat.toDigits_eq_if (by decide)]
    split
    next hlt => simpa [hexValue] using hdigit n hlt
    next hge =>
      have hhead : hexValue (Nat.toDigits 16 (n / 16)) = n / 16 := ih (n / 16) (by omega)
      have hlast := hdigit (n % 16) (by omega)
      rw [hexValue, List.foldl_append, ← hexValue, hhead]
      simp only [List.foldl_cons, List.foldl_nil, hlast]
      omega

/-- Zeros at the front do not change the number. -/
theorem hexValue_hexadecimal (width n : Nat) : hexValue (hexadecimal width n) = n := by
  have hzeros : ∀ k, hexValue (List.replicate k '0') = 0 := by
    intro k
    induction k with
    | zero => rfl
    | succ k ih =>
      rw [List.replicate_succ', hexValue, List.foldl_append, ← hexValue, ih]
      rfl
  rw [hexadecimal, hexValue, List.foldl_append, ← hexValue, hzeros]
  exact hexValue_toDigits n

theorem length_hexadecimal {width n : Nat} (h : (Nat.toDigits 16 n).length ≤ width) :
    (hexadecimal width n).length = width := by
  rw [hexadecimal, List.length_append, List.length_replicate]
  omega

/-- The characters that are escaped by a letter or by themselves. -/
def letterEscapes : List (Char × Char) :=
  [('"', '"'), ('\\', '\\'), ('\x07', 'a'), ('\x08', 'b'), ('\x0c', 'f'), ('\n', 'n'), ('\r', 'r'),
    ('\t', 't'), ('\x0b', 'v')]

/-- The marks of the numerals of escapes, and how long these are. -/
def numeralEscapes : List (Char × Nat) :=
  [('x', 2), ('u', 4), ('U', 8)]

/-- A character stands for itself, or is escaped by a letter, or by its number. -/
theorem escaped_shape (c : Char) :
    (escaped c = [c] ∧ c ≠ '\\' ∧ c ≠ '"') ∨
    (∃ letter, (c, letter) ∈ letterEscapes ∧ escaped c = ['\\', letter]) ∨
    ∃ mark width, (mark, width) ∈ numeralEscapes ∧ (Nat.toDigits 16 c.toNat).length ≤ width ∧
      escaped c = '\\' :: mark :: hexadecimal width c.toNat := by
  have hletter : ∀ c' letter, c.toNat = c'.toNat → (c', letter) ∈ letterEscapes →
      (c, letter) ∈ letterEscapes := by
    intro c' letter hc hmem
    rwa [Char.toNat_inj.mp hc]
  have hfits : ∀ width, 0 < width → c.toNat < 16 ^ width →
      (Nat.toDigits 16 c.toNat).length ≤ width :=
    fun width hwidth h => (Nat.length_toDigits_le_iff (by decide) hwidth).mpr h
  unfold escaped
  split
  -- the characters that have a letter of their own
  next h => exact .inr (.inl ⟨_, hletter '"' _ h (by decide), rfl⟩)
  next h => exact .inr (.inl ⟨_, hletter '\\' _ h (by decide), rfl⟩)
  next h => exact .inr (.inl ⟨_, hletter '\x07' _ h (by decide), rfl⟩)
  next h => exact .inr (.inl ⟨_, hletter '\x08' _ h (by decide), rfl⟩)
  next h => exact .inr (.inl ⟨_, hletter '\x0c' _ h (by decide), rfl⟩)
  next h => exact .inr (.inl ⟨_, hletter '\n' _ h (by decide), rfl⟩)
  next h => exact .inr (.inl ⟨_, hletter '\r' _ h (by decide), rfl⟩)
  next h => exact .inr (.inl ⟨_, hletter '\t' _ h (by decide), rfl⟩)
  next h => exact .inr (.inl ⟨_, hletter '\x0b' _ h (by decide), rfl⟩)
  next hquote hbackslash _ _ _ _ _ _ _ =>
    -- all others stand for themselves or are written by their number
    split
    · refine .inl ⟨rfl, ?_, ?_⟩
      · rintro rfl
        exact hbackslash rfl
      · rintro rfl
        exact hquote rfl
    split
    next h => exact .inr (.inr ⟨_, 2, by decide, hfits 2 (by decide) (by omega), rfl⟩)
    split
    next h => exact .inr (.inr ⟨_, 4, by decide, hfits 4 (by decide) (by omega), rfl⟩)
    next =>
      have hlt : c.toNat < 0x110000 := by
        rcases c.valid with h | ⟨-, h⟩
        · exact Nat.lt_trans h (by decide)
        · exact h
      exact .inr (.inr ⟨_, 8, by decide, hfits 8 (by decide) (by omega), rfl⟩)

/-- **Escapes are legible**, whatever follows. -/
theorem escaped_append_inj {c d : Char} {r s : List Char} (h : escaped c ++ r = escaped d ++ s) :
    c = d ∧ r = s := by
  -- the character behind a backslash tells which kind of escape it is
  have hletters : ∀ p ∈ letterEscapes, ∀ q ∈ letterEscapes, p.2 = q.2 → p = q := by decide
  have hmarks : ∀ p ∈ letterEscapes, ∀ q ∈ numeralEscapes, p.2 ≠ q.1 := by decide
  have hwidths : ∀ p ∈ numeralEscapes, ∀ q ∈ numeralEscapes, p.1 = q.1 → p = q := by decide
  rcases escaped_shape c with ⟨hc, hne, -⟩ | ⟨letter, hmem, hc⟩ | ⟨mark, width, hmem, hle, hc⟩ <;>
    rcases escaped_shape d with
      ⟨hd, hne', -⟩ | ⟨letter', hmem', hd⟩ | ⟨mark', width', hmem', hle', hd⟩ <;>
    rw [hc, hd] at h <;> simp only [List.cons_append, List.nil_append, List.cons.injEq] at h
  · exact h
  · exact absurd h.1 hne
  · exact absurd h.1 hne
  · exact absurd h.1.symm hne'
  · exact ⟨congrArg Prod.fst (hletters _ hmem _ hmem' h.2.1), h.2.2⟩
  · exact absurd h.2.1 (hmarks _ hmem _ hmem')
  · exact absurd h.1.symm hne'
  · exact absurd h.2.1.symm (hmarks _ hmem' _ hmem)
  · -- the mark tells how many digits there are
    obtain ⟨-, hmark, hdigits⟩ := h
    obtain ⟨rfl, rfl⟩ := Prod.mk.inj (hwidths _ hmem _ hmem' hmark)
    have hlength : (hexadecimal width c.toNat).length = (hexadecimal width d.toNat).length := by
      rw [length_hexadecimal hle, length_hexadecimal hle']
    obtain ⟨hnumber, hrest⟩ := List.append_inj hdigits hlength
    have hvalue := congrArg hexValue hnumber
    rw [hexValue_hexadecimal, hexValue_hexadecimal] at hvalue
    exact ⟨Char.toNat_inj.mp hvalue, hrest⟩

/-- No character is written in a way that starts with a double quote. -/
theorem escaped_append_ne (c : Char) (r s : List Char) : escaped c ++ r ≠ '"' :: s := by
  intro h
  rcases escaped_shape c with ⟨hc, -, hne⟩ | ⟨letter, -, hc⟩ | ⟨mark, width, -, -, hc⟩
  · rw [hc] at h
    exact hne (List.cons.inj h).1
  · rw [hc] at h
    exact absurd (List.cons.inj h).1 (by decide)
  · rw [hc] at h
    exact absurd (List.cons.inj h).1 (by decide)

theorem flatMap_escaped_append_inj {xs ys r s : List Char}
    (h : xs.flatMap escaped ++ '"' :: r = ys.flatMap escaped ++ '"' :: s) : xs = ys ∧ r = s := by
  induction xs generalizing ys with
  | nil =>
    cases ys with
    | nil => exact ⟨rfl, (List.cons.inj h).2⟩
    | cons y ys =>
      rw [List.flatMap_cons, List.append_assoc] at h
      exact absurd h.symm (escaped_append_ne y _ _)
  | cons x xs ih =>
    rw [List.flatMap_cons, List.append_assoc] at h
    cases ys with
    | nil => exact absurd h (escaped_append_ne x _ _)
    | cons y ys =>
      rw [List.flatMap_cons, List.append_assoc] at h
      obtain ⟨rfl, hmore⟩ := escaped_append_inj h
      obtain ⟨rfl, hrest⟩ := ih hmore
      exact ⟨rfl, hrest⟩

/-- **Quoted texts are legible**, whatever follows. -/
theorem quoted_append_inj {x y : String} {r s : List Char}
    (h : (quoted x).toList ++ r = (quoted y).toList ++ s) : x = y ∧ r = s := by
  simp only [quoted, String.toList_ofList, escapedText, List.cons_append, List.append_assoc,
    List.nil_append, List.cons.injEq, true_and] at h
  obtain ⟨htext, hrest⟩ := flatMap_escaped_append_inj h
  exact ⟨String.toList_inj.mp htext, hrest⟩

end Text

/-! ## Lists -/

section Lists

variable {α : Type} {write : α → List Char} {ok : α → Prop} {stop : List Char → Prop}
  {xs ys : List α} {r s : List Char}

/-- **Lists are legible** if everything in them starts with `start` and what follows does not. -/
theorem flatMap_append_inj {start : List Char} (hstart : ∀ a, ok a → start <+: write a)
    (hstop : ∀ a, ok a → ∀ rest, stop (write a ++ rest))
    (hxs : ∀ x ∈ xs, ok x ∧ Legible write ok stop x) (hys : ∀ y ∈ ys, ok y)
    (hr : ¬start <+: r ∧ stop r) (hs : ¬start <+: s ∧ stop s)
    (h : xs.flatMap write ++ r = ys.flatMap write ++ s) : xs = ys ∧ r = s := by
  have hrest : ∀ zs : List α, (∀ z ∈ zs, ok z) → ∀ t, stop t → stop (zs.flatMap write ++ t) := by
    intro zs hzs t ht
    cases zs with
    | nil => exact ht
    | cons z zs =>
      rw [List.flatMap_cons, List.append_assoc]
      exact hstop z (hzs z List.mem_cons_self) _
  have hfirst : ∀ z, ok z → ∀ t, start <+: write z ++ t := fun z hz t =>
    (hstart z hz).trans (List.prefix_append _ _)
  -- induction on the first list; a text that goes on with `start` has another element
  induction xs generalizing ys with
  | nil =>
    cases ys with
    | nil => exact ⟨rfl, h⟩
    | cons y ys =>
      rw [List.flatMap_nil, List.nil_append, List.flatMap_cons, List.append_assoc] at h
      exact absurd (h ▸ hfirst y (hys y List.mem_cons_self) _) hr.1
  | cons x xs ih =>
    obtain ⟨⟨hx, hlegible⟩, hxs⟩ := List.forall_mem_cons.mp hxs
    rw [List.flatMap_cons, List.append_assoc] at h
    cases ys with
    | nil =>
      rw [List.flatMap_nil, List.nil_append] at h
      exact absurd (h ▸ hfirst x hx _) hs.1
    | cons y ys =>
      obtain ⟨hy, hothers⟩ := List.forall_mem_cons.mp hys
      rw [List.flatMap_cons, List.append_assoc] at h
      obtain ⟨rfl, hmore⟩ := hlegible y hy _ _ (hrest xs (fun z hz => (hxs z hz).1) r hr.2)
        (hrest ys hothers s hs.2) h
      obtain ⟨rfl, hend⟩ := ih hxs hothers hmore
      exact ⟨rfl, hend⟩

/-- Things with a separator between them. -/
def separated (separator : List Char) (write : α → List Char) : List α → List Char
  | [] => []
  | x :: xs => write x ++ xs.flatMap fun y => separator ++ write y

theorem toList_intercalate (separator : String) (f : α → String) (xs : List α) :
    (separator.intercalate (xs.map f)).toList =
      separated separator.toList (fun x => (f x).toList) xs := by
  induction xs with
  | nil => rfl
  | cons x xs ih =>
    cases xs with
    | nil => simp [separated]
    | cons y ys =>
      rw [List.map_cons, String.intercalate_cons_of_ne_nil (by simp), String.toList_append,
        String.toList_append, ih]
      simp [separated]

/-- **Lists with separators are legible** in front of what can neither go on with a separator nor
start a list. -/
theorem separated_append_inj {separator : List Char} (hstop : ∀ rest, stop (separator ++ rest))
    (hxs : ∀ x ∈ xs, ok x ∧ Legible write ok stop x) (hys : ∀ y ∈ ys, ok y)
    (hr : ¬separator <+: r ∧ stop r) (hs : ¬separator <+: s ∧ stop s)
    (hr' : ∀ a, ok a → ∀ t, write a ++ t ≠ r) (hs' : ∀ a, ok a → ∀ t, write a ++ t ≠ s)
    (h : separated separator write xs ++ r = separated separator write ys ++ s) :
    xs = ys ∧ r = s := by
  have hlegible : ∀ x ∈ xs, ok x ∧ Legible (fun y => separator ++ write y) ok stop x := by
    refine fun x hx => ⟨(hxs x hx).1, fun y hy r s hr hs h => ?_⟩
    rw [List.append_assoc, List.append_assoc] at h
    exact (hxs x hx).2 y hy r s hr hs (List.append_cancel_left h)
  have hmore : ∀ zs : List α, ∀ t, stop t →
      stop ((zs.flatMap fun y => separator ++ write y) ++ t) := by
    intro zs t ht
    cases zs with
    | nil => exact ht
    | cons z zs =>
      rw [List.flatMap_cons, List.append_assoc, List.append_assoc]
      exact hstop _
  rcases xs with - | ⟨x, xs⟩
  · rcases ys with - | ⟨y, ys⟩
    · exact ⟨rfl, h⟩
    · rw [separated, separated, List.nil_append, List.append_assoc] at h
      exact absurd h.symm (hr' y (hys y List.mem_cons_self) _)
  · obtain ⟨⟨hx, hfirst⟩, -⟩ := List.forall_mem_cons.mp hxs
    rcases ys with - | ⟨y, ys⟩
    · rw [separated, separated, List.nil_append, List.append_assoc] at h
      exact absurd h (hs' x hx _)
    · obtain ⟨hy, hothers⟩ := List.forall_mem_cons.mp hys
      rw [separated, separated, List.append_assoc, List.append_assoc] at h
      -- the first elements are the same, and the others stand behind separators
      obtain ⟨rfl, htail⟩ := hfirst y hy _ _ (hmore xs r hr.2) (hmore ys s hs.2) h
      obtain ⟨rfl, hend⟩ := flatMap_append_inj (fun a _ => List.prefix_append _ _)
        (fun a _ rest => by rw [List.append_assoc]; exact hstop _)
        (List.forall_mem_cons.mp hlegible).2 hothers hr hs htail
      exact ⟨rfl, hend⟩

end Lists

/-! ## Expressions -/

/-- What ends an expression: no letter, no digit, and no parenthesis that would make a call of a
name. -/
def Stops (rest : List Char) : Prop :=
  Halts (fun c => isWordChar c || isDigit c || c == '(') rest

section Stops

variable {c : Char} {r s : List Char}

/-- Signs that stand between words. -/
def marks : List Char :=
  ['\n', ' ', ')', ',', ':', '/', '(']

theorem halts_mark (hc : c ∈ marks) (r : List Char) : Halts isWordChar (c :: r) := by
  have hmarks : marks.all (fun c => !isWordChar c) = true := by decide +kernel
  exact halts_cons.mpr (by simpa using List.all_eq_true.mp hmarks c hc)

theorem stops_mark (hc : c ∈ marks) (hne : c ≠ '(') (r : List Char) : Stops (c :: r) := by
  have hword := halts_cons.mp (halts_mark hc r)
  have hmarks : marks.all (fun c => !isDigit c) = true := by decide
  have hdigit : isDigit c = false := by simpa using List.all_eq_true.mp hmarks c hc
  exact halts_cons.mpr (by simp [hword, hdigit, hne])

/-- A newline ends an expression. -/
theorem stops_newline (r : List Char) : Stops ('\n' :: r) :=
  stops_mark (by decide) (by decide) r

/-- So does a blank. -/
theorem stops_blank (r : List Char) : Stops (' ' :: r) :=
  stops_mark (by decide) (by decide) r

/-- So does a closing parenthesis. -/
theorem stops_closing (r : List Char) : Stops (')' :: r) :=
  stops_mark (by decide) (by decide) r

theorem Stops.word (h : Stops r) : Halts isWordChar r :=
  Halts.mono h fun c hc => by simp [hc]

theorem Stops.digit (h : Stops r) : Halts isDigit r :=
  Halts.mono h fun c hc => by simp [hc]

theorem not_stops_cons (hc : (isWordChar c || isDigit c || c == '(') = true) : ¬Stops (c :: r) := by
  intro h
  have hfalse := halts_cons.mp h
  rw [hc] at hfalse
  cases hfalse

end Stops

/-- What an expression can start with. -/
inductive Opening where
  | letter | digit | quote | caret | parenthesis | other

/-- What a character can start. -/
def openingOf (c : Char) : Opening :=
  if isWordChar c then .letter
  else if isDigit c then .digit
  else if c = '"' then .quote
  else if c = '^' then .caret
  else if c = '(' then .parenthesis
  else .other

namespace Expr

variable {e e' : Expr} {r s : List Char}

/-- What is written first of an expression. -/
def opening : Expr → Opening
  | .var _ | .call .. => .letter
  | .number _ | .dice _ => .digit
  | .text _ => .quote
  | .roll _ => .caret
  | .chain .. => .parenthesis
  | .hole | .foreign _ => .other

theorem exists_opening (he : e.WellFormed) :
    ∃ c cs, e.format.toList = c :: cs ∧ openingOf c = e.opening := by
  have hname : ∀ x : String, IsName x → ∃ c cs, x.toList = c :: cs ∧ openingOf c = .letter := by
    intro x hx
    obtain ⟨c, cs, hcs⟩ := List.exists_cons_of_ne_nil (mt String.toList_eq_nil_iff.mp hx.ne_empty)
    exact ⟨c, cs, hcs, if_pos (hx.word c (hcs ▸ List.mem_cons_self))⟩
  have hnumber : ∀ n, IsNatural n →
      ∃ c cs, (decimalText n).toList = c :: cs ∧ openingOf c = .digit := by
    intro n hn
    obtain ⟨hne, hdigits, -⟩ := decimalText_digits hn.1
    obtain ⟨c, cs, hcs⟩ := List.exists_cons_of_ne_nil hne
    have hc := hdigits c (hcs ▸ List.mem_cons_self)
    exact ⟨c, cs, hcs, by simp [openingOf, isWordChar_of_isDigit hc, hc]⟩
  cases e with
  | number n => exact hnumber n he
  | text s => exact ⟨'"', _, by rw [format, quoted, String.toList_ofList]; rfl, by rfl⟩
  | dice d =>
    obtain ⟨c, cs, hcs, hc⟩ := hnumber d.count he.1
    refine ⟨c, cs ++ 'd' :: (decimalText d.faces).toList, ?_, hc⟩
    simp [format, Dice.format, hcs]
  | var x => exact hname x he
  | call f args =>
    obtain ⟨c, cs, hcs, hc⟩ := hname f he.1
    refine ⟨c, cs ++ '(' :: Grammar.listed args, ?_, hc⟩
    rw [Grammar.format_call, hcs, List.cons_append]
  | roll e => exact ⟨'^', e.format.toList, by simp [format], by rfl⟩
  | chain operands operators => exact ⟨'(', _, by simp [format]; rfl, by rfl⟩
  | hole => exact he.elim
  | «foreign» label => exact he.elim

/-- The first character tells what sort of expression it is. -/
theorem opening_eq (he : e.WellFormed) (he' : e'.WellFormed)
    (h : e.format.toList ++ r = e'.format.toList ++ s) : e.opening = e'.opening := by
  obtain ⟨c, cs, hcs, hc⟩ := exists_opening he
  obtain ⟨c', cs', hcs', hc'⟩ := exists_opening he'
  rw [hcs, hcs', List.cons_append, List.cons_append] at h
  rw [← hc, ← hc', (List.cons.inj h).1]

/-- No expression starts with a character that can start none. -/
theorem format_append_ne {c : Char} (he : e.WellFormed) (hc : openingOf c = .other) :
    e.format.toList ++ r ≠ c :: s := by
  intro h
  obtain ⟨c', cs, hcs, hc'⟩ := exists_opening he
  rw [hcs, List.cons_append] at h
  rw [(List.cons.inj h).1, hc] at hc'
  cases e <;> first | exact he.elim | cases hc'

/-- The expression is legible in front of what ends an expression. -/
def IsLegible (e : Expr) : Prop :=
  Legible (fun e : Expr => e.format.toList) WellFormed Stops e

/-! ### Literals and variables -/

theorem toList_format_dice (d : Dice) :
    d.format.toList = (decimalText d.count).toList ++ 'd' :: (decimalText d.faces).toList := by
  simp [Dice.format]

/-- A number and dice are told apart by what follows the first digits. -/
theorem number_append_ne_dice {n : Int64} {d : Dice} (hn : IsNatural n) (hd : d.WellFormed)
    (hr : Stops r) : (decimalText n).toList ++ r ≠ d.format.toList ++ s := by
  intro h
  rw [toList_format_dice, List.append_assoc, List.cons_append] at h
  obtain ⟨-, hrest⟩ := decimal_append_inj hn hd.1 hr.digit (halts_cons.mpr (by decide)) h
  exact not_stops_cons (by decide) (hrest ▸ hr)

theorem isLegible_number {n : Int64} (hn : IsNatural n) : (number n).IsLegible := by
  intro e' he' r s hr hs h
  have hopening := opening_eq (e := number n) hn he' h
  cases e' with
  | number m =>
    simp only [format] at h
    obtain ⟨rfl, hrest⟩ := decimal_append_inj hn he' hr.digit hs.digit h
    exact ⟨rfl, hrest⟩
  | dice d =>
    simp only [format] at h
    exact absurd h (number_append_ne_dice hn he' hr)
  | _ => cases hopening

theorem isLegible_dice {d : Dice} (hd : d.WellFormed) : (dice d).IsLegible := by
  intro e' he' r s hr hs h
  have hopening := opening_eq (e := dice d) hd he' h
  cases e' with
  | number m =>
    simp only [format] at h
    exact absurd h.symm (number_append_ne_dice he' hd hs)
  | dice d' =>
    simp only [format, toList_format_dice, List.append_assoc, List.cons_append] at h
    obtain ⟨hcount, hmore⟩ := decimal_append_inj hd.1 he'.1 (halts_cons.mpr (by decide))
      (halts_cons.mpr (by decide)) h
    obtain ⟨hfaces, hrest⟩ := decimal_append_inj hd.2 he'.2 hr.digit hs.digit
      (List.cons.inj hmore).2
    exact ⟨congrArg dice (congrArg₂ Dice.mk hcount hfaces), hrest⟩
  | _ => cases hopening

theorem isLegible_text (t : String) : (text t).IsLegible := by
  intro e' he' r s hr hs h
  have hopening := opening_eq (e := text t) trivial he' h
  cases e' with
  | text t' =>
    simp only [format] at h
    obtain ⟨rfl, hrest⟩ := quoted_append_inj h
    exact ⟨rfl, hrest⟩
  | _ => cases hopening

/-- A variable and a call are told apart by what follows the name. -/
theorem name_append_ne_call {x f : String} {args : List Expr} (hx : IsName x) (hf : IsName f)
    (hr : Stops r) : x.toList ++ r ≠ (call f args).format.toList ++ s := by
  intro h
  rw [Grammar.format_call, List.append_assoc, List.cons_append] at h
  obtain ⟨-, hrest⟩ := name_append_inj hx hf hr.word (halts_mark (by decide) _) h
  exact not_stops_cons (by simp) (hrest ▸ hr)

theorem isLegible_var {x : String} (hx : IsName x) : (var x).IsLegible := by
  intro e' he' r s hr hs h
  have hopening := opening_eq (e := var x) hx he' h
  cases e' with
  | var y =>
    simp only [format] at h
    obtain ⟨rfl, hrest⟩ := name_append_inj hx he' hr.word hs.word h
    exact ⟨rfl, hrest⟩
  | call f args => exact absurd h (name_append_ne_call hx he'.1 hr)
  | _ => cases hopening

/-! ### Calls, rolls and chains -/

theorem isLegible_roll (he : (roll e).WellFormed) (hlegible : e.IsLegible) :
    (roll e).IsLegible := by
  intro e' he' r s hr hs h
  have hopening := opening_eq he he' h
  cases e' with
  | roll e' =>
    simp only [format, String.toList_append, List.append_assoc] at h
    obtain ⟨rfl, hrest⟩ := hlegible e' he'.2 r s hr hs (List.append_cancel_left h)
    exact ⟨rfl, hrest⟩
  | _ => cases hopening

theorem listed_eq_separated (es : List Expr) :
    Grammar.listed es = separated [',', ' '] (fun e : Expr => e.format.toList) es ++ [')'] := by
  rw [Grammar.listed, formatAll_eq_map, toList_intercalate]
  rfl

theorem isLegible_call {f : String} {args : List Expr} (he : (call f args).WellFormed)
    (hargs : ∀ e ∈ args, e.WellFormed ∧ e.IsLegible) : (call f args).IsLegible := by
  intro e' he' r s hr hs h
  have hopening := opening_eq he he' h
  cases e' with
  | var x => exact absurd h.symm (name_append_ne_call he' he.1 hs)
  | call f' args' =>
    simp only [Grammar.format_call, listed_eq_separated, List.append_assoc, List.cons_append,
      List.nil_append] at h
    obtain ⟨rfl, hmore⟩ := name_append_inj he.1 he'.1 (halts_mark (by decide) _)
      (halts_mark (by decide) _) h
    have hend : ∀ t, ¬[',', ' '] <+: ')' :: t ∧ Stops (')' :: t) := fun t =>
      ⟨by simp, stops_closing t⟩
    have hnone : ∀ t (a : Expr), a.WellFormed → ∀ u, a.format.toList ++ u ≠ ')' :: t :=
      fun t a ha u => format_append_ne ha (by rfl)
    have hcomma : ∀ t, Stops (',' :: t) := stops_mark (by decide) (by decide)
    obtain ⟨rfl, hrest⟩ := separated_append_inj (fun t => hcomma (' ' :: t)) hargs
      (allWellFormed_iff.mp he'.2) (hend r) (hend s) (hnone r) (hnone s) (List.cons.inj hmore).2
    exact ⟨rfl, (List.cons.inj hrest).2⟩
  | _ => cases hopening

end Expr

/-- Signs that have no blank in them can be told in front of one. -/
theorem symbol_append_inj {α : Type} {symbol : α → String} {all : List α}
    (hsymbols : ∀ x ∈ all, (symbol x).toList.all (· != ' ') = true)
    (hinj : ∀ x ∈ all, ∀ y ∈ all, (symbol x).toList = (symbol y).toList → x = y) {x y : α}
    (hx : x ∈ all) (hy : y ∈ all) {r s : List Char}
    (h : (symbol x).toList ++ ' ' :: r = (symbol y).toList ++ ' ' :: s) : x = y ∧ r = s := by
  obtain ⟨hsymbol, hrest⟩ := run_append_inj (List.all_eq_true.mp (hsymbols x hx))
    (List.all_eq_true.mp (hsymbols y hy)) (halts_cons.mpr (by decide))
    (halts_cons.mpr (by decide)) h
  exact ⟨hinj x hx y hy hsymbol, (List.cons.inj hrest).2⟩

/-- The operators of the language. -/
def ArithOp.all : List ArithOp :=
  [.add, .sub, .mul, .div]

namespace Expr

variable {e e' : Expr} {r s : List Char}

/-- An operand behind its operator. -/
def behindOperator (x : ArithOp × Expr) : List Char :=
  ' ' :: (x.1.symbol.toList ++ ' ' :: x.2.format.toList)

theorem toList_joined (more : List (ArithOp × Expr)) :
    (Grammar.joined more).toList = more.flatMap behindOperator := by
  induction more with
  | nil => rfl
  | cons x more ih =>
    rw [Grammar.toList_joined_cons, ih, List.flatMap_cons, behindOperator]
    simp

/-- A chain has a first operand, and each of the others stands behind an operator. -/
theorem Chained.exists_chained {operands : List Expr} {operators : List ArithOp}
    (h : Chained operands operators) :
    ∃ (first : Expr) (more : List (ArithOp × Expr)), more ≠ [] ∧
      operands = first :: more.map (·.2) ∧ chain operands operators = Grammar.chained first more ∧
      ∀ x ∈ more, x.1 ∈ ArithOp.all := by
  obtain ⟨hne, hlength, htier, -⟩ := h
  rcases operands with - | ⟨first, rest⟩
  · cases hlength
  have hsame : operators.length = rest.length := (Nat.succ.inj hlength).symm
  have hfst : (operators.zip rest).map (·.1) = operators := List.map_fst_zip (Nat.le_of_eq hsame)
  have hsnd : (operators.zip rest).map (·.2) = rest := List.map_snd_zip (Nat.le_of_eq hsame.symm)
  have hzip : operators.zip rest ≠ [] := by
    intro hnil
    rw [hnil] at hfst
    exact hne hfst.symm
  refine ⟨first, operators.zip rest, hzip, by rw [hsnd], ?_, fun x hx => ?_⟩
  · rw [Grammar.chained_of_ne_nil first hzip, hfst, hsnd]
  · have hmem : x.1 ∈ operators := hfst ▸ List.mem_map_of_mem hx
    rcases htier with htier | htier
    · exact (by decide : [ArithOp.add, .sub] ⊆ ArithOp.all) (htier hmem)
    · exact (by decide : [ArithOp.mul, .div] ⊆ ArithOp.all) (htier hmem)

/-- What can stand behind an operator. -/
def IsBehind (x : ArithOp × Expr) : Prop :=
  x.1 ∈ ArithOp.all ∧ x.2.WellFormed

theorem legible_behindOperator {x : ArithOp × Expr} (hx : x.1 ∈ ArithOp.all)
    (hlegible : x.2.IsLegible) : Legible behindOperator IsBehind Stops x := by
  rintro y ⟨hop, he⟩ r s hr hs h
  simp only [behindOperator, List.cons_append, List.append_assoc, List.cons.injEq, true_and] at h
  obtain ⟨hop, hmore⟩ := symbol_append_inj (by decide) (by decide) hx hop h
  obtain ⟨he, hrest⟩ := hlegible y.2 he r s hr hs hmore
  exact ⟨Prod.ext hop he, hrest⟩

theorem isLegible_chain {operands : List Expr} {operators : List ArithOp}
    (he : (chain operands operators).WellFormed)
    (hoperands : ∀ e ∈ operands, e.WellFormed ∧ e.IsLegible) :
    (chain operands operators).IsLegible := by
  intro e' he' r s hr hs h
  -- the first character tells that the other expression is a chain, too
  have hopening := opening_eq he he' h
  cases e' with
  | chain operands' operators' =>
    obtain ⟨first, more, hne, rfl, hchain, hops⟩ := he.1.exists_chained
    obtain ⟨first', more', hne', rfl, hchain', hops'⟩ := he'.1.exists_chained
    obtain ⟨⟨-, hfirst⟩, hmore⟩ := List.forall_mem_cons.mp hoperands
    obtain ⟨hfirst', hmore'⟩ := List.forall_mem_cons.mp (allWellFormed_iff.mp he'.2)
    rw [hchain, hchain'] at h ⊢
    simp only [Grammar.format_chained first hne, Grammar.format_chained first' hne', toList_joined,
      List.cons_append, List.append_assoc, List.nil_append, List.cons.injEq, true_and] at h
    have hend : ∀ t, ¬[' '] <+: ')' :: t ∧ Stops (')' :: t) := fun t =>
      ⟨by simp, stops_closing t⟩
    have hstops : ∀ (xs : List (ArithOp × Expr)) t,
        Stops (xs.flatMap behindOperator ++ ')' :: t) := by
      intro xs t
      cases xs with
      | nil => exact (hend t).2
      | cons x xs => exact stops_blank _
    have hbehind : ∀ x ∈ more, IsBehind x ∧ Legible behindOperator IsBehind Stops x := by
      intro x hx
      obtain ⟨hwf, hlegible⟩ := hmore x.2 (List.mem_map_of_mem hx)
      exact ⟨⟨hops x hx, hwf⟩, legible_behindOperator (hops x hx) hlegible⟩
    have hbehind' : ∀ x ∈ more', IsBehind x := fun x hx =>
      ⟨hops' x hx, hmore' x.2 (List.mem_map_of_mem hx)⟩
    -- the first operands are the same, and the others stand behind their operators
    obtain ⟨rfl, htail⟩ := hfirst first' hfirst' _ _ (hstops more r) (hstops more' s) h
    obtain ⟨rfl, hrest⟩ := flatMap_append_inj (fun x _ => List.prefix_append [' '] _)
      (fun x _ t => stops_blank _) hbehind hbehind' (hend r) (hend s) htail
    exact ⟨rfl, (List.cons.inj hrest).2⟩
  | _ => cases hopening

mutual

/-- **Expressions are legible.** -/
theorem isLegible : ∀ e : Expr, e.WellFormed → e.IsLegible
  | .number _, h => isLegible_number h
  | .text t, _ => isLegible_text t
  | .dice _, h => isLegible_dice h
  | .var _, h => isLegible_var h
  | .call _ args, h => isLegible_call h (allLegible args h.2)
  | .roll e, h => isLegible_roll h (isLegible e h.2)
  | .chain operands _, h => isLegible_chain h (allLegible operands h.2)
  | .hole, h => h.elim
  | .foreign _, h => h.elim

theorem allLegible : ∀ es : List Expr, AllWellFormed es → ∀ e ∈ es, e.WellFormed ∧ e.IsLegible
  | [], _ => fun _ he => nomatch he
  | e :: es, h => List.forall_mem_cons.mpr ⟨⟨h.1, isLegible e h.1⟩, allLegible es h.2⟩

end

theorem format_append_inj (he : e.WellFormed) (he' : e'.WellFormed) (hr : Stops r) (hs : Stops s)
    (h : e.format.toList ++ r = e'.format.toList ++ s) : e = e' ∧ r = s :=
  isLegible e he e' he' r s hr hs h

end Expr

/-! ## Conditions -/

/-- The comparisons of the language. -/
def CompareOp.all : List CompareOp :=
  [.less, .greater, .lessEqual, .greaterEqual, .equal]

theorem Condition.op_mem_all {c : Condition} (h : c.WellFormed) : c.op ∈ CompareOp.all := by
  rcases hop : c.op with - | - | - | - | - | code
  case other => exact absurd hop (h.op code)
  all_goals decide

theorem Condition.toList_format (c : Condition) :
    c.format.toList = '(' :: (c.left.format.toList ++ ' ' :: (c.op.symbol.toList ++
      ' ' :: (c.right.format.toList ++ [')']))) := by
  simp [Condition.format]

/-- **Conditions are legible**, whatever follows. -/
theorem Condition.format_append_inj {c c' : Condition} {r s : List Char} (hc : c.WellFormed)
    (hc' : c'.WellFormed) (h : c.format.toList ++ r = c'.format.toList ++ s) :
    c = c' ∧ r = s := by
  simp only [toList_format, List.cons_append, List.append_assoc, List.nil_append, List.cons.injEq,
    true_and] at h
  obtain ⟨hleft, h⟩ := Expr.format_append_inj hc.left hc'.left (stops_blank _) (stops_blank _) h
  obtain ⟨hop, h⟩ := symbol_append_inj (by decide) (by decide) (op_mem_all hc) (op_mem_all hc')
    (List.cons.inj h).2
  obtain ⟨hright, h⟩ := Expr.format_append_inj hc.right hc'.right (stops_closing r)
    (stops_closing s) h
  refine ⟨?_, (List.cons.inj h).2⟩
  obtain ⟨left, op, right⟩ := c
  obtain rfl : left = c'.left := hleft
  obtain rfl : op = c'.op := hop
  obtain rfl : right = c'.right := hright
  rfl

end Adventure
