import Mathlib.Algebra.Order.BigOperators.Group.Finset
import Adventure.Proofs.Settled

/-!
# Draws succeed

A number below a bound is drawn by rejection, so that a draw might go on for ever. It does not, from
whatever state the generator is in (`Generator.exists_below`).

A draw is rejected only if the word is *heavy*: its 63 low bits are at least half of what they can
be. Suppose that all words from some point on are heavy. Then soon all words of the ring are. The
next word is the sum of two of them without the carry, which is less than either, and it takes the
place of one of them. So the sum of the ring goes down whenever a word is replaced, and that cannot
go on for ever.

The type of generators has rings of any length, and places outside of the ring. Words that are not
there count as zero and cannot be replaced, so one has to find a moment at which both words are
there, or neither (`Generator.exists_same_side`).
-/

namespace Adventure

namespace Generator

/-- The generator after a word. -/
def next (g : Generator) : Generator :=
  g.word.2

/-- The 63 low bits of the word at a place. -/
def weight (g : Generator) (i : Nat) : Nat :=
  (g.words.getD i 0).toNat % 2 ^ 63

/-- The weights of the whole ring. -/
def totalWeight (g : Generator) : Nat :=
  ∑ i ∈ Finset.range size, g.weight i

variable {g : Generator} {i k : Nat}

/-! ## One word -/

theorem weight_lt (g : Generator) (i : Nat) : g.weight i < 2 ^ 63 :=
  Nat.mod_lt _ (by decide)

/-- There is no weight beyond the words. -/
theorem weight_of_size_le (h : g.words.size ≤ i) : g.weight i = 0 := by
  simp [weight, Array.getD_eq_getD_getElem?, h]

@[simp] theorem feed_next (g : Generator) : g.next.feed = back g.feed := rfl

@[simp] theorem tap_next (g : Generator) : g.next.tap = back g.tap := rfl

@[simp] theorem size_words_next (g : Generator) : g.next.words.size = g.words.size :=
  Array.size_setIfInBounds

theorem snd_bits63 (g : Generator) : g.bits63.2 = g.next := rfl

theorem snd_bits31 (g : Generator) : g.bits31.2 = g.next := rfl

theorem fst_bits31 (g : Generator) : g.bits31.1 = g.bits63.1 / 2 ^ 32 := rfl

theorem toNat_add_mod (x y : UInt64) :
    (x + y).toNat % 2 ^ 63 = (x.toNat % 2 ^ 63 + y.toNat % 2 ^ 63) % 2 ^ 63 := by
  rw [UInt64.toNat_add]
  omega

/-- A draw is the sum of two weights. -/
theorem fst_bits63 (g : Generator) :
    g.bits63.1 = (g.weight (back g.feed) + g.weight (back g.tap)) % 2 ^ 63 := by
  have hmask : g.bits63.1 = g.word.1.toNat % 2 ^ 63 := by
    simp only [bits63, UInt64.toNat_and]
    exact Nat.and_two_pow_sub_one_eq_mod _ 63
  rw [hmask]
  exact toNat_add_mod _ _

/-- The new word is put where the first of its summands was. -/
theorem weight_next_self (h : back g.feed < g.words.size) :
    g.next.weight (back g.feed) = g.bits63.1 := by
  rw [fst_bits63, weight, weight, weight, ← toNat_add_mod]
  simp [next, word, Array.getD_eq_getD_getElem?, h]

/-- A step changes one weight at most. -/
theorem weight_next_of_ne (h : i ≠ back g.feed) : g.next.weight i = g.weight i := by
  simp [next, word, weight, Array.getD_eq_getD_getElem?, h.symm]

/-- A step changes no weight if it feeds a place beyond the words. -/
theorem weight_next_of_size_le (h : g.words.size ≤ back g.feed) (i : Nat) :
    g.next.weight i = g.weight i := by
  simp [next, word, weight, Array.getD_eq_getD_getElem?, Array.setIfInBounds_eq_of_size_le h]

/-! ## Going around the ring -/

/-- A step back stays within the words. -/
theorem back_lt (h : i < size) : back i < size := by
  simp only [back, size] at *
  split <;> omega

/-- Going back is going forward by one place less than there are, as often. -/
theorem iterate_back (h : i < size) (k : Nat) : back^[k] i = (i + 606 * k) % 607 := by
  induction k with
  | zero => exact (Nat.mod_eq_of_lt h).symm
  | succ k ih =>
    rw [Function.iterate_succ_apply', ih]
    simp only [back, size]
    split <;> omega

/-- Going back as often as possible leads to the first place. -/
theorem iterate_back_self (i : Nat) : back^[i] i = 0 := by
  induction i with
  | zero => rfl
  | succ i ih => exact ih

/-- From any place one gets into the ring, and stays there. -/
theorem iterate_back_lt (h : i ≤ k) : back^[k] i < size := by
  obtain ⟨j, rfl⟩ := Nat.exists_eq_add_of_le' h
  rw [Function.iterate_add_apply, iterate_back_self, iterate_back (by decide)]
  exact Nat.mod_lt _ (by decide)

/-- After some steps the place that is fed is as many places back. -/
theorem feed_iterate_next (g : Generator) (k : Nat) : (next^[k] g).feed = back^[k] g.feed := by
  induction k generalizing g with
  | zero => rfl
  | succ k ih => exact ih g.next

/-- After some steps the tap is as many places back. -/
theorem tap_iterate_next (g : Generator) (k : Nat) : (next^[k] g).tap = back^[k] g.tap := by
  induction k generalizing g with
  | zero => rfl
  | succ k ih => exact ih g.next

/-- Steps keep the number of words. -/
theorem size_words_iterate_next (g : Generator) (k : Nat) :
    (next^[k] g).words.size = g.words.size := by
  induction k generalizing g with
  | zero => rfl
  | succ k ih => exact (ih g.next).trans g.size_words_next

/-- Every place of the ring comes next once in a round. -/
theorem exists_iterate_back {f : Nat} (hf : f < size) (hi : i < size) :
    ∃ k < size, back^[k + 1] f = i := by
  refine ⟨(f + 606 - i) % 607, Nat.mod_lt _ (by decide), ?_⟩
  rw [iterate_back hf]
  simp only [size] at hf hi
  omega

/-- However many words there are, two places that go around the ring come to be on the same side of
the last word at the same time. The ring has an odd number of places, so they cannot always be on
different sides. -/
theorem exists_same_side (n : Nat) {f t : Nat} (hf : f < size) (ht : t < size) :
    ∃ k, back^[k + 1] f < n ↔ back^[k + 1] t < n := by
  simp only [iterate_back hf, iterate_back ht]
  simp only [size] at hf ht
  -- the distance of the two places stays the same
  obtain ⟨e, he, hdistance⟩ : ∃ e < 607, ∀ k, (t + 606 * (k + 1)) % 607 =
      ((f + 606 * (k + 1)) % 607 + e) % 607 := ⟨(t + 607 - f) % 607, by omega, fun k => by omega⟩
  simp only [hdistance]
  suffices hplace : ∃ i < 607, i < n ↔ (i + e) % 607 < n by
    obtain ⟨i, hi, hside⟩ := hplace
    refine ⟨(f + 606 - i) % 607, ?_⟩
    have hplace : (f + 606 * ((f + 606 - i) % 607 + 1)) % 607 = i := by omega
    rwa [hplace]
  rcases Nat.lt_or_ge e n with hlt | hge
  · exact ⟨0, by omega, by omega⟩
  rcases Nat.lt_or_ge n e with hlt | hle
  · exact ⟨606, by omega, by omega⟩
  obtain rfl : e = n := Nat.le_antisymm hle hge
  rcases Nat.lt_or_ge (2 * e) 607 with hlt | hge
  · have hdouble : (e + e) % 607 = e + e := Nat.mod_eq_of_lt (by omega)
    exact ⟨e, by omega, by omega⟩
  · exact ⟨607 - e, by omega, by omega⟩

/-! ## Heavy words -/

/-- All words from now on are heavy. -/
def OnlyHeavy (g : Generator) : Prop :=
  ∀ k, 2 ^ 62 ≤ (next^[k] g).bits63.1

/-- Where only heavy words are drawn, it stays so. -/
theorem OnlyHeavy.iterate (h : g.OnlyHeavy) (k : Nat) : (next^[k] g).OnlyHeavy := by
  intro j
  rw [← Function.iterate_add_apply]
  exact h (j + k)

/-- Heavy words stay heavy. -/
theorem OnlyHeavy.weight_next (h : g.OnlyHeavy) (hi : 2 ^ 62 ≤ g.weight i) :
    2 ^ 62 ≤ g.next.weight i := by
  rcases Nat.lt_or_ge (back g.feed) g.words.size with hlt | hge
  · by_cases heq : i = back g.feed
    · rw [heq, weight_next_self hlt]
      exact h 0
    · rwa [weight_next_of_ne heq]
  · rwa [weight_next_of_size_le hge]

/-- A word stays heavy. -/
theorem OnlyHeavy.weight_iterate (h : g.OnlyHeavy) (hi : 2 ^ 62 ≤ g.weight i) (k : Nat) :
    2 ^ 62 ≤ (next^[k] g).weight i := by
  induction k with
  | zero => exact hi
  | succ k ih =>
    rw [Function.iterate_succ_apply']
    exact (h.iterate k).weight_next ih

/-- All words are heavy, those to come and those of the ring. -/
structure Stuck (g : Generator) : Prop where
  feed : g.feed < size
  tap : g.tap < size
  onlyHeavy : g.OnlyHeavy
  heavy : ∀ i < size, i < g.words.size → 2 ^ 62 ≤ g.weight i

/-- After a round, all words of the ring are heavy. -/
theorem OnlyHeavy.stuck (h : g.OnlyHeavy) (hfeed : g.feed < size) (htap : g.tap < size) :
    (next^[size] g).Stuck where
  feed := by
    rw [feed_iterate_next, iterate_back hfeed]
    exact Nat.mod_lt _ (by decide)
  tap := by
    rw [tap_iterate_next, iterate_back htap]
    exact Nat.mod_lt _ (by decide)
  onlyHeavy := h.iterate size
  heavy := by
    intro i hi hsize
    rw [size_words_iterate_next] at hsize
    obtain ⟨k, hk, hplace⟩ := exists_iterate_back hfeed hi
    have hplace' : back (next^[k] g).feed = i := by
      rw [feed_iterate_next, ← hplace, Function.iterate_succ_apply']
    have hheavy : 2 ^ 62 ≤ (next^[k + 1] g).weight i := by
      rw [Function.iterate_succ_apply', ← hplace', weight_next_self]
      · exact h k
      · rwa [hplace', size_words_iterate_next]
    obtain ⟨j, hj⟩ := Nat.exists_eq_add_of_le' (show k + 1 ≤ size from hk)
    rw [hj, Function.iterate_add_apply]
    exact (h.iterate (k + 1)).weight_iterate hheavy j

namespace Stuck

/-- A stuck generator stays stuck. -/
theorem next (h : g.Stuck) : g.next.Stuck where
  feed := back_lt h.feed
  tap := back_lt h.tap
  onlyHeavy := h.onlyHeavy.iterate 1
  heavy := fun i hi hsize => h.onlyHeavy.weight_next (h.heavy i hi (g.size_words_next ▸ hsize))

/-- The sum of two heavy words without the carry is less than either. -/
theorem bits63_lt (h : g.Stuck) (hfeed : back g.feed < g.words.size)
    (htap : back g.tap < g.words.size) : g.bits63.1 < g.weight (back g.feed) := by
  have hfirst := h.heavy _ (back_lt h.feed) hfeed
  have hsecond := h.heavy _ (back_lt h.tap) htap
  have hfirst' := g.weight_lt (back g.feed)
  have hsecond' := g.weight_lt (back g.tap)
  rw [fst_bits63]
  omega

/-- No weight goes up. -/
theorem weight_next_le (h : g.Stuck) (i : Nat) : g.next.weight i ≤ g.weight i := by
  rcases Nat.lt_or_ge (back g.feed) g.words.size with hfeed | hfeed
  · by_cases heq : i = back g.feed
    · rw [heq, weight_next_self hfeed]
      rcases Nat.lt_or_ge (back g.tap) g.words.size with htap | htap
      · exact Nat.le_of_lt (h.bits63_lt hfeed htap)
      · -- nothing is added
        rw [fst_bits63, weight_of_size_le htap, Nat.add_zero, Nat.mod_eq_of_lt (g.weight_lt _)]
    · exact Nat.le_of_eq (weight_next_of_ne heq)
  · exact Nat.le_of_eq (weight_next_of_size_le hfeed i)

/-- A stuck generator gets no heavier. -/
theorem totalWeight_next_le (h : g.Stuck) : g.next.totalWeight ≤ g.totalWeight :=
  Finset.sum_le_sum fun i _ => h.weight_next_le i

/-- The sum of the ring goes down where a word is replaced by its sum with another one. -/
theorem totalWeight_next_lt (h : g.Stuck) (hfeed : back g.feed < g.words.size)
    (htap : back g.tap < g.words.size) : g.next.totalWeight < g.totalWeight := by
  refine Finset.sum_lt_sum (fun i _ => h.weight_next_le i) ⟨back g.feed, ?_, ?_⟩
  · exact Finset.mem_range.mpr (back_lt h.feed)
  · rw [weight_next_self hfeed]
    exact h.bits63_lt hfeed htap

/-- After any number of steps a stuck generator is stuck, and no heavier. -/
theorem iterate (h : g.Stuck) (k : Nat) :
    (Generator.next^[k] g).Stuck ∧ (Generator.next^[k] g).totalWeight ≤ g.totalWeight := by
  induction k with
  | zero => exact ⟨h, Nat.le_refl _⟩
  | succ k ih =>
    obtain ⟨hstuck, hle⟩ := ih
    rw [Function.iterate_succ_apply']
    exact ⟨hstuck.next, Nat.le_trans hstuck.totalWeight_next_le hle⟩

/-- At some time the sum of the ring goes down. -/
theorem exists_lt (h : g.Stuck) : ∃ g' : Generator, g'.Stuck ∧ g'.totalWeight < g.totalWeight := by
  obtain ⟨k, hside⟩ := exists_same_side g.words.size h.feed h.tap
  obtain ⟨hstuck, hle⟩ := h.iterate k
  rw [Function.iterate_succ_apply', Function.iterate_succ_apply', ← feed_iterate_next,
    ← tap_iterate_next, ← size_words_iterate_next g k] at hside
  refine ⟨_, hstuck.next, ?_⟩
  rcases Nat.lt_or_ge (back (Generator.next^[k] g).feed) (Generator.next^[k] g).words.size with
    hfeed | hfeed
  · exact Nat.lt_of_lt_of_le (hstuck.totalWeight_next_lt hfeed (hside.mp hfeed)) hle
  · -- neither word is there, so that their sum is not heavy
    have htap := Nat.not_lt.mp fun htap => Nat.not_lt.mpr hfeed (hside.mpr htap)
    have hheavy := hstuck.onlyHeavy 0
    rw [Function.iterate_zero_apply, fst_bits63, weight_of_size_le hfeed,
      weight_of_size_le htap] at hheavy
    omega

end Stuck

/-- No generator is stuck. -/
theorem not_stuck (g : Generator) : ¬g.Stuck := by
  -- the sum of the ring cannot go down for ever
  induction htotal : g.totalWeight using Nat.strongRecOn generalizing g with
  | ind total ih =>
    intro h
    obtain ⟨g', hg', hlt⟩ := h.exists_lt
    exact ih _ (htotal ▸ hlt) g' rfl hg'

/-- **Not all words are heavy.** -/
theorem not_onlyHeavy (g : Generator) : ¬g.OnlyHeavy := by
  intro h
  have hring := h.iterate (max g.feed g.tap)
  refine not_stuck _ (hring.stuck ?_ ?_)
  · rw [feed_iterate_next]
    exact iterate_back_lt (Nat.le_max_left _ _)
  · rw [tap_iterate_next]
    exact iterate_back_lt (Nat.le_max_right _ _)

/-! ## Draws -/

/-- Where all attempts fail, the first one does and the others do. -/
theorem drawBelow_succ_eq_none {draw : Generator → Nat × Generator} {limit attempts : Nat}
    (h : drawBelow draw limit (attempts + 1) g = none) :
    limit ≤ (draw g).1 ∧ drawBelow draw limit attempts (draw g).2 = none := by
  simp only [drawBelow] at h
  split at h
  · cases h
  · next hnot => exact ⟨Nat.not_lt.mp hnot, h⟩

/-- A draw that never succeeds rejects what is drawn each time. -/
theorem le_draw_of_drawBelow {draw : Generator → Nat × Generator} {limit : Nat}
    (hdraw : ∀ g, (draw g).2 = g.next) (h : ∀ attempts, drawBelow draw limit attempts g = none)
    (k : Nat) : limit ≤ (draw (next^[k] g)).1 := by
  induction k generalizing g with
  | zero => exact (drawBelow_succ_eq_none (h 1)).1
  | succ k ih =>
    refine ih fun attempts => ?_
    rw [← hdraw]
    exact (drawBelow_succ_eq_none (h (attempts + 1))).2

/-- More than half of what can be drawn is accepted. -/
theorem lt_two_mul_lastMultiple {range n : Nat} (hn : 0 < n) (hle : n ≤ range) :
    range < 2 * lastMultiple range n := by
  have hmod : range % n < n := Nat.mod_lt range hn
  have hsub : range % n ≤ range - n := by
    rw [Nat.mod_eq_sub_mod hle]
    exact Nat.mod_le _ _
  unfold lastMultiple
  omega

/-- **Every draw succeeds** after some attempts. -/
theorem exists_below (g : Generator) {n : Nat} (hn : 0 < n) (hle : n < 2 ^ 63) :
    ∃ attempts x, g.below attempts n = some x := by
  by_contra hnone
  have hnone' : ∀ attempts, g.below attempts n = none := fun attempts =>
    Option.eq_none_iff_forall_ne_some.mpr fun x hx => hnone ⟨attempts, x, hx⟩
  refine not_onlyHeavy g fun k => ?_
  by_cases hsmall : n < Nat.pow 2 31
  · have hdrawn : ∀ attempts, drawBelow bits31 (lastMultiple (2 ^ 31) n) attempts g = none := by
      intro attempts
      have hbelow := hnone' attempts
      rw [below, if_pos hsmall] at hbelow
      exact Option.map_eq_none_iff.mp hbelow
    have hhalf := lt_two_mul_lastMultiple hn (show n ≤ 2 ^ 31 from Nat.le_of_lt hsmall)
    have hreject := le_draw_of_drawBelow snd_bits31 hdrawn k
    rw [fst_bits31] at hreject
    omega
  · have hdrawn : ∀ attempts, drawBelow bits63 (lastMultiple (2 ^ 63) n) attempts g = none := by
      intro attempts
      have hbelow := hnone' attempts
      rw [below, if_neg hsmall] at hbelow
      exact Option.map_eq_none_iff.mp hbelow
    have hhalf := lt_two_mul_lastMultiple hn (Nat.le_of_lt hle)
    have hreject := le_draw_of_drawBelow snd_bits63 hdrawn k
    omega

/-- Any number of dice can be rolled. -/
theorem exists_rollFrom {faces : Nat} (hfaces : 0 < faces) (hle : faces < 2 ^ 63) (count : Nat)
    (total : Int64) (g : Generator) :
    ∃ attempts x, rollFrom attempts faces count total g = some x := by
  induction count generalizing total g with
  | zero => exact ⟨0, _, rfl⟩
  | succ count ih =>
    obtain ⟨attempts, ⟨die, g'⟩, hdie⟩ := g.exists_below hfaces hle
    obtain ⟨attempts', x, hmore⟩ := ih (total + Int64.ofNat (die + 1)) g'
    refine ⟨max attempts attempts', x, ?_⟩
    rw [rollFrom, below_mono (Nat.le_max_left _ _) hdie]
    exact rollFrom_mono (Nat.le_max_right _ _) hmore

end Generator

end Adventure
