import Adventure.Proofs.Draws
import Adventure.Proofs.WholeNumbers

/-!
# Sums of dice

Dice are rolled in a loop, which draws a number for each of them and adds what it shows to a total
that wraps around. `Generator.Gives` says which numbers a generator draws one after the other, and
`tally` what the loop has added up after some draws. The loop makes one draw for each of its dice
and nothing else (`Generator.exists_rollFrom_eq`), so that a roll of many dice is a roll of the
first of them followed by a roll of the others.

A tally is the sum of the pips up to a multiple of 2⁶⁴ (`tally_eq`), and it is the sum itself as
long as so many dice cannot show more than fits.
-/

namespace Adventure

/-! ## What dice show -/

/-- What dice show together if `xs` were drawn for them. The numbers that are drawn count from zero,
the faces of dice from one. -/
def pips : List Nat → Int
  | [] => 0
  | x :: xs => (x : Int) + 1 + pips xs

theorem pips_append (xs ys : List Nat) : pips (xs ++ ys) = pips xs + pips ys := by
  induction xs with
  | nil => simp [pips]
  | cons x xs ih =>
    rw [List.cons_append, pips, pips, ih]
    omega

/-- What a roll has come to after the draws `xs`, from `total` on. -/
def tally (total : Int64) (xs : List Nat) : Int64 :=
  xs.foldl (fun total x => total + Int64.ofNat (x + 1)) total

theorem tally_eq (total : Int64) (xs : List Nat) : tally total xs = total + .ofInt (pips xs) := by
  induction xs generalizing total with
  | nil => simp [tally, pips]
  | cons x xs ih =>
    have hdie : Int64.ofNat (x + 1) = .ofInt ((x : Int) + 1) := Int64.ofInt_eq_ofNat.symm
    have htail : tally total (x :: xs) = tally (total + Int64.ofNat (x + 1)) xs := rfl
    rw [htail, ih, hdie, Int64.add_assoc, ← Int64.ofInt_add]
    rfl

theorem tally_append (xs ys : List Nat) : tally 0 (xs ++ ys) = tally 0 xs + tally 0 ys := by
  simp only [tally_eq, pips_append, Int64.ofInt_add, Int64.zero_add]

theorem toInt_tally_of_fits {xs : List Nat} (h : FitsWord (pips xs)) :
    (tally 0 xs).toInt = pips xs := by
  rw [tally_eq, Int64.zero_add, toInt_ofInt_of_fitsWord h]

/-- Each of the dice shows at least one pip, and no more pips than it has faces. -/
theorem length_le_pips_le {xs : List Nat} {n : Nat} (h : ∀ x ∈ xs, x < n) :
    (xs.length : Int) ≤ pips xs ∧ pips xs ≤ xs.length * (n : Int) := by
  induction xs with
  | nil => simp [pips]
  | cons x xs ih =>
    obtain ⟨hx, hxs⟩ := List.forall_mem_cons.mp h
    obtain ⟨hlow, hhigh⟩ := ih hxs
    have hpips : pips (x :: xs) = x + 1 + pips xs := rfl
    have hproduct : ((xs.length + 1 : Nat) : Int) * n = xs.length * (n : Int) + n := by
      rw [Int.natCast_add, Int.natCast_one, Int.add_mul, Int.one_mul]
    rw [hpips, List.length_cons, hproduct]
    omega

/-- If the most that all dice can show fits, then so does what the first of them show. -/
theorem fitsWord_pips_take {xs : List Nat} {n : Nat} (h : ∀ x ∈ xs, x < n)
    (hfits : FitsWord (xs.length * (n : Int))) (k : Nat) : FitsWord (pips (xs.take k)) := by
  have htake : ∀ x ∈ xs.take k, x < n := fun x hx => h x (List.mem_of_mem_take hx)
  obtain ⟨hlow, hhigh⟩ := length_le_pips_le htake
  have hlength : ((xs.take k).length : Int) * n ≤ xs.length * n :=
    Int.mul_le_mul_of_nonneg_right (by simp) (by omega)
  rw [fitsWord_iff] at hfits ⊢
  omega

/-! ## Draws one after the other -/

namespace Generator

/-- The numbers `xs` below `n` are drawn one after the other, and then the generator is the last
one. -/
inductive Gives (n : Nat) : Generator → List Nat → Generator → Prop where
  | nil (g : Generator) : Gives n g [] g
  | cons {g g₁ g' : Generator} {x : Nat} {xs : List Nat} {attempts : Nat}
      (draw : g.below attempts n = some (x, g₁)) (more : Gives n g₁ xs g') : Gives n g (x :: xs) g'

variable {n : Nat} {g g₁ g' : Generator} {xs ys : List Nat}

theorem Gives.append (h : Gives n g xs g₁) (h' : Gives n g₁ ys g') : Gives n g (xs ++ ys) g' := by
  induction h with
  | nil => exact h'
  | cons draw _ ih => exact .cons draw (ih h')

theorem Gives.take (h : Gives n g xs g') (k : Nat) : ∃ g₁, Gives n g (xs.take k) g₁ := by
  induction h generalizing k with
  | nil g => exact ⟨g, by simpa using .nil g⟩
  | @cons g _ _ _ _ _ draw _ ih =>
    cases k with
    | zero => exact ⟨g, .nil g⟩
    | succ k =>
      obtain ⟨g₁, hfirst⟩ := ih k
      exact ⟨g₁, .cons draw hfirst⟩

theorem lt_of_below {attempts x : Nat} (hn : 0 < n) (h : g.below attempts n = some (x, g')) :
    x < n := by
  obtain ⟨y, _, hy⟩ := Option.map_eq_some_iff.mp h
  obtain ⟨rfl, -⟩ := Prod.mk.inj hy
  exact Nat.mod_lt _ hn

theorem Gives.lt (hn : 0 < n) (h : Gives n g xs g') : ∀ x ∈ xs, x < n := by
  induction h with
  | nil => simp
  | cons draw _ ih => exact List.forall_mem_cons.mpr ⟨lt_of_below hn draw, ih⟩

/-- Any number of numbers can be drawn. -/
theorem exists_gives (hn : 0 < n) (hle : n < 2 ^ 63) (count : Nat) (g : Generator) :
    ∃ xs g', Gives n g xs g' ∧ xs.length = count := by
  induction count generalizing g with
  | zero => exact ⟨[], g, .nil g, rfl⟩
  | succ count ih =>
    obtain ⟨attempts, ⟨x, g₁⟩, hdraw⟩ := g.exists_below hn hle
    obtain ⟨xs, g', hmore, hlength⟩ := ih g₁
    exact ⟨x :: xs, g', .cons hdraw hmore, congrArg (· + 1) hlength⟩

/-- **The loop makes a draw for each of its dice:** after the draws `xs` it stands where it has come
to their tally, the generator is the one that they leave, and `more` dice are left. -/
theorem exists_rollFrom_eq (h : Gives n g xs g') : ∃ least, ∀ attempts, least ≤ attempts →
    ∀ total more, rollFrom attempts n (xs.length + more) total g =
      rollFrom attempts n more (tally total xs) g' := by
  induction h with
  | nil g =>
    refine ⟨0, fun attempts _ total more => ?_⟩
    rw [List.length_nil, Nat.zero_add]
    rfl
  | @cons g g₁ g' x xs needed draw _ ih =>
    obtain ⟨least, hleast⟩ := ih
    refine ⟨max needed least, fun attempts hattempts total more => ?_⟩
    rw [List.length_cons, Nat.add_right_comm, rollFrom, below_mono (by omega) draw]
    exact hleast attempts (by omega) (total + Int64.ofNat (x + 1)) more

/-! ## Rolls -/

theorem roll_of_possible {d : Dice} (hfaces : 1 ≤ d.faces) (hcount : 0 ≤ d.count)
    (attempts : Nat) (g : Generator) :
    g.roll attempts d =
      .ok (rollFrom attempts d.faces.toInt.toNat d.count.toInt.toNat 0 g) := by
  rw [roll, if_neg]
  rw [Int64.le_iff_toInt_le] at hfaces hcount
  simp only [Bool.or_eq_true, decide_eq_true_eq, Int64.le_iff_toInt_le, Int64.lt_iff_toInt_lt,
    Int64.toInt_zero] at hcount ⊢
  have hone : (1 : Int64).toInt = 1 := rfl
  omega

theorem roll_of_impossible {d : Dice} (h : d.faces ≤ 0 ∨ d.count < 0) (attempts : Nat)
    (g : Generator) : g.roll attempts d = .error (.impossibleDice d) := by
  rw [roll, if_pos (by simpa using h)]

/-- How some dice are rolled, when draws have enough attempts: the numbers `xs` are drawn, one for
each of the dice, and `g'` is the generator afterwards. -/
structure Throw (g : Generator) (d : Dice) (xs : List Nat) (g' : Generator) : Prop where
  draws : Gives d.faces.toInt.toNat g xs g'
  length_eq : (xs.length : Int) = d.count.toInt
  /-- after the first `k` draws the loop has come to their tally, and the other dice are left -/
  midway : ∀ k ≤ xs.length, ∃ g₁ least, Gives d.faces.toInt.toNat g (xs.take k) g₁ ∧
    ∀ attempts, least ≤ attempts → g.roll attempts d =
      .ok (rollFrom attempts d.faces.toInt.toNat (xs.length - k) (tally 0 (xs.take k)) g₁)
  result : ∃ least, ∀ attempts, least ≤ attempts → g.roll attempts d = .ok (some (tally 0 xs, g'))

variable {d : Dice}

/-- A roll goes on behind its first draws. -/
theorem Gives.exists_roll_eq (h : Gives d.faces.toInt.toNat g xs g') (hfaces : 1 ≤ d.faces)
    (more : Nat) (hcount : ((xs.length + more : Nat) : Int) = d.count.toInt) :
    ∃ least, ∀ attempts, least ≤ attempts →
      g.roll attempts d = .ok (rollFrom attempts d.faces.toInt.toNat more (tally 0 xs) g') := by
  obtain ⟨least, hleast⟩ := exists_rollFrom_eq h
  have hnonneg : 0 ≤ d.count := by
    rw [Int64.le_iff_toInt_le, Int64.toInt_zero]
    omega
  have htoNat : d.count.toInt.toNat = xs.length + more := by omega
  refine ⟨least, fun attempts hattempts => ?_⟩
  rw [roll_of_possible hfaces hnonneg, htoNat, hleast attempts hattempts]

/-- Dice are rolled with what is drawn for as many. -/
theorem Gives.throw (h : Gives d.faces.toInt.toNat g xs g') (hfaces : 1 ≤ d.faces)
    (hlength : (xs.length : Int) = d.count.toInt) : g.Throw d xs g' := by
  refine ⟨h, hlength, fun k hk => ?_, h.exists_roll_eq hfaces 0 hlength⟩
  obtain ⟨g₁, hfirst⟩ := h.take k
  have hcount : (((xs.take k).length + (xs.length - k) : Nat) : Int) = d.count.toInt := by
    rw [List.length_take_of_le hk, Nat.add_sub_of_le hk, hlength]
  obtain ⟨least, hleast⟩ := hfirst.exists_roll_eq hfaces (xs.length - k) hcount
  exact ⟨g₁, least, hfirst, hleast⟩

variable {a b faces : Int64}

theorem toNat_faces_bounds (hfaces : 1 ≤ faces) :
    0 < faces.toInt.toNat ∧ faces.toInt.toNat < 2 ^ 63 ∧
      (faces.toInt.toNat : Int) = faces.toInt := by
  rw [Int64.le_iff_toInt_le] at hfaces
  have hone : (1 : Int64).toInt = 1 := rfl
  have hfits := fitsWord_iff.mp (fitsWord_toInt faces)
  omega

/-- Dice that exist can be rolled. -/
theorem exists_throw (hfaces : 1 ≤ d.faces) (hcount : 0 ≤ d.count) (g : Generator) :
    ∃ xs g', g.Throw d xs g' := by
  obtain ⟨hpositive, hle, -⟩ := toNat_faces_bounds hfaces
  obtain ⟨xs, g', hgives, hlength⟩ := exists_gives hpositive hle d.count.toInt.toNat g
  rw [Int64.le_iff_toInt_le, Int64.toInt_zero] at hcount
  exact ⟨xs, g', hgives.throw hfaces (by omega)⟩

namespace Throw

/-- Dice that are rolled one after the other are rolled together. -/
theorem append (h : g.Throw ⟨a, faces⟩ xs g₁) (h' : g₁.Throw ⟨b, faces⟩ ys g')
    (hfaces : 1 ≤ faces) (hfits : FitsWord (a.toInt + b.toInt)) :
    g.Throw ⟨a + b, faces⟩ (xs ++ ys) g' := by
  refine Gives.throw (h.draws.append h'.draws) hfaces ?_
  rw [List.length_append, Int.natCast_add, h.length_eq, h'.length_eq, toInt_add_of_fitsWord hfits]

theorem lt_faces (h : g.Throw d xs g') (hfaces : 1 ≤ d.faces) :
    ∀ x ∈ xs, (x : Int) < d.faces.toInt := by
  obtain ⟨hpositive, -, hcast⟩ := toNat_faces_bounds hfaces
  intro x hx
  rw [← hcast]
  exact Int.ofNat_lt.mpr (h.draws.lt hpositive x hx)

/-- The face that is drawn for one of the dice can be counted from one as well. -/
theorem fitsWord_face (h : g.Throw d xs g') (hfaces : 1 ≤ d.faces) :
    ∀ x ∈ xs, FitsWord ((x : Int) + 1) := by
  intro x hx
  have hlt := h.lt_faces hfaces x hx
  have hfits := fitsWord_iff.mp (fitsWord_toInt d.faces)
  rw [fitsWord_iff]
  omega

/-- **No sum on the way wraps around** if the most that the dice can show fits. -/
theorem toInt_tally_take (h : g.Throw d xs g') (hfaces : 1 ≤ d.faces)
    (hfits : FitsWord (d.count.toInt * d.faces.toInt)) (k : Nat) :
    (tally 0 (xs.take k)).toInt = pips (xs.take k) := by
  obtain ⟨hpositive, -, hcast⟩ := toNat_faces_bounds hfaces
  rw [← h.length_eq, ← hcast] at hfits
  exact toInt_tally_of_fits (fitsWord_pips_take (h.draws.lt hpositive) hfits k)

/-- **A total lies between the number of dice and the most that they can show**, if that fits. -/
theorem count_le_tally_le (h : g.Throw d xs g') (hfaces : 1 ≤ d.faces)
    (hfits : FitsWord (d.count.toInt * d.faces.toInt)) :
    d.count.toInt ≤ (tally 0 xs).toInt ∧ (tally 0 xs).toInt ≤ d.count.toInt * d.faces.toInt := by
  obtain ⟨hpositive, -, hcast⟩ := toNat_faces_bounds hfaces
  have hwhole := h.toInt_tally_take hfaces hfits xs.length
  rw [List.take_length] at hwhole
  rw [hwhole, ← h.length_eq, ← hcast]
  exact length_le_pips_le (h.draws.lt hpositive)

end Throw

end Generator

theorem World.roll_of_impossible {d : Dice} (h : d.faces ≤ 0 ∨ d.count < 0) (attempts : Nat)
    (w : World) :
    w.roll attempts (.dice d) = .failed (.ofFault (.impossibleDice d)) w := by
  simp only [roll, Value.dice?, Generator.roll_of_impossible h]

namespace Generator

/-- **Rolls add up and stay in range.** Let there be dice with some faces.

* A roll of `a + b` of them makes the draws of a roll of `a` and, from the generator that this one
  leaves, of a roll of `b`, which are `a + b` draws. It comes to the wrapped sum of the two totals
  and leaves the generator as the second one does.
* Each draw is below the number of faces, and one more than it fits. If the most that the dice can
  show fits, then the total lies between their number and that, and the totals on the way are the
  sums of the pips without wrapping.
* Dice without faces, or fewer than none, fail, also if a draw has no attempts at all, and leave the
  world with its generator as it is. -/
theorem roll_additive_and_in_range (g : Generator) (faces : Int64) :
    (1 ≤ faces → ∀ a b : Int64, 0 ≤ a → 0 ≤ b → FitsWord (a.toInt + b.toInt) →
      ∃ xs ys g₁ g₂, g.Throw ⟨a, faces⟩ xs g₁ ∧ g₁.Throw ⟨b, faces⟩ ys g₂ ∧
        g.Throw ⟨a + b, faces⟩ (xs ++ ys) g₂ ∧
        tally 0 (xs ++ ys) = tally 0 xs + tally 0 ys) ∧
      (1 ≤ faces → ∀ count : Int64, 0 ≤ count →
        ∃ xs g', g.Throw ⟨count, faces⟩ xs g' ∧
          (∀ x ∈ xs, (x : Int) < faces.toInt ∧ FitsWord ((x : Int) + 1)) ∧
          (FitsWord (count.toInt * faces.toInt) →
            count.toInt ≤ (tally 0 xs).toInt ∧
              (tally 0 xs).toInt ≤ count.toInt * faces.toInt ∧
              ∀ k, (tally 0 (xs.take k)).toInt = pips (xs.take k))) ∧
      ∀ count : Int64, faces ≤ 0 ∨ count < 0 → ∀ attempts,
        g.roll attempts ⟨count, faces⟩ = .error (.impossibleDice ⟨count, faces⟩) ∧
          ∀ w : World, w.roll attempts (.dice ⟨count, faces⟩) =
            .failed (.ofFault (.impossibleDice ⟨count, faces⟩)) w := by
  refine ⟨fun hfaces a b ha hb hfits => ?_, fun hfaces count hcount => ?_,
    fun count himpossible attempts => ?_⟩
  -- the second throw begins with the generator that the first one leaves
  · obtain ⟨xs, g₁, hfirst⟩ := exists_throw (d := ⟨a, faces⟩) hfaces ha g
    obtain ⟨ys, g₂, hsecond⟩ := exists_throw (d := ⟨b, faces⟩) hfaces hb g₁
    exact ⟨xs, ys, g₁, g₂, hfirst, hsecond, hfirst.append hsecond hfaces hfits, tally_append xs ys⟩
  · obtain ⟨xs, g', h⟩ := exists_throw (d := ⟨count, faces⟩) hfaces hcount g
    refine ⟨xs, g', h, fun x hx => ⟨h.lt_faces hfaces x hx, h.fitsWord_face hfaces x hx⟩,
      fun hfits => ?_⟩
    obtain ⟨hlow, hhigh⟩ := h.count_le_tally_le hfaces hfits
    exact ⟨hlow, hhigh, h.toInt_tally_take hfaces hfits⟩
  · exact ⟨roll_of_impossible (d := ⟨count, faces⟩) himpossible attempts g,
      World.roll_of_impossible (d := ⟨count, faces⟩) himpossible attempts⟩

/-- Two dice with as many faces as there can be, whose sum may wrap around; one of them alone, whose
total cannot; and fewer than none. -/
theorem roll_of_widest_dice :
    (∃ xs ys g₁ g₂, (ofSeed 7).Throw ⟨1, Int64.maxValue⟩ xs g₁ ∧
      g₁.Throw ⟨1, Int64.maxValue⟩ ys g₂ ∧ (ofSeed 7).Throw ⟨1 + 1, Int64.maxValue⟩ (xs ++ ys) g₂ ∧
      tally 0 (xs ++ ys) = tally 0 xs + tally 0 ys) ∧
      (∃ xs g', (ofSeed 7).Throw ⟨1, Int64.maxValue⟩ xs g' ∧ 1 ≤ (tally 0 xs).toInt ∧
        (tally 0 xs).toInt ≤ 9223372036854775807) ∧
      (ofSeed 7).roll 0 ⟨-1, Int64.maxValue⟩ = .error (.impossibleDice ⟨-1, Int64.maxValue⟩) := by
  obtain ⟨hsum, hrange, himpossible⟩ := roll_additive_and_in_range (ofSeed 7) Int64.maxValue
  refine ⟨hsum (by decide) 1 1 (by decide) (by decide) (by decide), ?_,
    (himpossible (-1) (.inr (by decide)) 0).1⟩
  obtain ⟨xs, g', hthrow, -, hbounds⟩ := hrange (by decide) 1 (by decide)
  obtain ⟨hlow, hhigh, -⟩ := hbounds (by decide)
  exact ⟨xs, g', hthrow, hlow, hhigh⟩

end Generator

end Adventure
