import Adventure.Value.Arithmetic

/-!
# Whole numbers of 64 bits

The interpreter tells from a wrapped sum, difference or product whether it is the true one. It is
right about this in both directions: what it gives is the result in whole numbers of any size, and
it gives something whenever that result fits (`ArithOp.onInts_eq_some_iff`).

Wrapping takes a number some turns of 2⁶⁴ away (`exists_turns`). A sum or a difference is at most
one turn off, and then has the wrong sign; a product that is any turns off leaves more than a
remainder when it is divided back (`tdiv_eq_iff_turns`).

A machine may stop at a division by zero, or at one whose quotient does not fit. It never does here:
the divisions that are carried out have quotients that fit (`ArithOp.onIntsBy_trappingDiv`).
-/

namespace Adventure

/-! ## Numbers that fit -/

/-- The number fits into 64 bits with a sign. -/
def FitsWord (z : Int) : Prop :=
  -(Nat.pow 2 63 : Nat) ≤ z ∧ z < (Nat.pow 2 63 : Nat)

instance (z : Int) : Decidable (FitsWord z) :=
  inferInstanceAs (Decidable (_ ∧ _))

theorem fitsWord_iff {z : Int} :
    FitsWord z ↔ -9223372036854775808 ≤ z ∧ z < 9223372036854775808 :=
  Iff.rfl

theorem fitsWord_toInt (x : Int64) : FitsWord x.toInt :=
  ⟨x.le_toInt, x.toInt_lt⟩

theorem toInt_ofInt_of_fitsWord {z : Int} (h : FitsWord z) : (Int64.ofInt z).toInt = z :=
  Int64.toInt_ofInt_of_le h.1 h.2

theorem toInt_add_of_fitsWord {x y : Int64} (h : FitsWord (x.toInt + y.toInt)) :
    (x + y).toInt = x.toInt + y.toInt := by
  rw [fitsWord_iff] at h
  rw [Int64.toInt_add]
  exact Int.bmod_eq_of_le (by omega) (by omega)

/-- What is left of a number when it is wrapped is some turns away from it. -/
theorem exists_turns {z : Int} {x : Int64} (h : x.toInt = z.bmod 18446744073709551616) :
    ∃ k : Int, x.toInt = z + k * 18446744073709551616 := by
  rw [Int.bmod_def] at h
  by_cases hlow : z % 18446744073709551616 < 9223372036854775808
  · exact ⟨-(z / 18446744073709551616), by omega⟩
  · exact ⟨-(z / 18446744073709551616) - 1, by omega⟩

/-! ## Sums, differences and products -/

/-- **A sum is given exactly if it fits**, and then it is the true one. -/
theorem checkedAdd_eq_some_iff (x y r : Int64) :
    checkedAdd x y = some r ↔ x.toInt + y.toInt = r.toInt := by
  have hx := fitsWord_iff.mp (fitsWord_toInt x)
  have hy := fitsWord_iff.mp (fitsWord_toInt y)
  have hr := fitsWord_iff.mp (fitsWord_toInt r)
  have hs := fitsWord_iff.mp (fitsWord_toInt (x + y))
  obtain ⟨k, hk⟩ := exists_turns (x.toInt_add y)
  simp only [checkedAdd, Int64.le_iff_toInt_le, Int64.toInt_zero, Option.ite_none_right_eq_some,
    Option.some.injEq, ← Int64.toInt_inj, bne_iff_ne, Bool.or_eq_true, beq_iff_eq, ne_eq,
    decide_eq_decide]
  omega

/-- **A difference is given exactly if it fits**, and then it is the true one. -/
theorem checkedSub_eq_some_iff (x y r : Int64) :
    checkedSub x y = some r ↔ x.toInt - y.toInt = r.toInt := by
  have hx := fitsWord_iff.mp (fitsWord_toInt x)
  have hy := fitsWord_iff.mp (fitsWord_toInt y)
  have hr := fitsWord_iff.mp (fitsWord_toInt r)
  have hd := fitsWord_iff.mp (fitsWord_toInt (x - y))
  obtain ⟨k, hk⟩ := exists_turns (x.toInt_sub y)
  simp only [checkedSub, Int64.le_iff_toInt_le, Int64.toInt_zero, Option.ite_none_right_eq_some,
    Option.some.injEq, ← Int64.toInt_inj, Bool.or_eq_true, beq_iff_eq, decide_eq_decide]
  omega

/-- A quotient fits, apart from the one that turns the lowest number around. -/
theorem fitsWord_tdiv {p y : Int} (hp : FitsWord p) (hzero : y ≠ 0)
    (hturn : ¬(p = -9223372036854775808 ∧ y = -1)) : FitsWord (p.tdiv y) := by
  rw [fitsWord_iff] at hp ⊢
  by_cases hone : y.natAbs = 1
  · obtain rfl | rfl : y = 1 ∨ y = -1 := by omega
    · rw [Int.tdiv_one]
      exact hp
    · rw [Int.tdiv_neg, Int.tdiv_one]
      omega
  · have habs : (p.tdiv y).natAbs = p.natAbs / y.natAbs := Int.natAbs_tdiv p y
    have hhalf : p.natAbs / y.natAbs ≤ p.natAbs / 2 := Nat.div_le_div_left (by omega) (by decide)
    omega

theorem toInt_div_of_fits {x y : Int64} (hzero : y.toInt ≠ 0)
    (hturn : ¬(x.toInt = -9223372036854775808 ∧ y.toInt = -1)) :
    (x / y).toInt = x.toInt.tdiv y.toInt := by
  have hfits := fitsWord_iff.mp (fitsWord_tdiv (fitsWord_toInt x) hzero hturn)
  rw [Int64.toInt_div]
  exact Int.bmod_eq_of_le (by omega) (by omega)

/-- A wrapped product can be divided back exactly if it was not wrapped around: what is lost
otherwise is more than any remainder. -/
theorem tdiv_eq_iff_turns {p x y k : Int} (hy : FitsWord y) (hzero : y ≠ 0)
    (hp : p = x * y + k * 18446744073709551616) : p.tdiv y = x ↔ k = 0 := by
  constructor
  · intro hquotient
    have hrest := Int.tdiv_mul_add_tmod p y
    rw [hquotient, hp] at hrest
    have habs : ((x * y + k * 18446744073709551616).tmod y).natAbs < y.natAbs := by
      rw [Int.natAbs_tmod]
      exact Nat.mod_lt _ (by omega)
    rw [fitsWord_iff] at hy
    omega
  · rintro rfl
    rw [hp, Int.zero_mul, Int.add_zero]
    exact Int.mul_tdiv_cancel x hzero

/-- The one quotient that does not fit is not asked for, unless the product was that of the two
numbers that are kept out. -/
theorem not_lowest_mul_div_neg_one {x y : Int64}
    (hextreme : ¬(y.toInt = -1 ∧ x.toInt = -9223372036854775808)) :
    ¬((x * y).toInt = -9223372036854775808 ∧ y.toInt = -1) := by
  rintro ⟨hlowest, hone⟩
  have hx := fitsWord_iff.mp (fitsWord_toInt x)
  obtain ⟨k, hk⟩ := exists_turns (x.toInt_mul y)
  rw [hone] at hk
  omega

/-- **A product is given exactly if it fits**, and then it is the true one. -/
theorem checkedMul_eq_some_iff (x y r : Int64) :
    checkedMul x y = some r ↔ x.toInt * y.toInt = r.toInt := by
  have hx := fitsWord_iff.mp (fitsWord_toInt x)
  have hr := fitsWord_iff.mp (fitsWord_toInt r)
  have hp := fitsWord_iff.mp (fitsWord_toInt (x * y))
  obtain ⟨k, hk⟩ := exists_turns (x.toInt_mul y)
  have hmin : Int64.minValue.toInt = -9223372036854775808 := rfl
  have hneg : (-1 : Int64).toInt = -1 := rfl
  simp only [checkedMul, Bool.or_eq_true, Bool.and_eq_true, beq_iff_eq, ← Int64.toInt_inj,
    Int64.toInt_zero, hmin, hneg]
  by_cases hzero : x.toInt = 0 ∨ y.toInt = 0
  · have hproduct : x.toInt * y.toInt = 0 := Int.mul_eq_zero.mpr hzero
    rw [if_pos hzero, hproduct, Option.some.injEq, ← Int64.toInt_inj, Int64.toInt_zero]
  · rw [if_neg hzero]
    by_cases hextreme : x.toInt = -1 ∧ y.toInt = -9223372036854775808 ∨
        y.toInt = -1 ∧ x.toInt = -9223372036854775808
    · -- the product of the two that are kept out is one more than the highest number
      have hproduct : x.toInt * y.toInt = 9223372036854775808 := by
        rcases hextreme with ⟨h, h'⟩ | ⟨h, h'⟩ <;> rw [h, h'] <;> rfl
      rw [if_pos hextreme, hproduct]
      exact ⟨nofun, fun h => by omega⟩
    · have hnonzero : y.toInt ≠ 0 := fun h => hzero (.inr h)
      have hturn := not_lowest_mul_div_neg_one fun h => hextreme (.inr h)
      -- the product is turned around a whole number of times, and dividing shows whether that is
      -- none
      have hback := tdiv_eq_iff_turns (fitsWord_toInt y) hnonzero hk
      rw [if_neg hextreme, toInt_div_of_fits hnonzero hturn, Option.ite_none_right_eq_some, hback,
        Option.some.injEq, ← Int64.toInt_inj]
      omega

/-- What an operator other than division gives on whole numbers of any size. -/
def ArithOp.onWhole (op : ArithOp) (a b : Int) : Int :=
  match op with
  | .add => a + b
  | .sub => a - b
  | _ => a * b

/-- **Operators are exact on whole numbers:** they give the true result, whenever it fits. -/
theorem ArithOp.onInts_eq_some_iff (op : ArithOp) (x y r : Int64) :
    op.onInts x y = some r ↔ op.onWhole x.toInt y.toInt = r.toInt := by
  cases op with
  | add => exact checkedAdd_eq_some_iff x y r
  | sub => exact checkedSub_eq_some_iff x y r
  | mul | div | other => exact checkedMul_eq_some_iff x y r

theorem ArithOp.map_toInt_onInts (op : ArithOp) (x y : Int64) :
    (op.onInts x y).map Int64.toInt =
      if FitsWord (op.onWhole x.toInt y.toInt) then some (op.onWhole x.toInt y.toInt)
      else none := by
  by_cases hfits : FitsWord (op.onWhole x.toInt y.toInt)
  · have hsome : op.onInts x y = some (.ofInt (op.onWhole x.toInt y.toInt)) := by
      rw [onInts_eq_some_iff, toInt_ofInt_of_fitsWord hfits]
    rw [hsome, if_pos hfits, Option.map_some, toInt_ofInt_of_fitsWord hfits]
  · have hnone : op.onInts x y = none := Option.eq_none_iff_forall_ne_some.mpr fun r hr =>
      hfits ((onInts_eq_some_iff op x y r).mp hr ▸ fitsWord_toInt r)
    rw [hnone, if_neg hfits, Option.map_none]

/-- So what an operator other than division gives on two values is the true result, if that fits. -/
theorem ArithOp.apply_ofInt {op : ArithOp} (hop : op ≠ .div) {a b : Int} (ha : FitsWord a)
    (hb : FitsWord b) (h : FitsWord (op.onWhole a b)) :
    op.apply (.int (.ofInt a)) (.int (.ofInt b)) = .ok (.int (.ofInt (op.onWhole a b))) := by
  have hexact : op.onInts (.ofInt a) (.ofInt b) = some (.ofInt (op.onWhole a b)) := by
    rw [onInts_eq_some_iff, toInt_ofInt_of_fitsWord ha, toInt_ofInt_of_fitsWord hb,
      toInt_ofInt_of_fitsWord h]
  simp [ArithOp.apply, Value.isNumeric, hop, hexact]

/-! ## Divisions that stop a machine -/

/-- Why a machine stops at a division. -/
inductive DivisionTrap where
  /-- there is no quotient -/
  | byZero
  /-- the quotient does not fit -/
  | overflow

/-- The quotient without its fraction, on a machine that stops if there is none or if it does not
fit. -/
def trappingDiv (x y : Int64) : Except DivisionTrap Int64 :=
  if y.toInt = 0 then .error .byZero
  else if FitsWord (x.toInt.tdiv y.toInt) then .ok (.ofInt (x.toInt.tdiv y.toInt))
  else .error .overflow

theorem trappingDiv_of_fits {x y : Int64} (hzero : y.toInt ≠ 0)
    (hturn : ¬(x.toInt = -9223372036854775808 ∧ y.toInt = -1)) : trappingDiv x y = .ok (x / y) := by
  have hfits := fitsWord_tdiv (fitsWord_toInt x) hzero hturn
  have hquotient : Int64.ofInt (x.toInt.tdiv y.toInt) = x / y := by
    rw [← toInt_div_of_fits hzero hturn, Int64.ofInt_toInt]
  rw [trappingDiv, if_neg hzero, if_pos hfits, hquotient]

section

variable {m : Type → Type} [Monad m] (divide : Int64 → Int64 → m Int64)

/-- The product, if it fits, where `divide` carries out the division. -/
def checkedMulBy (x y : Int64) : m (Option Int64) :=
  if x == 0 || y == 0 then pure (some 0)
  else if (x == -1 && y == Int64.minValue) || (y == -1 && x == Int64.minValue) then pure none
  else do
    let r := x * y
    let q ← divide r y
    pure (if q == x then some r else none)

/-- The whole number that an operator other than division gives, if it fits, where `divide` carries
out all divisions that are made on the way. -/
def ArithOp.onIntsBy (op : ArithOp) (x y : Int64) : m (Option Int64) :=
  match op with
  | .add => pure (checkedAdd x y)
  | .sub => pure (checkedSub x y)
  | _ => checkedMulBy divide x y

end

/-- With the division that never stops, these are the operators of the interpreter. -/
theorem ArithOp.onIntsBy_div (op : ArithOp) (x y : Int64) :
    op.onIntsBy (m := Id) (fun a b => a / b) x y = op.onInts x y := by
  have hmul : checkedMulBy (m := Id) (fun a b => a / b) x y = checkedMul x y := rfl
  cases op with
  | add | sub => rfl
  | mul | div | other => exact hmul

theorem checkedMulBy_trappingDiv (x y : Int64) :
    checkedMulBy trappingDiv x y = .ok (checkedMul x y) := by
  unfold checkedMulBy checkedMul
  split
  · rfl
  · next hzero =>
    split
    · rfl
    · next hextreme =>
      have hmin : Int64.minValue.toInt = -9223372036854775808 := rfl
      have hneg : (-1 : Int64).toInt = -1 := rfl
      simp only [Bool.or_eq_true, Bool.and_eq_true, beq_iff_eq, ← Int64.toInt_inj, Int64.toInt_zero,
        hmin, hneg] at hzero hextreme
      have hdivide := trappingDiv_of_fits (fun h => hzero (.inr h))
        (not_lowest_mul_div_neg_one fun h => hextreme (.inr h))
      simp only [hdivide]
      rfl

theorem ArithOp.onIntsBy_trappingDiv (op : ArithOp) (x y : Int64) :
    op.onIntsBy trappingDiv x y = .ok (op.onInts x y) := by
  cases op with
  | add | sub => rfl
  | mul | div | other => exact checkedMulBy_trappingDiv x y

/-- **Overflow is detected exactly, and without a division that stops the machine.** What an
operator other than division gives is the result in whole numbers of any size, if that lies between
-2⁶³ and 2⁶³ - 1, and otherwise it gives nothing. The divisions that it makes on the way can be
carried out as well by a machine that stops at a division by zero and at a quotient that does not
fit: it does not stop, and gives the same. -/
theorem ArithOp.onInts_exact_and_trapFree (op : ArithOp) (x y : Int64) :
    (op.onInts x y).map Int64.toInt =
        (if FitsWord (op.onWhole x.toInt y.toInt) then some (op.onWhole x.toInt y.toInt)
          else none) ∧
      op.onIntsBy (m := Id) (fun a b => a / b) x y = op.onInts x y ∧
      op.onIntsBy trappingDiv x y = .ok (op.onInts x y) :=
  ⟨op.map_toInt_onInts x y, op.onIntsBy_div x y, op.onIntsBy_trappingDiv x y⟩

end Adventure
