import Mathlib.Data.Rat.Floor
import Mathlib.Algebra.Order.Field.Rat
import Mathlib.Tactic.FieldSimp
import GxbCore.Lib.Portions

/-!
# Exchanging at a rate

An amount is exchanged at a rate of `num` to `den` into `portion amount num den`,
rounded down.  Exchanging forth and back loses what was rounded off, and the
least amount that is worth a target is found by rounding up the other way.
-/

namespace GxbCore

variable {amount other num den target : ℤ}

theorem le_portion_iff (denPos : 0 < den) :
    target ≤ portion amount num den ↔ target * den ≤ amount * num :=
  Int.le_ediv_iff_mul_le denPos

theorem portion_mono
    (numNonneg : 0 ≤ num) (denPos : 0 < den) (le : amount ≤ other) :
    portion amount num den ≤ portion other num den :=
  Int.ediv_le_ediv denPos (Int.mul_le_mul_of_nonneg_right le numNonneg)

theorem portion_self (amount : ℤ) (numNonzero : num ≠ 0) :
    portion amount num num = amount :=
  Int.mul_ediv_cancel amount numNonzero

@[simp]
theorem portion_zero (num den : ℤ) : portion 0 num den = 0 := by
  simp [portion]

theorem portion_eq_zero_iff
    (nonneg : 0 ≤ amount) (numNonneg : 0 ≤ num) (denPos : 0 < den) :
    portion amount num den = 0 ↔ amount * num < den := by
  have low := portion_nonneg nonneg numNonneg denPos
  have one := @le_portion_iff amount num den 1 denPos
  omega

/-- A portion is the exact part, rounded down. -/
theorem portion_eq_floor (denPos : 0 < den) :
    portion amount num den = ⌊(amount : ℚ) * ((num : ℚ) / (den : ℚ))⌋ := by
  obtain ⟨d, rfl⟩ := Int.eq_ofNat_of_zero_le (Int.le_of_lt denPos)
  have floor := Rat.floor_intCast_div_natCast (amount * num) d
  rw [portion, ← floor, ← mul_div_assoc]
  push_cast
  rfl

/-- Forth and back is at most the amount. -/
theorem portion_back_le (numPos : 0 < num) (denPos : 0 < den) :
    portion (portion amount num den) den num ≤ amount := by
  have forth : portion amount num den * den ≤ amount * num :=
    portion_mul_le denPos
  have back :
      portion (portion amount num den) den num * num ≤
        portion amount num den * den :=
    portion_mul_le numPos
  exact Int.le_of_mul_le_mul_right (back.trans forth) numPos

/-- Forth and back is the whole amount exactly when nothing is rounded off. -/
theorem portion_back_eq_iff (numPos : 0 < num) (denPos : 0 < den) :
    portion (portion amount num den) den num = amount ↔ den ∣ amount * num := by
  constructor
  · intro same
    have forth : portion amount num den * den ≤ amount * num :=
      portion_mul_le denPos
    have back : amount * num ≤ portion amount num den * den := by
      rw [← le_portion_iff numPos, same]
    exact ⟨portion amount num den, by rw [Int.mul_comm den]; omega⟩
  · rintro ⟨whole, isWhole⟩
    have forth : portion amount num den = whole := by
      rw [portion, isWhole]
      exact Int.mul_ediv_cancel_left whole (Int.ne_of_gt denPos)
    rw [forth, portion, Int.mul_comm whole, ← isWhole]
    exact Int.mul_ediv_cancel amount (Int.ne_of_gt numPos)

/-- The two directions agree on an amount only when it is nothing or the rate is
one to one. -/
theorem portion_eq_inverse_iff
    (nonneg : 0 ≤ amount) (numPos : 0 < num) (denPos : 0 < den) :
    portion amount num den = portion amount den num ↔
      amount = 0 ∨ num = den := by
  constructor
  · intro same
    by_contra differs
    obtain ⟨notZero, notSame⟩ := not_or.mp differs
    have positive : 0 < amount := by omega
    -- the smaller direction loses something, the larger one does not
    have loses :
        ∀ {few many : ℤ}, 0 < few → few < many →
          portion amount few many < amount ∧
            amount ≤ portion amount many few := by
      intro few many fewPos fewer
      constructor
      · rw [← Int.not_le, le_portion_iff (fewPos.trans fewer), Int.not_le]
        exact Int.mul_lt_mul_of_pos_left fewer positive
      · rw [le_portion_iff fewPos]
        exact Int.mul_le_mul_of_nonneg_left (Int.le_of_lt fewer) nonneg
    rcases Int.lt_or_gt_of_ne notSame with fewer | fewer
    · have bounds := loses numPos fewer
      omega
    · have bounds := loses denPos fewer
      omega
  · rintro (nothing | same)
    · simp [nothing]
    · rw [same]

/-- The least amount whose exchange is worth the target: the target exchanged
the other way, rounded up. -/
def leastWorth (target num den : ℤ) : ℤ :=
  -(-(target * den) / num)

theorem leastWorth_le_iff (numPos : 0 < num) (denPos : 0 < den) :
    leastWorth target num den ≤ amount ↔ target ≤ portion amount num den := by
  have rounded :
      -amount ≤ -(target * den) / num ↔ -amount * num ≤ -(target * den) :=
    Int.le_ediv_iff_mul_le numPos
  rw [Int.neg_mul] at rounded
  rw [le_portion_iff denPos, leastWorth]
  omega

theorem leastWorth_nonneg
    (targetNonneg : 0 ≤ target) (numPos : 0 < num) (denPos : 0 < den) :
    0 ≤ leastWorth target num den := by
  have low : -(target * den) / num ≤ 0 :=
    Int.ediv_nonpos_of_nonpos_of_neg
      (by have := Int.mul_nonneg targetNonneg (Int.le_of_lt denPos); omega)
      numPos
  rw [leastWorth]
  omega

/-- Rounding the target down instead of up gives at most one less. -/
theorem leastWorth_le_succ (numPos : 0 < num) (denPos : 0 < den) :
    portion target den num ≤ leastWorth target num den ∧
      leastWorth target num den ≤ portion target den num + 1 := by
  constructor
  · rw [← Int.not_lt, ← Int.le_sub_one_iff, leastWorth_le_iff numPos denPos,
      le_portion_iff denPos, Int.not_le]
    have low : portion target den num * num ≤ target * den :=
      portion_mul_le numPos
    have less : (portion target den num - 1) * num < portion target den num * num :=
      Int.mul_lt_mul_of_pos_right (by omega) numPos
    omega
  · rw [leastWorth_le_iff numPos denPos, le_portion_iff denPos, portion,
      Int.add_mul, Int.one_mul]
    have above := Int.lt_ediv_add_one_mul_self (target * den) numPos
    rw [Int.add_mul, Int.one_mul] at above
    exact Int.le_of_lt above

/-- Two fractions compare like the products across. -/
theorem fraction_lt_iff (denPos : 0 < den) (targetPos : 0 < target) :
    (num : ℚ) / den < (other : ℚ) / target ↔ num * target < other * den := by
  rw [div_lt_div_iff₀ (by exact_mod_cast denPos) (by exact_mod_cast targetPos)]
  exact_mod_cast Iff.rfl

theorem fraction_eq_iff (denPos : 0 < den) (targetPos : 0 < target) :
    (num : ℚ) / den = (other : ℚ) / target ↔ num * target = other * den := by
  rw [div_eq_div_iff (by exact_mod_cast denPos.ne')
    (by exact_mod_cast targetPos.ne')]
  exact_mod_cast Iff.rfl

end GxbCore
