import GxbCore.Lib.Rows
import Mathlib.Algebra.Order.Group.Unbundled.Int
import Mathlib.Algebra.BigOperators.Group.List.Lemmas

/-!
# Dividing a pool by weights

Each of several shares of a pool is the part of the pool that falls to its
weight, rounded down.  Together they do not exceed the pool, and what they come
to does not depend on their order.
-/

namespace GxbCore

universe u

variable {α : Type u}

/-- The part of a pool that falls to a weight, rounded down. -/
def portion (pool weight whole : ℤ) : ℤ :=
  pool * weight / whole

theorem portion_nonneg {pool weight whole : ℤ} (poolNonneg : 0 ≤ pool)
    (weightNonneg : 0 ≤ weight) (wholePos : 0 < whole) :
    0 ≤ portion pool weight whole :=
  Int.ediv_nonneg (Int.mul_nonneg poolNonneg weightNonneg)
    (Int.le_of_lt wholePos)

/-- A portion times the whole is at most the pool times the weight. -/
theorem portion_mul_le {pool weight whole : ℤ} (wholePos : 0 < whole) :
    portion pool weight whole * whole ≤ pool * weight :=
  Int.ediv_mul_le _ (Int.ne_of_gt wholePos)

theorem portion_le {pool weight whole : ℤ} (poolNonneg : 0 ≤ pool)
    (wholePos : 0 < whole) (weightLe : weight ≤ whole) :
    portion pool weight whole ≤ pool := by
  have scaled : portion pool weight whole * whole ≤ pool * whole :=
    (portion_mul_le wholePos).trans
      (Int.mul_le_mul_of_nonneg_left weightLe poolNonneg)
  exact Int.le_of_mul_le_mul_right scaled wholePos

theorem total_mul_right (weight : α → ℤ) (factor : ℤ) (rows : List α) :
    total (fun row => weight row * factor) rows =
      total weight rows * factor := by
  induction rows with
  | nil => simp
  | cons row rest ih =>
      rw [total_cons, total_cons, ih, Int.add_mul]

theorem total_mono {left right : α → ℤ} {rows : List α}
    (below : ∀ row ∈ rows, left row ≤ right row) :
    total left rows ≤ total right rows := by
  induction rows with
  | nil => simp
  | cons row rest ih =>
      rw [total_cons, total_cons]
      have first := below row List.mem_cons_self
      have later :=
        ih fun other member =>
          below other (List.mem_cons_of_mem row member)
      omega

theorem total_congr {left right : α → ℤ} {rows : List α}
    (same : ∀ row ∈ rows, left row = right row) :
    total left rows = total right rows := by
  apply Int.le_antisymm
  · exact total_mono fun row member => Int.le_of_eq (same row member)
  · exact total_mono fun row member => Int.le_of_eq (same row member).symm

theorem total_perm
    {weight : α → ℤ} {rows others : List α} (order : rows.Perm others) :
    total weight rows = total weight others :=
  (order.map weight).sum_eq

/-- The portions of weights that do not exceed the whole do not exceed the
pool. -/
theorem total_portion_le {pool whole : ℤ} {weight : α → ℤ} {rows : List α}
    (poolNonneg : 0 ≤ pool) (wholePos : 0 < whole)
    (weightsLe : total weight rows ≤ whole) :
    total (fun row => portion pool (weight row) whole) rows ≤ pool := by
  have scaled :
      total (fun row => portion pool (weight row) whole) rows * whole ≤
        pool * whole := by
    calc total (fun row => portion pool (weight row) whole) rows * whole
        = total (fun row => portion pool (weight row) whole * whole) rows :=
          (total_mul_right _ whole rows).symm
      _ ≤ total (fun row => weight row * pool) rows :=
          total_mono fun row _ =>
            (portion_mul_le wholePos).trans
              (Int.le_of_eq (Int.mul_comm pool (weight row)))
      _ = total weight rows * pool := total_mul_right weight pool rows
      _ ≤ whole * pool :=
          Int.mul_le_mul_of_nonneg_right weightsLe poolNonneg
      _ = pool * whole := Int.mul_comm whole pool
  exact Int.le_of_mul_le_mul_right scaled wholePos

end GxbCore
