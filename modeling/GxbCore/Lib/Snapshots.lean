import Mathlib.Data.List.Basic

/-!
# A state with a bounded stack of snapshots

What an undo log is for: `save` keeps the present state on a stack, `restore`
goes back to the last state kept.  The stack is cut to `limit` before a state
is pushed, so that the oldest snapshots are the ones that get lost.
-/

namespace GxbCore

universe u

/-- A state and the snapshots below it, the last one first. -/
structure Snapshots (σ : Type u) where
  current : σ
  saved : List σ
  limit : Nat

namespace Snapshots

variable {σ : Type u}

/-- Keep the present state; the oldest snapshots over the limit go first. -/
def save (snapshots : Snapshots σ) : Snapshots σ :=
  { snapshots with
    saved := snapshots.current :: snapshots.saved.take snapshots.limit }

/-- Replace the present state. -/
def write (snapshots : Snapshots σ) (state : σ) : Snapshots σ :=
  { snapshots with current := state }

def setLimit (snapshots : Snapshots σ) (limit : Nat) : Snapshots σ :=
  { snapshots with limit := limit }

/-- Go back to the last snapshot. -/
def restore (snapshots : Snapshots σ) : Option (Snapshots σ) :=
  match snapshots.saved with
  | [] => none
  | last :: older => some { snapshots with current := last, saved := older }

variable {snapshots : Snapshots σ}

theorem restore_of_cons {last : σ}
    {older : List σ} (stack : snapshots.saved = last :: older) :
    snapshots.restore =
      some { snapshots with current := last, saved := older } := by
  simp only [restore, stack]

theorem restore_of_nil (stack : snapshots.saved = []) :
    snapshots.restore = none := by
  simp only [restore, stack]

/-- Drop the last snapshot and stay. -/
def merge (snapshots : Snapshots σ) : Snapshots σ :=
  { snapshots with saved := snapshots.saved.tail }

/-- Go back several snapshots. -/
def restoreTimes : Nat → Snapshots σ → Option (Snapshots σ)
  | 0, snapshots => some snapshots
  | count + 1, snapshots => snapshots.restore.bind (restoreTimes count)

theorem restoreTimes_isSome {count : Nat} :
    (snapshots.restoreTimes count).isSome ↔
      count ≤ snapshots.saved.length := by
  induction count generalizing snapshots with
  | zero => simp [restoreTimes]
  | succ count ih =>
      cases stack : snapshots.saved with
      | nil => simp [restoreTimes, restore_of_nil stack]
      | cons last older =>
          simp [restoreTimes, restore_of_cons stack, ih]

end Snapshots

end GxbCore
