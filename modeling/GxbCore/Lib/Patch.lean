import Mathlib.Data.Option.Basic

/-!
# Patches: differences between two partial maps

A patch says, for each key, either nothing or what an earlier partial map held
there.  Reverting a patch turns the later map back into the earlier one, and
two patches of adjacent intervals compose: where both say something, the
earlier interval wins.
-/

namespace GxbCore

universe u v

/-- `patch key = none` leaves the key alone; `patch key = some old` says that
the earlier map held `old` there, `some none` being "nothing". -/
def Patch (κ : Type u) (ν : Type v) : Type (max u v) :=
  κ → Option (Option ν)

namespace Patch

variable {κ : Type u} {ν : Type v}

/-- Turn the later map back into the earlier one. -/
def revert (patch : Patch κ ν) (later : κ → Option ν) : κ → Option ν :=
  fun key => (patch key).getD (later key)

/-- The patch of two adjacent intervals. -/
def compose (earlier later : Patch κ ν) : Patch κ ν :=
  fun key => (earlier key).or (later key)

/-- A patch leads from `old` to `new` when reverting it on `new` gives `old`. -/
def Leads (patch : Patch κ ν) (old new : κ → Option ν) : Prop :=
  patch.revert new = old

/-- Reverting a composition is reverting the later interval, then the
earlier one. -/
theorem revert_compose (earlier later : Patch κ ν) (current : κ → Option ν) :
    (compose earlier later).revert current =
      earlier.revert (later.revert current) := by
  funext key
  cases earlierCase : earlier key with
  | none =>
      simp [revert, compose, earlierCase]
  | some old =>
      simp [revert, compose, earlierCase]

theorem Leads.compose {earlier later : Patch κ ν}
    {old middle new : κ → Option ν} (first : earlier.Leads old middle)
    (second : later.Leads middle new) :
    (earlier.compose later).Leads old new := by
  unfold Leads at *
  rw [revert_compose, second, first]

/-- Reverting is determined by the patch up to keys on which it repeats what
the later map already holds. -/
theorem revert_congr {first second : Patch κ ν} {current : κ → Option ν}
    (agree :
      ∀ key, (first key).getD (current key) =
        (second key).getD (current key)) :
    first.revert current = second.revert current :=
  funext agree

end Patch

end GxbCore
