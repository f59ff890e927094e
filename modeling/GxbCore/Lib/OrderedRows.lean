import Mathlib.Data.List.MinMax

/-!
# Rows in the order of a key

An ordered index is the rows of a table seen in the order of a key.  Its lookups
and its iterator steps all ask for the first, or the last, row in that order
that meets a condition.
-/

namespace GxbCore

universe u v

variable {ρ : Type u} {κ : Type v} [LinearOrder κ]
variable {key : ρ → κ} {meets : ρ → Bool} {rows : List ρ} {row : ρ}

def firstWhere (key : ρ → κ) (meets : ρ → Bool) (rows : List ρ) : Option ρ :=
  (rows.filter meets).argmin key

def lastWhere (key : ρ → κ) (meets : ρ → Bool) (rows : List ρ) : Option ρ :=
  (rows.filter meets).argmax key

theorem mem_of_firstWhere (found : firstWhere key meets rows = some row) :
    row ∈ rows ∧ meets row = true :=
  List.mem_filter.mp (List.argmin_mem found)

variable {other : ρ}

theorem firstWhere_le (found : firstWhere key meets rows = some row)
    (member : other ∈ rows) (otherMeets : meets other = true) :
    key row ≤ key other :=
  List.le_of_mem_argmin (List.mem_filter.mpr ⟨member, otherMeets⟩) found

theorem not_meets_of_firstWhere_none
    (missing : firstWhere key meets rows = none) (member : other ∈ rows) :
    meets other = false := by
  have empty : rows.filter meets = [] := List.argmin_eq_none.mp missing
  have := List.filter_eq_nil_iff.mp empty other member
  simpa using this

theorem mem_of_lastWhere (found : lastWhere key meets rows = some row) :
    row ∈ rows ∧ meets row = true :=
  List.mem_filter.mp (List.argmax_mem found)

theorem le_lastWhere (found : lastWhere key meets rows = some row)
    (member : other ∈ rows) (otherMeets : meets other = true) :
    key other ≤ key row :=
  List.le_of_mem_argmax (List.mem_filter.mpr ⟨member, otherMeets⟩) found

theorem not_meets_of_lastWhere_none (missing : lastWhere key meets rows = none)
    (member : other ∈ rows) : meets other = false := by
  have empty : rows.filter meets = [] := List.argmax_eq_none.mp missing
  have := List.filter_eq_nil_iff.mp empty other member
  simpa using this

/-- Fewer rows meet a condition that leaves out one of them. -/
theorem countP_lt_countP {fewer : ρ → Bool}
    (implies : ∀ other ∈ rows, fewer other = true → meets other = true)
    (member : row ∈ rows) (rowMeets : meets row = true)
    (leftOut : fewer row = false) : rows.countP fewer < rows.countP meets := by
  induction rows with
  | nil => cases member
  | cons first rest ih =>
      have impliesRest :
          ∀ other ∈ rest, fewer other = true → meets other = true :=
        fun other inRest =>
          implies other (List.mem_cons_of_mem first inRest)
      have restLe := List.countP_mono_left impliesRest
      rw [List.countP_cons, List.countP_cons]
      rcases List.mem_cons.mp member with isFirst | inRest
      · subst isFirst
        simp only [rowMeets, leftOut, if_true, Bool.false_eq_true, if_false]
        omega
      · have restLt := ih impliesRest inRest
        by_cases firstFewer : fewer first = true
        · have firstMeets := implies first List.mem_cons_self firstFewer
          simp only [firstFewer, firstMeets, if_true]
          omega
        · simp only [firstFewer, Bool.false_eq_true, if_false]
          omega

end GxbCore
