import Mathlib.Algebra.BigOperators.Group.List.Basic
import Mathlib.Algebra.Order.Ring.Int

/-!
# Tables whose rows carry an amount

A table is a list of rows.  Rows are replaced and removed at the first row that
meets a condition, or at a position; the total of what the rows carry then
changes by what the row in question carried and carries now.
-/

namespace GxbCore

universe u

variable {α : Type u}

/-- The sum of what the rows carry. -/
def total (weight : α → ℤ) (rows : List α) : ℤ :=
  (rows.map weight).sum

/-- Put `fresh` in the place of the first row that matches. -/
def replaceFirst (matching : α → Bool) (fresh : α) : List α → List α
  | [] => []
  | row :: rest =>
      if matching row then fresh :: rest
      else row :: replaceFirst matching fresh rest

section Total

variable {weight : α → ℤ}

@[simp]
theorem total_nil : total weight [] = 0 :=
  rfl

@[simp]
theorem total_cons (row : α) (rest : List α) :
    total weight (row :: rest) = weight row + total weight rest := by
  simp [total]

@[simp]
theorem total_append (rows more : List α) :
    total weight (rows ++ more) = total weight rows + total weight more := by
  simp [total]

variable {rows : List α}

theorem total_replaceFirst {matching : α → Bool} {fresh row : α}
    (found : rows.find? matching = some row) :
    total weight (replaceFirst matching fresh rows) =
      total weight rows - weight row + weight fresh := by
  induction rows with
  | nil => cases found
  | cons first rest ih =>
      by_cases here : matching first = true
      · rw [List.find?_cons_of_pos here] at found
        cases found
        simp [replaceFirst, here]
        omega
      · rw [List.find?_cons_of_neg here] at found
        simp [replaceFirst, here, ih found]
        omega

theorem total_eraseP {matching : α → Bool} {row : α}
    (found : rows.find? matching = some row) :
    total weight (rows.eraseP matching) = total weight rows - weight row := by
  induction rows with
  | nil => cases found
  | cons first rest ih =>
      by_cases here : matching first = true
      · rw [List.find?_cons_of_pos here] at found
        cases found
        simp [here]
      · rw [List.find?_cons_of_neg here] at found
        simp [here, ih found]
        omega

theorem total_set {position : Nat} {row : α} (fresh : α)
    (found : rows[position]? = some row) :
    total weight (rows.set position fresh) =
      total weight rows - weight row + weight fresh := by
  induction rows generalizing position with
  | nil => simp at found
  | cons first rest ih =>
      cases position with
      | zero =>
          simp only [List.getElem?_cons_zero, Option.some.injEq] at found
          subst found
          simp
          omega
      | succ earlier =>
          simp only [List.getElem?_cons_succ] at found
          simp only [List.set_cons_succ, total_cons,
            ih found]
          omega

theorem total_nonneg (nonneg : ∀ row ∈ rows, 0 ≤ weight row) :
    0 ≤ total weight rows := by
  induction rows with
  | nil => simp
  | cons row rest ih =>
      rw [total_cons]
      have first := nonneg row List.mem_cons_self
      have later :=
        ih
          (fun other member =>
            nonneg other (List.mem_cons_of_mem row member))
      omega

/-- A row weighs at most what all rows weigh. -/
theorem le_total_of_mem {row : α} (nonneg : ∀ other ∈ rows, 0 ≤ weight other)
    (member : row ∈ rows) : weight row ≤ total weight rows := by
  induction rows with
  | nil => cases member
  | cons first rest ih =>
      have nonnegRest :=
        fun other member => nonneg other (List.mem_cons_of_mem first member)
      rw [total_cons]
      rcases List.mem_cons.mp member with rfl | later
      · have rest_nonneg := total_nonneg nonnegRest
        omega
      · have first_nonneg := nonneg first List.mem_cons_self
        have below := ih nonnegRest later
        omega

theorem total_eq_zero (zero : ∀ row ∈ rows, weight row = 0) :
    total weight rows = 0 := by
  induction rows with
  | nil => rfl
  | cons row rest ih =>
      rw [total_cons, zero row List.mem_cons_self,
        ih
          (fun other member =>
            zero other (List.mem_cons_of_mem row member))]
      rfl

end Total

section Members

variable {matching : α → Bool} {rows : List α} {holdsOf : α → Prop}

theorem mem_replaceFirst {fresh row : α}
    (member : row ∈ replaceFirst matching fresh rows) :
    row = fresh ∨ row ∈ rows := by
  induction rows with
  | nil => simp [replaceFirst] at member
  | cons first rest ih =>
      by_cases here : matching first = true
      · simp only [replaceFirst, here, if_true, List.mem_cons] at member
        rcases member with same | inRest
        · exact .inl same
        · exact .inr (List.mem_cons_of_mem first inRest)
      · simp only [replaceFirst, here, Bool.false_eq_true, if_false,
          List.mem_cons] at member
        rcases member with same | inRest
        · exact .inr (by simp [same])
        · rcases ih inRest with same | member
          · exact .inl same
          · exact .inr (List.mem_cons_of_mem first member)

/-- The new row is found where the old one was. -/
theorem find_replaceFirst {fresh row : α}
    (found : rows.find? matching = some row)
    (freshMatches : matching fresh = true) :
    (replaceFirst matching fresh rows).find? matching = some fresh := by
  induction rows with
  | nil => cases found
  | cons first rest ih =>
      by_cases here : matching first = true
      · simp [replaceFirst, here, freshMatches]
      · rw [List.find?_cons_of_neg here] at found
        simp [replaceFirst, here, ih found]

/-- A search that overlooks the row and its replacement finds the same. -/
theorem find_replaceFirst_of_not {matching wanted : α → Bool} {fresh row : α}
    (found : rows.find? matching = some row) (notRow : wanted row = false)
    (notFresh : wanted fresh = false) :
    (replaceFirst matching fresh rows).find? wanted =
      rows.find? wanted := by
  induction rows with
  | nil => cases found
  | cons first rest ih =>
      by_cases here : matching first = true
      · rw [List.find?_cons_of_pos here, Option.some.injEq] at found
        subst found
        simp [replaceFirst, here, notFresh, notRow]
      · rw [List.find?_cons_of_neg here] at found
        simp [replaceFirst, here, List.find?_cons,
          ih found]

/-- Rows that are picked neither before nor after a change. -/
theorem filter_replaceFirst_of_not {picked : α → Bool} {fresh row : α}
    (found : rows.find? matching = some row) (notRow : picked row = false)
    (notFresh : picked fresh = false) :
    (replaceFirst matching fresh rows).filter picked =
      rows.filter picked := by
  induction rows with
  | nil => cases found
  | cons first rest ih =>
      by_cases here : matching first = true
      · rw [List.find?_cons_of_pos here, Option.some.injEq] at found
        subst found
        simp [replaceFirst, here, notFresh, notRow]
      · rw [List.find?_cons_of_neg here] at found
        simp [replaceFirst, here, List.filter_cons,
          ih found]

theorem filter_eraseP_of_not {picked : α → Bool} {row : α}
    (found : rows.find? matching = some row) (notRow : picked row = false) :
    (rows.eraseP matching).filter picked = rows.filter picked := by
  induction rows with
  | nil => cases found
  | cons first rest ih =>
      by_cases here : matching first = true
      · rw [List.find?_cons_of_pos here, Option.some.injEq] at found
        subst found
        simp [here, notRow]
      · rw [List.find?_cons_of_neg here] at found
        simp [here, List.filter_cons, ih found]

/-- What holds of every row and of the new one holds after the replacement. -/
theorem forall_replaceFirst {fresh : α} (before : ∀ row ∈ rows, holdsOf row)
    (new : holdsOf fresh) :
    ∀ row ∈ replaceFirst matching fresh rows, holdsOf row := by
  intro row member
  rcases mem_replaceFirst member with same | inRows
  · exact same ▸ new
  · exact before row inRows

theorem forall_set {position : Nat} {fresh : α}
    (before : ∀ row ∈ rows, holdsOf row) (new : holdsOf fresh) :
    ∀ row ∈ rows.set position fresh, holdsOf row := by
  intro row member
  rcases List.mem_or_eq_of_mem_set member with inRows | same
  · exact before row inRows
  · exact same ▸ new

theorem forall_concat {fresh : α} (before : ∀ row ∈ rows, holdsOf row)
    (new : holdsOf fresh) : ∀ row ∈ rows ++ [fresh], holdsOf row := by
  intro row member
  rcases List.mem_append.mp member with inRows | isNew
  · exact before row inRows
  · exact List.mem_singleton.mp isNew ▸ new

theorem forall_eraseP (before : ∀ row ∈ rows, holdsOf row) :
    ∀ row ∈ rows.eraseP matching, holdsOf row :=
  fun row member => before row (List.mem_of_mem_eraseP member)

end Members

section Keyed

variable {key : α → Nat} {rows : List α} {row : α} {wanted : Nat}

/-- In a table with one row for a key, looking the key up finds the row. -/
theorem find_key_of_nodup
    (unique : (rows.map key).Nodup) (member : row ∈ rows) :
    rows.find? (fun other => key other == key row) = some row := by
  induction rows with
  | nil => cases member
  | cons first rest ih =>
      rw [List.map_cons, List.nodup_cons] at unique
      rcases List.mem_cons.mp member with here | later
      · simp [here]
      · have different : key first ≠ key row := by
          intro same
          exact unique.1 (same ▸ List.mem_map_of_mem later)
        rw [List.find?_cons_of_neg (by simpa using different)]
        exact ih unique.2 later

/-- Replacing a row keeps what the rows show when the new row shows the
same. -/
theorem map_replaceFirst
    {β : Type u} {shows : α → β} {matching : α → Bool} {fresh row : α}
    (found : rows.find? matching = some row) (same : shows fresh = shows row) :
    (replaceFirst matching fresh rows).map shows = rows.map shows := by
  induction rows with
  | nil => rfl
  | cons first rest ih =>
      by_cases here : matching first = true
      · rw [List.find?_cons_of_pos here] at found
        cases found
        simp [replaceFirst, here, same]
      · rw [List.find?_cons_of_neg here] at found
        simp [replaceFirst, here, ih found]

theorem nodup_map_concat {β : Type u} {shows : α → β}
    (unique : (rows.map shows).Nodup) {fresh : α}
    (new : ∀ row ∈ rows, shows row ≠ shows fresh) :
    ((rows ++ [fresh]).map shows).Nodup := by
  rw [List.map_append, List.map_singleton, List.nodup_append]
  refine ⟨unique, List.pairwise_singleton _ _, ?_⟩
  intro shared inRows other inFresh
  obtain ⟨row, member, rfl⟩ := List.mem_map.mp inRows
  rw [List.mem_singleton.mp inFresh]
  exact new row member

theorem nodup_map_eraseP {β : Type u} {shows : α → β}
    (unique : (rows.map shows).Nodup) (matching : α → Bool) :
    ((rows.eraseP matching).map shows).Nodup :=
  unique.sublist (List.eraseP_sublist.map shows)

/-- With one row for a key, no row with that key is left when it is erased. -/
theorem key_ne_of_mem_eraseP (unique : (rows.map key).Nodup)
    (left : row ∈ rows.eraseP (fun other => key other == wanted)) :
    key row ≠ wanted := by
  induction rows with
  | nil => cases left
  | cons first rest ih =>
      rw [List.map_cons, List.nodup_cons] at unique
      by_cases here : key first = wanted
      · rw [List.eraseP_cons_of_pos (by simpa using here)] at left
        intro same
        exact unique.1 (here ▸ same ▸ List.mem_map_of_mem left)
      · rw [List.eraseP_cons_of_neg (by simpa using here)] at left
        rcases List.mem_cons.mp left with isFirst | later
        · exact isFirst ▸ here
        · exact ih unique.2 later

/-- Erasing the row of a key leaves the rows with other keys. -/
theorem mem_eraseP_of_key_ne (member : row ∈ rows) (other : key row ≠ wanted) :
    row ∈ rows.eraseP (fun other => key other == wanted) :=
  (List.mem_eraseP_of_neg (by simpa using other)).mpr member

/-- Replacing the row of a key leaves the rows with other keys. -/
theorem mem_replaceFirst_of_key_ne {fresh row : α} (member : row ∈ rows)
    (other : key row ≠ key fresh) :
    row ∈ replaceFirst (fun other => key other == key fresh) fresh rows := by
  induction rows with
  | nil => cases member
  | cons first rest ih =>
      by_cases here : key first = key fresh
      · rcases List.mem_cons.mp member with isFirst | later
        · exact absurd (isFirst ▸ here) other
        · simp [replaceFirst, here, later]
      · rcases List.mem_cons.mp member with isFirst | later
        · simp [replaceFirst, here, isFirst]
        · simp [replaceFirst, here, ih later]

/-- With one row for a key, replacing it is a map over the rows. -/
theorem replaceFirst_eq_map (unique : (rows.map key).Nodup) (fresh : α) :
    replaceFirst (fun other => key other == wanted) fresh rows =
      rows.map fun other => if key other = wanted then fresh else other := by
  induction rows with
  | nil => rfl
  | cons first rest ih =>
      rw [List.map_cons, List.nodup_cons] at unique
      by_cases here : key first = wanted
      · have unchanged :
            (rest.map fun other =>
              if key other = wanted then fresh else other) = rest := by
          refine (List.map_congr_left fun other member => ?_).trans
            (List.map_id rest)
          refine if_neg ?_
          intro same
          exact unique.1 (here.trans same.symm ▸ List.mem_map_of_mem member)
        simp [replaceFirst, here, unchanged]
      · simp [replaceFirst, here, ih unique.2]

theorem map_key_self (unique : (rows.map key).Nodup) (member : row ∈ rows) :
    (rows.map fun other => if key other = key row then row else other) =
      rows := by
  refine (List.map_congr_left fun other inRows => ?_).trans
    (List.map_id rows)
  split
  · next same =>
      have found := find_key_of_nodup unique inRows
      rw [same, find_key_of_nodup unique member, Option.some.injEq] at found
      exact found
  · rfl

/-- With one row for a key, what the rows of the key carry is what it
carries. -/
theorem total_at_key (unique : (rows.map key).Nodup) {weight : α → ℤ}
    (found : rows.find? (fun other => key other == wanted) = some row) :
    total (fun other => if key other = wanted then weight other else 0) rows =
      weight row := by
  induction rows with
  | nil => cases found
  | cons first rest ih =>
      rw [List.map_cons, List.nodup_cons] at unique
      rw [total_cons]
      by_cases here : key first = wanted
      · rw [List.find?_cons_of_pos (by simpa using here),
          Option.some.injEq] at found
        have none_else : total
            (fun other => if key other = wanted then weight other else 0)
            rest = 0 := by
          refine total_eq_zero ?_
          intro other member
          refine if_neg ?_
          intro same
          exact unique.1 (here.trans same.symm ▸ List.mem_map_of_mem member)
        rw [none_else, if_pos here, found, add_zero]
      · rw [List.find?_cons_of_neg (by simpa using here)] at found
        rw [if_neg here, ih unique.2 found, zero_add]

/-- With one row for a key, only the new row has it after it is put in the place
of the key. -/
theorem eq_fresh_of_mem_set
    (unique : (rows.map key).Nodup) {wanted place : Nat} {fresh row : α}
    (found : rows.findIdx? (fun other => key other == wanted) = some place)
    (member : row ∈ rows.set place fresh) (isWanted : key row = wanted) :
    row = fresh := by
  induction rows generalizing place with
  | nil => cases found
  | cons first rest ih =>
      rw [List.map_cons, List.nodup_cons] at unique
      rw [List.findIdx?_cons] at found
      by_cases here : key first = wanted
      · rw [if_pos (by simpa using here), Option.some.injEq] at found
        subst found
        rw [List.set_cons_zero] at member
        rcases List.mem_cons.mp member with same | later
        · exact same
        · refine absurd ?_ unique.1
          rw [here, ← isWanted]
          exact List.mem_map_of_mem later
      · rw [if_neg (by simpa using here)] at found
        obtain ⟨later, foundLater, isPlace⟩ := Option.map_eq_some_iff.mp found
        subst isPlace
        rw [List.set_cons_succ] at member
        rcases List.mem_cons.mp member with same | inRest
        · exact absurd (same ▸ isWanted) here
        · exact ih unique.2 foundLater inRest

end Keyed

end GxbCore
