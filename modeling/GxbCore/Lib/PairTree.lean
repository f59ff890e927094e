import Mathlib.Algebra.Group.Nat.Defs

/-!
# Trees over pairs

A list is reduced level by level: neighbours are joined in pairs, and an odd
last one is carried up unchanged, until one is left.
-/

namespace GxbCore.PairTree

variable {D : Type}

/-- One level up. -/
def pairUp (join : D → D → D) : List D → List D
  | left :: right :: rest => join left right :: pairUp join rest
  | [last] => [last]
  | [] => []

@[simp]
theorem pairUp_nil (join : D → D → D) : pairUp join [] = [] :=
  rfl

@[simp]
theorem pairUp_single (join : D → D → D) (last : D) :
    pairUp join [last] = [last] :=
  rfl

@[simp]
theorem pairUp_cons (join : D → D → D) (left right : D) (rest : List D) :
    pairUp join (left :: right :: rest) =
      join left right :: pairUp join rest :=
  rfl

theorem length_pairUp (join : D → D → D) (level : List D) :
    (pairUp join level).length = (level.length + 1) / 2 := by
  induction level using pairUp.induct with
  | case1 left right rest ih =>
      simp only [pairUp_cons, List.length_cons, ih]
      omega
  | case2 last => simp
  | case3 => simp

variable {join : D → D → D}

/-- Pairs that come before an odd one are joined as they are. -/
theorem pairUp_append {pairs : List D} (later : List D)
    (even : pairs.length % 2 = 0) :
    pairUp join (pairs ++ later) = pairUp join pairs ++ pairUp join later := by
  induction pairs using pairUp.induct with
  | case1 left right rest ih =>
      have restEven : rest.length % 2 = 0 := by
        simp only [List.length_cons] at even
        omega
      simp only [List.cons_append, pairUp_cons,
        ih restEven]
  | case2 last => simp at even
  | case3 => rfl

/-- The one that is left in the end; of nothing, nothing is left. -/
def root (join : D → D → D) : List D → Option D
  | [] => none
  | [last] => some last
  | left :: right :: rest => root join (pairUp join (left :: right :: rest))
termination_by level => level.length
decreasing_by
  rw [length_pairUp]
  simp only [List.length_cons]
  omega

@[simp]
theorem root_nil (join : D → D → D) : root join [] = none := by
  rw [root]

@[simp]
theorem root_single (join : D → D → D) (last : D) :
    root join [last] = some last := by
  rw [root]

theorem root_pairUp {level : List D} (many : 1 < level.length) :
    root join (pairUp join level) = root join level := by
  match level, many with
  | left :: right :: rest, _ => rw [← root]

/-- Something is left of something. -/
theorem root_of_length {join : D → D → D} {level : List D}
    (nonempty : 0 < level.length) : ∃ last, root join level = some last := by
  induction level using root.induct join with
  | case1 => simp at nonempty
  | case2 last => exact ⟨last, root_single join last⟩
  | case3 left right rest ih =>
      rw [← root_pairUp (by simp)]
      apply ih
      rw [length_pairUp]
      simp only [List.length_cons]
      omega

/-- A join that can be taken apart. -/
def JoinInjective (join : D → D → D) : Prop :=
  ∀ left right other another,
    join left right = join other another → left = other ∧ right = another

theorem pairUp_injective (injective : JoinInjective join)
    {level other : List D} (sameLength : level.length = other.length)
    (same : pairUp join level = pairUp join other) : level = other := by
  induction level using pairUp.induct generalizing other with
  | case1 left right rest ih =>
      match other, sameLength with
      | first :: second :: later, sameLength =>
          simp only [pairUp_cons, List.cons.injEq] at same
          obtain ⟨sameJoin, sameRest⟩ := same
          obtain ⟨sameLeft, sameRight⟩ := injective _ _ _ _ sameJoin
          have restLength : rest.length = later.length := by
            simpa using sameLength
          rw [sameLeft, sameRight,
            ih restLength sameRest]
  | case2 last =>
      match other, sameLength with
      | [alone], _ => exact same
  | case3 =>
      exact (List.length_eq_zero_iff.mp sameLength.symm).symm

/-- What is left of two lists of one length tells them apart. -/
theorem root_injective (injective : JoinInjective join)
    {level other : List D} (sameLength : level.length = other.length)
    (same : root join level = root join other) : level = other := by
  induction level using root.induct join generalizing other with
  | case1 =>
      exact (List.length_eq_zero_iff.mp sameLength.symm).symm
  | case2 last =>
      match other, sameLength with
      | [alone], _ =>
          simp only [root_single, Option.some.injEq] at same
          rw [same]
  | case3 left right rest ih =>
      have many : 1 < (left :: right :: rest).length := by simp
      have otherMany : 1 < other.length := sameLength ▸ many
      rw [← root_pairUp many, ← root_pairUp otherMany] at same
      refine pairUp_injective injective sameLength
        (ih ?_ same)
      rw [length_pairUp, length_pairUp, sameLength]

end GxbCore.PairTree
