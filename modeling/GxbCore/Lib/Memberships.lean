import Mathlib.Data.Finset.Prod

/-!
# The inverse of a membership relation

Owners have members, and an index keeps for every member the set of its owners.
It is a finite set of pairs, and what it says of one owner is a row of it.  The
index follows its owners by set differences: what has gone is erased, what has
come is inserted.
-/

namespace GxbCore

universe u v

variable {β : Type u} {ι : Type v} [DecidableEq β] [DecidableEq ι]

/-- The pairs of a member and one of its owners. -/
abbrev Memberships (β : Type u) (ι : Type v) :=
  Finset (β × ι)

namespace Memberships

def row (index : Memberships β ι) (owner : ι) : Finset β :=
  (index.filter fun pair => pair.2 = owner).image Prod.fst

def insertAll (items : Finset β) (owner : ι) (index : Memberships β ι) :
    Memberships β ι :=
  index ∪ items.image fun item => (item, owner)

def eraseAll (items : Finset β) (owner : ι) (index : Memberships β ι) :
    Memberships β ι :=
  index \ items.image fun item => (item, owner)

/-- Follow an owner that had the members `before` and has the members
`after`. -/
def change (before after : Finset β) (owner : ι)
    (index : Memberships β ι) : Memberships β ι :=
  insertAll (after \ before) owner (eraseAll (before \ after) owner index)

variable {index : Memberships β ι} {owner other : ι} {item : β}
  {items before after : Finset β}

@[simp]
theorem mem_row : item ∈ index.row owner ↔ (item, owner) ∈ index := by
  simp [row]

theorem row_insertAll :
    (insertAll items owner index).row owner = index.row owner ∪ items := by
  ext item
  simp [insertAll]

theorem row_insertAll_of_ne (different : other ≠ owner) :
    (insertAll items owner index).row other = index.row other := by
  ext item
  simp [insertAll, different.symm]

theorem row_eraseAll :
    (eraseAll items owner index).row owner = index.row owner \ items := by
  ext item
  simp [eraseAll]

theorem row_eraseAll_of_ne (different : other ≠ owner) :
    (eraseAll items owner index).row other = index.row other := by
  ext item
  simp [eraseAll, different.symm]

theorem row_change :
    (change before after owner index).row owner =
      (index.row owner \ (before \ after)) ∪ (after \ before) := by
  rw [change, row_insertAll, row_eraseAll]

theorem row_change_of_ne (different : other ≠ owner) :
    (change before after owner index).row other = index.row other := by
  rw [change, row_insertAll_of_ne different, row_eraseAll_of_ne different]

/-- The row is right after a change exactly when what it had too much was known
before, and what was known before and is still there was in it. -/
theorem row_change_eq_iff :
    (change before after owner index).row owner = after ↔
      index.row owner \ after ⊆ before ∧
        before ∩ after ⊆ index.row owner := by
  rw [row_change]
  constructor
  · intro right
    refine ⟨?_, ?_⟩
    · intro item stale
      obtain ⟨inRow, gone⟩ := Finset.mem_sdiff.mp stale
      by_contra unknown
      apply gone
      rw [← right]
      simp [inRow, unknown]
    · intro item stays
      obtain ⟨known, there⟩ := Finset.mem_inter.mp stays
      rw [← right] at there
      simp only [Finset.mem_union, Finset.mem_sdiff] at there
      rcases there with ⟨inRow, _⟩ | ⟨_, unknown⟩
      · exact inRow
      · exact absurd known unknown
  · rintro ⟨stale, stays⟩
    ext item
    have staleItem := @stale item
    have staysItem := @stays item
    simp only [Finset.mem_union, Finset.mem_sdiff, Finset.mem_inter]
      at staleItem staysItem ⊢
    grind

/-- A change from what the row says. -/
theorem row_change_of_row (known : index.row owner = before) :
    (change before after owner index).row owner = after := by
  refine row_change_eq_iff.mpr ⟨?_, ?_⟩
  · rw [known]
    exact Finset.sdiff_subset
  · rw [known]
    exact Finset.inter_subset_left

/-- A change to what the row says, whatever was taken for the members
before. -/
theorem row_change_of_same (same : index.row owner = after) :
    (change before after owner index).row owner = after := by
  refine row_change_eq_iff.mpr ⟨?_, ?_⟩
  · rw [same, Finset.sdiff_self]
    exact Finset.empty_subset before
  · rw [same]
    exact Finset.inter_subset_right

end Memberships

end GxbCore
