import Mathlib.Data.List.Basic

/-!
# Removing items greedily

From a collection that meets a requirement, each of its items in turn is taken
out, and put back when the others do not meet it.  For a requirement that more
items never spoil, what is left meets it, and does so without none of its items.
-/

namespace GxbCore

variable {α : Type} [DecidableEq α]

def without (item : α) (items : List α) : List α :=
  items.filter fun other => decide (other ≠ item)

theorem mem_without {item other : α} {items : List α} :
    other ∈ without item items ↔ other ∈ items ∧ other ≠ item := by
  simp [without]

section Greedy

variable (meets : List α → Prop) [DecidablePred meets]

def takeOut (items : List α) (item : α) : List α :=
  if meets (without item items) then without item items
  else item :: without item items

variable {meets} {start items : List α} {item : α}

/-- What the removals keep; the items that were tried are needed or gone. -/
structure Shrinks (meets : List α → Prop) (start tried items : List α) :
    Prop where
  inside : items ⊆ start
  holds : meets items
  needed : ∀ item ∈ items, item ∈ tried → ¬ meets (without item items)

theorem Shrinks.takeOut {tried : List α}
    (mono : ∀ few many : List α, few ⊆ many → meets few → meets many)
    (shrinks : Shrinks meets start tried items) :
    Shrinks meets start (tried ++ [item]) (takeOut meets items item) := by
  have fewer : without item items ⊆ items :=
    List.filter_subset_self _
  unfold GxbCore.takeOut
  split
  · next met =>
      refine ⟨fun other member => shrinks.inside (fewer member), met, ?_⟩
      intro other member wasTried
      obtain ⟨inItems, different⟩ := mem_without.mp member
      rcases List.mem_append.mp wasTried with before | isThis
      · intro metWithout
        refine shrinks.needed other inItems before (mono _ _ ?_ metWithout)
        intro third thirdMember
        obtain ⟨inside, notOther⟩ := mem_without.mp thirdMember
        exact mem_without.mpr ⟨fewer inside, notOther⟩
      · exact absurd (List.mem_singleton.mp isThis) different
  · next notMet =>
      -- the item is one of those that are left
      have isLeft : item ∈ items := by
        by_contra absent
        refine notMet (mono _ _ ?_ shrinks.holds)
        intro other member
        exact mem_without.mpr
          ⟨member, fun same => absent (same ▸ member)⟩
      have same : ∀ other, other ∈ item :: without item items ↔
          other ∈ items := by
        intro other
        rw [List.mem_cons, mem_without]
        by_cases isThis : other = item
        · simp [isThis, isLeft]
        · simp [isThis]
      have sameWithout :
          ∀ other, without other (item :: without item items) ⊆
            without other items := by
        intro other third member
        obtain ⟨inside, notOther⟩ := mem_without.mp member
        exact mem_without.mpr ⟨(same third).mp inside, notOther⟩
      refine ⟨?_, ?_, ?_⟩
      · intro other member
        exact shrinks.inside ((same other).mp member)
      · exact mono _ _ (fun other member => (same other).mpr member)
          shrinks.holds
      · intro other member wasTried metWithout
        have metBefore := mono _ _ (sameWithout other) metWithout
        rcases List.mem_append.mp wasTried with before | isThis
        · exact shrinks.needed other ((same other).mp member) before metBefore
        · rw [List.mem_singleton.mp isThis] at metBefore
          exact notMet metBefore

/-- When every item was tried, none can be taken out of what is left. -/
theorem takeOut_all
    (mono : ∀ few many : List α, few ⊆ many → meets few → meets many)
    (met : meets start) :
    Shrinks meets start start (start.foldl (takeOut meets) start) := by
  suffices general :
      ∀ later tried items, tried ++ later = start →
        Shrinks meets start tried items →
        Shrinks meets start start (later.foldl (GxbCore.takeOut meets) items)
      from
    general start [] start rfl
      ⟨fun _ member => member, met, fun _ _ impossible => by cases impossible⟩
  intro later
  induction later with
  | nil =>
      intro tried items split shrinks
      rw [List.append_nil] at split
      exact split ▸ shrinks
  | cons item later ih =>
      intro tried items split shrinks
      rw [List.foldl_cons]
      exact ih (tried ++ [item]) _
        (by rw [List.append_assoc, List.singleton_append, split])
        (shrinks.takeOut mono)

end Greedy

end GxbCore
