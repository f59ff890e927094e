import Mathlib.Data.List.Perm.Subperm
import Mathlib.Logic.Relation

/-!
# Chains of a partial map

Every item has at most one next item.  A chain that comes to an end does not
come back to where it was; and when only finitely many items have a next one, a
chain that does not come back ends before they are used up.
-/

namespace GxbCore.Chains

universe u

variable {α : Type u} (next : α → Option α)

/-- The item after this one. -/
def Leads (a b : α) : Prop :=
  next a = some b

/-- The chain from here is finite. -/
abbrev Ends (a : α) : Prop :=
  Acc (fun b a => Leads next a b) a

/-- Go on for so many items; the last one has to be among them. -/
def follow : Nat → α → Option α
  | 0, _ => none
  | count + 1, a =>
      match next a with
      | none => some a
      | some b => follow count b

section Ends

variable {next : α → Option α} {a b : α}

theorem ends_of_last (last : next a = none) : Ends next a := by
  refine .intro a ?_
  intro b leads
  exact absurd (last.symm.trans leads) (by simp)

theorem ends_of_leads (leads : next a = some b) (ends : Ends next b) :
    Ends next a := by
  refine .intro a ?_
  intro other leadsToo
  cases leads.symm.trans leadsToo
  exact ends

/-- A chain that ends does not come back. -/
theorem not_back (ends : Ends next a) :
    ¬ Relation.TransGen (Leads next) a a := by
  induction ends with
  | intro a _ ih =>
      intro back
      obtain ⟨b, leads, comesBack⟩ := Relation.TransGen.head'_iff.mp back
      exact ih b leads (.tail' comesBack leads)

end Ends

section Follow

variable {next : α → Option α} {count : Nat} {a last : α}

/-- What is found is the end of the chain. -/
theorem follow_reaches (followed : follow next count a = some last) :
    Relation.ReflTransGen (Leads next) a last ∧ next last = none := by
  induction count generalizing a with
  | zero => cases followed
  | succ count ih =>
      rw [follow] at followed
      cases isNext : next a with
      | none =>
          rw [isNext] at followed
          cases followed
          exact ⟨.refl, isNext⟩
      | some b =>
          rw [isNext] at followed
          obtain ⟨reaches, ends⟩ := ih followed
          exact ⟨.head isNext reaches, ends⟩

/-- A chain that was not followed to its end has passed as many different
items. -/
theorem passed_of_follow (noReturn : ∀ a, ¬ Relation.TransGen (Leads next) a a)
    (unfinished : follow next count a = none) :
    ∃ passed : List α,
      passed.length = count ∧ passed.Nodup ∧
        ∀ b ∈ passed,
          Relation.ReflTransGen (Leads next) a b ∧ (next b).isSome = true := by
  induction count generalizing a with
  | zero => exact ⟨[], rfl, .nil, by simp⟩
  | succ count ih =>
      rw [follow] at unfinished
      cases isNext : next a with
      | none =>
          rw [isNext] at unfinished
          cases unfinished
      | some b =>
          rw [isNext] at unfinished
          obtain ⟨passed, length, distinct, reached⟩ :=
            ih unfinished
          refine ⟨a :: passed, by rw [List.length_cons, length], ?_, ?_⟩
          · rw [List.nodup_cons]
            refine ⟨?_, distinct⟩
            intro again
            exact noReturn a (.head' isNext (reached a again).1)
          · intro c member
            rcases List.mem_cons.mp member with rfl | later
            · exact ⟨.refl, by rw [isNext]; rfl⟩
            · obtain ⟨reaches, more⟩ := reached c later
              exact ⟨.head isNext reaches, more⟩

/-- With more steps than there are items with a next one the end is found. -/
theorem follow_returns {items : List α}
    (noReturn : ∀ a, ¬ Relation.TransGen (Leads next) a a)
    (finite : ∀ b, (next b).isSome = true → b ∈ items)
    (enough : items.length < count) (a : α) :
    ∃ last, follow next count a = some last := by
  cases followed : follow next count a with
  | some last => exact ⟨last, rfl⟩
  | none =>
      obtain ⟨passed, length, distinct, reached⟩ :=
        passed_of_follow noReturn followed
      have within : passed ⊆ items :=
        fun b member => finite b (reached b member).2
      have atMost := (distinct.subperm within).length_le
      omega

end Follow

end GxbCore.Chains
