import GxbCore.Chain.Runs

/-!
# Nodes with the same head agree

What every block that applies keeps holds of the state and of every snapshot in
every run, whatever is pushed, popped, switched and restored.  So every state a
node can reach comes from the state it was opened with by blocks, one for each
number, and the id of its head tells which.
-/

namespace GxbCore.Chain

variable {B X : Type} {rules : Rules B X} {known : Set (Block B)}

section Throughout

variable {holds : ChainState B X → Prop} {db : ChainDatabase B X}

def Throughout (holds : ChainState B X → Prop) (db : ChainDatabase B X) :
    Prop :=
  ∀ state ∈ db.state :: db.objects.saved, holds state

theorem Throughout.current (throughout : Throughout holds db) :
    holds db.state :=
  throughout db.state List.mem_cons_self

theorem Throughout.withFork (throughout : Throughout holds db)
    (fork : ForkDatabase B) : Throughout holds { db with forkDb := fork } :=
  throughout

theorem Throughout.subset {after : ChainDatabase B X}
    (throughout : Throughout holds db)
    (fewer :
      after.state :: after.objects.saved ⊆ db.state :: db.objects.saved) :
    Throughout holds after :=
  fun state member => throughout state (fewer member)

theorem Throughout.popBlock (throughout : Throughout holds db)
    (held : List (ForkItem B)) : Throughout holds (popBlock held db).state := by
  rcases popBlock_cases held db with
    ⟨fork, objects, returns, _, restored⟩ | ⟨fault, fork, throws, _⟩
  · rw [returns]
    refine throughout.subset ?_
    cases stack : db.objects.saved with
    | nil => simp [Snapshots.restore_of_nil stack] at restored
    | cons last older =>
        rw [Snapshots.restore_of_cons stack, Option.some.injEq] at restored
        subst restored
        exact List.subset_cons_self _ _
  · rw [throws]
    exact throughout

theorem Throughout.popUntil (throughout : Throughout holds db)
    (held : List (ForkItem B)) (target : BlockId) (fuel : Nat) :
    Throughout holds (popUntil held target fuel db).state := by
  induction fuel generalizing db with
  | zero => exact throughout
  | succ fuel ih =>
      unfold Chain.popUntil
      split
      · exact Outcome.bind_state_keeps (throughout.popBlock held)
          fun _ _ popped => ih popped
      · exact throughout

variable
  (applies : ∀ block before after, holds before →
    applyState rules block before = .ok after → holds after)

include applies

theorem Throughout.applyAndStore (throughout : Throughout holds db)
    (id : BlockId) (block : Block B) :
    Throughout holds (applyAndStore rules id block db).state := by
  rcases applyAndStore_cases rules id block db with
    ⟨after, returns, applied⟩ | ⟨fault, after, throws, refused⟩
  · rw [returns]
    intro state member
    rw [Outcome.state_ok, applied.saved] at member
    rcases List.mem_cons.mp member with rfl | member
    · exact applies block _ _ throughout.current applied.applies
    · exact throughout state
        (List.cons_subset_cons _ (List.take_subset _ _) member)
  · rw [throws]
    refine throughout.subset ?_
    rw [Outcome.state_throw, refused.current, refused.saved]
    exact List.cons_subset_cons _ (List.take_subset _ _)

theorem Throughout.restoreBranch (throughout : Throughout holds db)
    (switch : Switch B) (bad : List (ForkItem B)) (fault : ChainFault) :
    Throughout holds (restoreBranch rules switch bad fault db).state := by
  unfold Chain.restoreBranch
  refine Outcome.bind_state_keeps ?_ ?_
  · exact (throughout.withFork _).popUntil _ _ _
  · intro popped _ throughoutPopped
    refine Outcome.bind_state_keeps ?_ fun _ _ restored => restored
    refine forEach_state_keeps ?_ throughoutPopped
    intro item _ before throughoutBefore
    exact throughoutBefore.applyAndStore applies _ _

theorem Throughout.pushBranch (throughout : Throughout holds db)
    (switch : Switch B) (branch : List (ForkItem B)) :
    Throughout holds (pushBranch rules switch branch db).state := by
  induction branch generalizing db with
  | nil => exact throughout
  | cons item later ih =>
      have stepped := throughout.applyAndStore applies item.id item.block
      unfold Chain.pushBranch
      split
      · rename_i middle returns
        rw [returns] at stepped
        exact ih stepped
      · rename_i fault middle throws
        rw [throws] at stepped
        exact stepped.restoreBranch applies switch _ fault

theorem Throughout.pushLinear (throughout : Throughout holds db)
    (newBlock : Block B) :
    Throughout holds (pushLinear rules newBlock db).state := by
  have stepped := throughout.applyAndStore applies newBlock.id newBlock
  unfold Chain.pushLinear
  split
  · rename_i after returns
    rw [returns] at stepped
    exact stepped
  · rename_i fault after throws
    rw [throws] at stepped
    exact stepped

theorem Throughout.pushBlock (throughout : Throughout holds db)
    (skipForkDb : Bool) (newBlock : Block B) :
    Throughout holds (pushBlock rules skipForkDb newBlock db).state := by
  have course := pushBlock_cases rules skipForkDb newBlock db
  generalize Chain.pushBlock rules skipForkDb newBlock db = outcome
    at course ⊢
  cases course with
  | skipped isSkipped => exact throughout.pushLinear applies newBlock
  | refused fault left refuses => exact throughout
  | kept fork newHead pushed head elsewhere notHigher => exact throughout
  | linear fork newHead pushed head builds =>
      exact (throughout.withFork fork).pushLinear applies newBlock
  | switched fork newHead _ attempts =>
      unfold switchForks
      split
      · exact throughout
      · refine Outcome.bind_state_keeps ?_ ?_
        · exact (throughout.withFork fork).popUntil _ _ _
        · intro popped _ throughoutPopped
          exact throughoutPopped.pushBranch applies _ _

theorem Run.throughout {guard : ChainDatabase B X → Bool → Block B → Prop}
    {start : ChainDatabase B X} (run : Run rules known guard start db)
    (throughout : Throughout holds start) : Throughout holds db := by
  induction run with
  | refl => exact throughout
  | push skipForkDb block _ _ _ ih =>
      exact ih.pushBlock applies skipForkDb block
  | pending count _ ih =>
      exact ih.subset
        (List.cons_subset_cons _ (List.take_subset _ _))

end Throughout

section Grown

/-- The states that blocks make of `start`. -/
inductive Grown (rules : Rules B X) (start : ChainState B X) :
    ChainState B X → Prop
  | refl : Grown rules start start
  | block {before after : ChainState B X} (block : Block B)
      (grown : Grown rules start before)
      (applies : applyState rules block before = .ok after) :
      Grown rules start after

variable {start first second : ChainState B X}

theorem Grown.num_le (grown : Grown rules start first) :
    start.headBlockId.num ≤ first.headBlockId.num := by
  induction grown with
  | refl => exact Nat.le_refl _
  | block block _ applies ih =>
      have extended := applyState_extends applies
      rw [extended.headId, Block.id_num, Block.num, extended.previous]
      exact Nat.le_succ_of_le ih

theorem Grown.ne_start {block : Block B} (grown : Grown rules start first)
    (applies : applyState rules block first = .ok second) :
    second.headBlockId ≠ start.headBlockId := by
  intro same
  have extended := applyState_extends applies
  have below := grown.num_le
  rw [← same, extended.headId, Block.id_num, Block.num, extended.previous]
    at below
  exact Nat.not_succ_le_self _ below

theorem Grown.unique (free : CollisionFree known)
    (grown : Grown rules start first) (other : Grown rules start second)
    (inFirst : ∀ block ∈ first.history, block ∈ known)
    (inSecond : ∀ block ∈ second.history, block ∈ known)
    (same : first.headBlockId = second.headBlockId) : first = second := by
  induction grown generalizing second with
  | refl =>
      cases other with
      | refl => rfl
      | block block below applies =>
          exact absurd same.symm (below.ne_start applies)
  | @block before after block below applies ih =>
      cases other with
      | refl => exact absurd same (below.ne_start applies)
      | @block otherBefore _ otherBlock otherBelow otherApplies =>
          have extended := applyState_extends applies
          have otherExtended := applyState_extends otherApplies
          rw [extended.history] at inFirst
          rw [otherExtended.history] at inSecond
          have sameBlock : block = otherBlock := by
            refine free block (inFirst _ List.mem_cons_self) otherBlock
              (inSecond _ List.mem_cons_self) ?_
            rw [← extended.headId, same, otherExtended.headId]
          subst sameBlock
          have sameBefore : before = otherBefore := by
            refine ih otherBelow
              (fun b member => inFirst b (List.mem_cons_of_mem _ member))
              (fun b member => inSecond b (List.mem_cons_of_mem _ member)) ?_
            rw [← extended.previous, otherExtended.previous]
          rw [sameBefore, otherApplies] at applies
          exact (Except.ok.inj applies).symm

theorem Run.grown {guard : ChainDatabase B X → Bool → Block B → Prop}
    {origin db : ChainDatabase B X} (opened : Opened known origin)
    (run : Run rules known guard origin db) :
    Grown rules origin.state db.state := by
  have begins : Throughout (Grown rules origin.state) origin := by
    intro state member
    rw [opened.saved, List.mem_singleton] at member
    exact member ▸ .refl
  exact (run.throughout (fun block _ _ => .block block) begins).current

end Grown

end GxbCore.Chain
