import GxbCore.Chain.Runs

/-!
# Irreversible blocks

Nothing in `_push_block` compares the block where two branches meet with the
last irreversible block.  What the fork database and the undo stack still hold
is measured by the last irreversible block *before* the head block was applied,
plus one, so a branch that leaves the main chain below it can still be switched
to.

What does hold: while every branch that gets longer than the main chain leaves
it at the irreversible block or above, the blocks up to it stay.
-/

namespace GxbCore.Chain

variable {B X : Type} {rules : Rules B X} {known : Set (Block B)}

/-- Following the pointers of the fork database from `item` leads to
`block`. -/
inductive Descends (fork : ForkDatabase B) (block : Block B) :
    ForkItem B → Prop
  | here {item : ForkItem B} (same : item.block = block) :
      Descends fork block item
  | step {item parent : ForkItem B}
      (locked : fork.lock [] item = some parent)
      (rest : Descends fork block parent) : Descends fork block item

/-- If the push makes a branch longer than the main chain, that branch comes
from the block of the main chain numbered `irreversible`, which is not the
head. -/
def ForksAbove (irreversible : Nat) (db : ChainDatabase B X)
    (newBlock : Block B) : Prop :=
  ∀ fork newHead, Attempts db newBlock fork newHead →
    irreversible = 0 ∨
    (irreversible < db.headBlockNum ∧
      ∃ block ∈ db.state.history, block.num = irreversible ∧
        Descends fork block newHead)

section Meeting

variable {fork : ForkDatabase B} {pool : List (ForkItem B)} {next : Nat}
  {block : Block B}

theorem Descends.num_le {item : ForkItem B}
    (ok : ItemsOk known next pool) (inside : fork.items ⊆ pool)
    (member : item ∈ pool) (descends : Descends fork block item) :
    block.num ≤ item.num ∧
      (item.num = block.num → item.block = block) := by
  induction descends with
  | here same =>
      subst same
      exact ⟨Nat.le_refl _, fun _ => rfl⟩
  | step locked _ ih =>
      obtain ⟨parentMember, follows⟩ :=
        ForkDatabase.parent_of_lock ok (by simpa using inside) member
          locked
      have step := num_succ_of_previous follows
      have below := (ih parentMember).1
      refine ⟨by omega, ?_⟩
      intro same
      omega

/-- Every branch that starts at the same block passes the block just above
`block`. -/
theorem Descends.previous_eq {start item : ForkItem B}
    {branch : List (ForkItem B)} {upper : ForkItem B}
    (free : CollisionFree known) (ok : ItemsOk known next pool)
    (inside : fork.items ⊆ pool) (member : start ∈ pool)
    (descends : Descends fork block start)
    (sameBlock : item.block = start.block)
    (consecutive : Consecutive (item :: branch)) (branchInside : branch ⊆ pool)
    (isUpper : upper ∈ item :: branch) (above : upper.num = block.num + 1) :
    upper.block.previous = block.id := by
  induction descends generalizing item branch with
  | here same =>
      have low : upper.num ≤ item.num :=
        consecutive.num_le_head rfl isUpper
      have itemNum : item.num = block.num := by
        rw [ForkItem.num, sameBlock, same]
      omega
  | @step start parent locked rest ih =>
      obtain ⟨parentMember, follows⟩ :=
        ForkDatabase.parent_of_lock ok (by simpa using inside) member
          locked
      rcases List.mem_cons.mp isUpper with isItem | deeper
      · -- the item itself: its predecessor is at the level of `block`
        subst isItem
        have parentStep := num_succ_of_previous follows
        have startNum : start.num = block.num + 1 := by
          rw [← above, ForkItem.num, ForkItem.num, sameBlock]
        have parentIs :=
          (rest.num_le ok inside parentMember).2 (by omega)
        rw [sameBlock, ← follows, ForkItem.id, parentIs]
      · cases branch with
        | nil => cases deeper
        | cons second branch =>
            have secondFollows := consecutive.rel
            have secondMember := branchInside List.mem_cons_self
            have sameParent : second.block = parent.block := by
              refine free _ (ok.known second secondMember) _
                (ok.known parent parentMember) ?_
              rw [sameBlock, ← follows] at secondFollows
              exact secondFollows
            exact ih parentMember sameParent
              consecutive.tail
              (fun other inBranch =>
                branchInside (List.mem_cons_of_mem second inBranch))
              deeper

/-- A branch has an item at every level between its ends. -/
theorem Consecutive.exists_num {branch : List (ForkItem B)}
    {head last : ForkItem B} {num : Nat} (consecutive : Consecutive branch)
    (isHead : branch.head? = some head) (isLast : branch.getLast? = some last)
    (low : last.num ≤ num) (high : num ≤ head.num) :
    ∃ item ∈ branch, item.num = num := by
  induction branch generalizing head with
  | nil => cases isHead
  | cons first branch ih =>
      simp only [List.head?_cons, Option.some.injEq] at isHead
      subst isHead
      by_cases top : num = first.num
      · exact ⟨first, List.mem_cons_self, top.symm⟩
      · cases branch with
        | nil =>
            simp only [List.getLast?_singleton, Option.some.injEq]
              at isLast
            subst isLast
            omega
        | cons second branch =>
            have step := num_succ_of_previous consecutive.rel
            obtain ⟨item, member, same⟩ :=
              ih consecutive.tail rfl
                (by simpa using isLast) (by omega)
            exact ⟨item, List.mem_cons_of_mem first member, same⟩

end Meeting

variable {db : ChainDatabase B X} {newHead : ForkItem B}
  {first second : List (ForkItem B)} {block : Block B}

/-- If the new branch comes from a block of the main chain below the head, the
branches of the switch meet at that block or above. -/
theorem meets_above (free : CollisionFree known)
    (ok : DatabaseOk known rules db) (isHead : db.forkDb.head = some newHead)
    (higher : db.headBlockNum < newHead.num)
    (found :
      db.forkDb.fetchBranchFrom newHead.id db.headBlockId =
        some (first, second))
    (isMain : block ∈ db.state.history)
    (belowHead : block.num < db.headBlockNum)
    (descends : Descends db.forkDb block newHead) :
    block.num ≤ (belowSwitch newHead db).length := by
  obtain ⟨branches, ⟨firstItem, firstIn, firstHead, firstIs⟩,
      secondItem, secondIn, secondHead, secondIs⟩ :=
    ForkDatabase.fetchBranchFrom_spec ok.items (List.Subset.refl _) found
  obtain ⟨older, shape, switchOk⟩ :=
    switch_branches newHead.block free ok isHead found
  have current := ok.objects.current
  have linked : Linked (second.map ForkItem.block ++ older) :=
    shape ▸ current.linked
  have headNum : db.headBlockNum = second.length + older.length := by
    rw [ok.objects.headBlockNum_eq, shape, List.length_append,
      List.length_map]
  rw [belowSwitch_of_some found shape]
  by_contra tooLow
  -- the level just above `block` is on both branches, above their ends
  obtain ⟨upperBlock, upperMain, upperNum⟩ :=
    current.linked.exists_num (Nat.succ_pos block.num)
      (by
        rw [ok.objects.headBlockNum_eq] at belowHead
        exact belowHead)
  have upperInSecond : upperBlock ∈ second.map ForkItem.block := by
    have inHistory : upperBlock ∈ db.state.history := upperMain
    rw [shape] at inHistory
    rcases List.mem_append.mp inHistory with inSecond | inOlder
    · exact inSecond
    · have bound := linked.of_append.num_le inOlder
      omega
  obtain ⟨right, rightIn, rightBlock⟩ := List.mem_map.mp upperInSecond
  have rightNum : right.num = block.num + 1 := by
    rw [ForkItem.num, rightBlock]
    exact upperNum
  obtain ⟨firstLast, secondLast, firstEnds, secondEnds, samePrevious⟩ :=
    branches.meets
  have lastNum : secondLast.num = older.length + 1 := by
    have target := switchOk.target
    simp only [Switch.target, secondEnds] at target
    rw [ForkItem.num, Block.num, target, linked.of_append.lastId_num]
  have firstLastNum : firstLast.num = secondLast.num := by
    simp only [ForkItem.num, Block.num, samePrevious]
  obtain ⟨left, leftIn, leftNum⟩ :=
    branches.firstChain.exists_num firstHead firstEnds
      (by omega : firstLast.num ≤ block.num + 1)
      (by
        have top : firstItem.num = newHead.num :=
          congrArg BlockId.num firstIs
        omega)
  refine branches.apart left leftIn right rightIn
    (leftNum.trans rightNum.symm) ?_ ?_
  · intro last isLast
    rw [secondEnds, Option.mem_some] at isLast
    rw [← isLast, rightNum]
    omega
  · obtain ⟨tail, rfl⟩ : ∃ tail, first = firstItem :: tail := by
      cases first with
      | nil => cases firstHead
      | cons head tail =>
          simp only [List.head?_cons, Option.some.injEq] at firstHead
          exact ⟨tail, by rw [firstHead]⟩
    have newHeadIn : newHead ∈ db.forkDb.items :=
      ForkDatabase.mem_items.mpr (Or.inl isHead)
    have sameBlock : firstItem.block = newHead.block :=
      free _
        (ok.items.known firstItem (branches.firstIn List.mem_cons_self))
        _ (ok.items.known newHead newHeadIn) firstIs
    have leftPrevious : left.block.previous = block.id :=
      descends.previous_eq free ok.items (List.Subset.refl _) newHeadIn
        sameBlock branches.firstChain
        (fun item member =>
          branches.firstIn (List.mem_cons_of_mem firstItem member))
        leftIn leftNum
    have rightPrevious : right.block.previous = block.id := by
      rw [rightBlock]
      exact current.linked.previous_eq upperMain isMain upperNum
    rw [leftPrevious, rightPrevious]

variable {bottom : List (Block B)}

/-- One push: blocks at the bottom of the main chain stay when the branches
that overtake it leave it above them. -/
theorem pushBlock_keeps_bottom {newBlock : Block B} (free : CollisionFree known)
    (skipForkDb : Bool) (ok : DatabaseOk known rules db)
    (isKnown : newBlock ∈ known) (above : ForksAbove bottom.length db newBlock)
    (isBottom : bottom <:+ db.state.history) :
    bottom <:+ (pushBlock rules skipForkDb newBlock db).state.state.history := by
  have course := pushBlock_cases rules skipForkDb newBlock db
  generalize pushBlock rules skipForkDb newBlock db = outcome at course ⊢
  cases course with
  | skipped isSkipped =>
      exact isBottom.trans (pushLinear_keeps ok isKnown).above
  | refused fault left refuses => exact isBottom
  | kept fork newHead pushed head elsewhere notHigher => exact isBottom
  | linear fork newHead pushed head builds =>
      have okPushed := ok.push isKnown pushed
      exact isBottom.trans (pushLinear_keeps okPushed isKnown).above
  | switched fork newHead _ attempts =>
      have okPushed := ok.push isKnown attempts.pushed
      have kept :=
        (switchForks_keeps newBlock free okPushed attempts.head).above
      refine List.IsSuffix.trans ?_ kept
      cases found :
          fork.fetchBranchFrom newHead.id db.headBlockId with
      | none =>
          have all :
              belowSwitch newHead { db with forkDb := fork } =
                db.state.history :=
            belowSwitch_of_none found
          rw [all]
          exact isBottom
      | some branches =>
          obtain ⟨first, second⟩ := branches
          obtain ⟨older, shape, _⟩ :=
            switch_branches newBlock free okPushed attempts.head found
          have lengths : bottom.length ≤ older.length := by
            rcases above fork newHead attempts with
              zero | ⟨belowHead, block, isMain, number, descends⟩
            · omega
            · have meets :=
                meets_above free okPushed attempts.head attempts.higher
                  found isMain (by rw [number]; exact belowHead) descends
              rw [belowSwitch_of_some found shape, number] at meets
              exact meets
          rw [belowSwitch_of_some found shape]
          refine List.suffix_of_suffix_length_le isBottom ?_ lengths
          have whole : db.state.history = _ := shape
          rw [whole]
          exact List.suffix_append _ _

theorem Run.keeps_bottom
    {start : ChainDatabase B X} (free : CollisionFree known)
    (run : Run rules known (fun db _ => ForksAbove bottom.length db) start db)
    (ok : DatabaseOk known rules start)
    (isBottom : bottom <:+ start.state.history) :
    bottom <:+ db.state.history := by
  induction run with
  | refl => exact isBottom
  | push skipForkDb block earlier isKnown above ih =>
      exact pushBlock_keeps_bottom free skipForkDb
        (earlier.databaseOk free ok) isKnown above ih
  | pending count _ ih => exact ih

theorem mainBlock_of_bottom
    {state : ChainState B X} {num : Nat} (linked : Linked state.history)
    (isBottom : bottom <:+ state.history) (low : num ≤ bottom.length) :
    mainBlock state num =
      bottom.find? (fun block => decide (block.num = num)) := by
  obtain ⟨newer, shape⟩ := isBottom
  rw [← shape] at linked
  rw [mainBlock, ← shape]
  exact linked.find_num_append low

end GxbCore.Chain
