import GxbCore.Chain.ForkItems
import Mathlib.Data.List.Chain

/-!
# What fetch_branch_from returns

Two branches go down from the two blocks asked for, one number at a time, and
end on items with the same predecessor.  Above that they have nothing in
common: a block that both would reach ends the walk right above it.

A branch that starts at the head of a chain of blocks lists the top of that
chain.
-/

namespace GxbCore.Chain

variable {B : Type} {known : Set (Block B)}

abbrev Consecutive (branch : List (ForkItem B)) : Prop :=
  branch.IsChain fun upper lower => lower.id = upper.block.previous

theorem num_succ_of_previous {upper lower : ForkItem B}
    (follows : lower.id = upper.block.previous) :
    upper.num = lower.num + 1 := by
  have numbers := congrArg BlockId.num follows
  simp only [ForkItem.id, Block.id_num] at numbers
  simp only [ForkItem.num, Block.num] at numbers ⊢
  omega

variable {branch : List (ForkItem B)}

theorem Consecutive.num_lt_head {item lower : ForkItem B}
    (consecutive : Consecutive (item :: branch)) (member : lower ∈ branch) :
    lower.num < item.num := by
  induction branch generalizing item with
  | nil => cases member
  | cons next branch ih =>
      have step := num_succ_of_previous consecutive.rel
      rcases List.mem_cons.mp member with same | deeper
      · rw [same]
        omega
      · have below := ih consecutive.tail deeper
        omega

theorem Consecutive.num_le_head {head item : ForkItem B}
    (consecutive : Consecutive branch)
    (isHead : branch.head? = some head) (member : item ∈ branch) :
    item.num ≤ head.num := by
  cases branch with
  | nil => cases member
  | cons first branch =>
      simp only [List.head?_cons, Option.some.injEq] at isHead
      subst isHead
      rcases List.mem_cons.mp member with same | lower
      · rw [same]
      · exact Nat.le_of_lt (consecutive.num_lt_head lower)

/-- A branch from the head of a chain of blocks lists the top of the chain, and
its last item names the block below. -/
theorem Consecutive.top_of_history {item : ForkItem B}
    {history : List (Block B)} (free : CollisionFree known)
    (consecutive : Consecutive (item :: branch))
    (knownItems : ∀ member ∈ item :: branch, member.block ∈ known)
    (linked : Linked history) (knownBlocks : ∀ block ∈ history, block ∈ known)
    (head : item.id = lastId history) :
    ∃ older,
      history = (item :: branch).map ForkItem.block ++ older ∧
      ∀ last ∈ (item :: branch).getLast?,
        last.block.previous = lastId older := by
  induction branch generalizing item history with
  | nil =>
      cases history with
      | nil => exact absurd head item.block.id_ne_zero
      | cons block older =>
          have same : item.block = block :=
            free item.block (knownItems item List.mem_cons_self) block
              (knownBlocks block List.mem_cons_self) head
          refine ⟨older, by simp [same], ?_⟩
          intro last isLast
          simp only [List.getLast?_singleton, Option.mem_def,
            Option.some.injEq] at isLast
          rw [← isLast, same]
          exact linked.1
  | cons next branch ih =>
      cases history with
      | nil => exact absurd head item.block.id_ne_zero
      | cons block older =>
          have same : item.block = block :=
            free item.block (knownItems item List.mem_cons_self) block
              (knownBlocks block List.mem_cons_self) head
          have nextHead : next.id = lastId older := by
            rw [consecutive.rel, same]
            exact linked.1
          obtain ⟨rest, shape, ends⟩ :=
            ih consecutive.tail
              (fun member inside =>
                knownItems member (List.mem_cons_of_mem item inside))
              linked.2
              (fun member inside =>
                knownBlocks member (List.mem_cons_of_mem block inside))
              nextHead
          refine ⟨rest, ?_, ?_⟩
          · rw [shape, ← same]
            rfl
          · simpa using ends

namespace ForkDatabase

variable {fork : ForkDatabase B} {pool : List (ForkItem B)} {next : Nat}

theorem consecutive_cons {item parent : ForkItem B} {branch : List (ForkItem B)}
    (chain : Consecutive branch) (head : branch.head? = some parent)
    (follows : parent.id = item.block.previous) :
    Consecutive (item :: branch) := by
  refine chain.cons ?_
  intro lower isLower
  rw [head, Option.mem_some] at isLower
  exact isLower ▸ follows

theorem descend_spec {level fuel : Nat} {item last : ForkItem B}
    {passed : List (ForkItem B)} (ok : ItemsOk known next pool)
    (inside : fork.items ⊆ pool) (member : item ∈ pool)
    (found : fork.descend level fuel item = some (passed, last)) :
    Consecutive (passed ++ [last]) ∧
      (passed ++ [last]).head? = some item ∧
      passed ++ [last] ⊆ pool ∧
      (∀ upper ∈ passed, level < upper.num) ∧
      last.num ≤ level ∧
      (level ≤ item.num → last.num = level) := by
  fun_induction fork.descend level fuel item generalizing passed last with
  | case1 => cases found
  | case2 => cases found
  | case3 => cases found
  | case4 fuel item above parent locked lower lowest rest ih =>
      obtain ⟨rfl, rfl⟩ := Prod.mk.inj (Option.some.inj found)
      obtain ⟨parentMember, follows⟩ :=
        parent_of_lock ok (by simpa using inside) member locked
      have step := num_succ_of_previous follows
      obtain ⟨chain, head, subset, aboveLevel, lowEnough, exact⟩ :=
        ih parentMember rest
      refine ⟨consecutive_cons chain head follows, rfl,
        List.cons_subset.mpr ⟨member, subset⟩,
        List.forall_mem_cons.mpr ⟨above, aboveLevel⟩, lowEnough, ?_⟩
      intro _
      exact exact (by omega)
  | case5 fuel item notAbove =>
      obtain ⟨rfl, rfl⟩ := Prod.mk.inj (Option.some.inj found)
      refine ⟨List.isChain_singleton _, rfl, ?_, ?_, ?_, ?_⟩
      · simpa using member
      · simp
      · omega
      · intro atLeast
        omega

/-- Two branches with a common predecessor below them and nothing in common
above it. -/
structure BranchesOk (pool first second : List (ForkItem B)) :
    Prop where
  firstChain : Consecutive first
  secondChain : Consecutive second
  firstIn : first ⊆ pool
  secondIn : second ⊆ pool
  meets :
    ∃ firstLast secondLast, first.getLast? = some firstLast ∧
      second.getLast? = some secondLast ∧
      firstLast.block.previous = secondLast.block.previous
  apart :
    ∀ left ∈ first, ∀ right ∈ second, left.num = right.num →
      (∀ last ∈ second.getLast?, last.num < right.num) →
      left.block.previous ≠ right.block.previous

variable {first second : List (ForkItem B)}

/-- One block more on both sides, of the same number and with different
predecessors. -/
theorem BranchesOk.push {left right : ForkItem B}
    (branches : BranchesOk pool first second) (leftMember : left ∈ pool)
    (rightMember : right ∈ pool) (firstChain : Consecutive (left :: first))
    (secondChain : Consecutive (right :: second))
    (sameNum : left.num = right.num)
    (differ : left.block.previous ≠ right.block.previous) :
    BranchesOk pool (left :: first) (right :: second) := by
  obtain ⟨firstLast, secondLast, firstEnds, secondEnds, same⟩ :=
    branches.meets
  have secondLastEq : (right :: second).getLast? = some secondLast := by
    simp [List.getLast?_cons, secondEnds]
  refine
    { firstChain := firstChain
      secondChain := secondChain
      firstIn := List.cons_subset.mpr ⟨leftMember, branches.firstIn⟩
      secondIn := List.cons_subset.mpr ⟨rightMember, branches.secondIn⟩
      meets :=
        ⟨firstLast, secondLast, by simp [List.getLast?_cons, firstEnds],
          secondLastEq, same⟩
      apart := ?_ }
  intro leftItem isLeft rightItem isRight sameLevel above
  rcases List.mem_cons.mp isLeft with leftTop | leftLower
  · rcases List.mem_cons.mp isRight with rightTop | rightLower
    · rw [leftTop, rightTop]
      exact differ
    · have below := secondChain.num_lt_head rightLower
      rw [leftTop] at sameLevel
      omega
  · rcases List.mem_cons.mp isRight with rightTop | rightLower
    · have below := firstChain.num_lt_head leftLower
      rw [rightTop] at sameLevel
      omega
    · refine branches.apart leftItem leftLower rightItem rightLower
        sameLevel ?_
      intro last isLast
      rw [secondEnds, Option.mem_some] at isLast
      exact above last (by rw [secondLastEq, isLast]; rfl)

theorem meet_spec {fuel : Nat} {left right : ForkItem B}
    (ok : ItemsOk known next pool) (inside : fork.items ⊆ pool)
    (leftMember : left ∈ pool) (rightMember : right ∈ pool)
    (sameNum : left.num = right.num)
    (found : fork.meet fuel left right = some (first, second)) :
    BranchesOk pool first second ∧ first.head? = some left ∧
      second.head? = some right := by
  fun_induction fork.meet fuel left right generalizing first second with
  | case1 => cases found
  | case2 => cases found
  | case3 fuel left right differ leftParent rightParent rightLocked
      leftLocked lowerFirst lowerSecond rest ih =>
      obtain ⟨rfl, rfl⟩ := Prod.mk.inj (Option.some.inj found)
      obtain ⟨leftParentMember, leftFollows⟩ :=
        parent_of_lock ok (by simpa using inside) leftMember leftLocked
      obtain ⟨rightParentMember, rightFollows⟩ :=
        parent_of_lock ok (by simpa using inside) rightMember rightLocked
      have leftStep := num_succ_of_previous leftFollows
      have rightStep := num_succ_of_previous rightFollows
      obtain ⟨branches, firstHead, secondHead⟩ :=
        ih leftParentMember rightParentMember (by omega) rest
      have pushed :=
        branches.push leftMember rightMember
          (consecutive_cons branches.firstChain firstHead leftFollows)
          (consecutive_cons branches.secondChain secondHead rightFollows)
          sameNum differ
      exact ⟨pushed, rfl, rfl⟩
  | case4 => cases found
  | case5 fuel left right same =>
      obtain ⟨rfl, rfl⟩ := Prod.mk.inj (Option.some.inj found)
      refine
        ⟨{ firstChain := List.isChain_singleton _
           secondChain := List.isChain_singleton _
           firstIn := by simpa using leftMember
           secondIn := by simpa using rightMember
           meets := ⟨left, right, rfl, rfl, not_not.mp same⟩
           apart := ?_ }, rfl, rfl⟩
      intro other _ last isLast _ above
      rw [List.mem_singleton] at isLast
      have impossible := above right rfl
      rw [isLast] at impossible
      exact absurd impossible (Nat.lt_irrefl _)

theorem joined {passed branch : List (ForkItem B)} {last : ForkItem B}
    (passedChain : Consecutive (passed ++ [last]))
    (branchChain : Consecutive branch) (head : branch.head? = some last) :
    Consecutive (passed ++ branch) ∧
      (passed ++ branch).head? = (passed ++ [last]).head? := by
  obtain ⟨tail, rfl⟩ : ∃ tail, branch = last :: tail := by
    cases branch with
    | nil => cases head
    | cons first tail =>
        simp only [List.head?_cons, Option.some.injEq] at head
        exact ⟨tail, by rw [head]⟩
  refine ⟨List.isChain_split.mpr ⟨passedChain, branchChain⟩, ?_⟩
  cases passed with
  | nil => rfl
  | cons first passed => rfl

/-- `fetch_branch_from` -/
theorem fetchBranchFrom_spec {firstId secondId : BlockId}
    (ok : ItemsOk known next pool) (inside : fork.items ⊆ pool)
    (found : fork.fetchBranchFrom firstId secondId = some (first, second)) :
    BranchesOk pool first second ∧
      (∃ item ∈ fork.index, first.head? = some item ∧
        item.id = firstId) ∧
      (∃ item ∈ fork.index, second.head? = some item ∧
        item.id = secondId) := by
  unfold fetchBranchFrom at found
  split at found
  · rename_i firstItem secondItem firstFound secondFound
    obtain ⟨firstIn, firstIs⟩ := find_eq_some firstFound
    obtain ⟨secondIn, secondIs⟩ := find_eq_some secondFound
    split at found
    · cases found
    · rename_i firstPassed firstLast firstDescends
      split at found
      · cases found
      · rename_i secondPassed secondLast secondDescends
        split at found
        · cases found
        · rename_i firstBranch secondBranch met
          obtain ⟨rfl, rfl⟩ := Prod.mk.inj (Option.some.inj found)
          obtain ⟨firstChain, firstHead, firstSubset, firstAbove,
            firstLow, _⟩ :=
            descend_spec ok inside
              (inside (mem_items.mpr (Or.inr firstIn))) firstDescends
          obtain ⟨secondChain, secondHead, secondSubset, secondAbove,
            _, secondExact⟩ :=
            descend_spec ok inside
              (inside (mem_items.mpr (Or.inr secondIn))) secondDescends
          have sameNum : firstLast.num = secondLast.num :=
            (secondExact firstLow).symm
          obtain ⟨branches, firstBranchHead, secondBranchHead⟩ :=
            meet_spec ok inside (firstSubset (by simp))
              (secondSubset (by simp)) sameNum met
          obtain ⟨firstEnd, secondEnd, firstEnds, secondEnds, same⟩ :=
            branches.meets
          have firstEndsWhole :
              (firstPassed ++ firstBranch).getLast? = some firstEnd := by
            simp [List.getLast?_append, firstEnds]
          have secondEndsWhole :
              (secondPassed ++ secondBranch).getLast? =
                some secondEnd := by
            simp [List.getLast?_append, secondEnds]
          obtain ⟨firstWhole, firstTop⟩ :=
            joined firstChain branches.firstChain firstBranchHead
          obtain ⟨secondWhole, secondTop⟩ :=
            joined secondChain branches.secondChain secondBranchHead
          rw [firstHead] at firstTop
          rw [secondHead] at secondTop
          refine
            ⟨{ firstChain := firstWhole
               secondChain := secondWhole
               firstIn := List.append_subset.mpr
                ⟨(List.append_subset.mp firstSubset).1,
                  branches.firstIn⟩
               secondIn := List.append_subset.mpr
                ⟨(List.append_subset.mp secondSubset).1,
                  branches.secondIn⟩
               meets :=
                ⟨firstEnd, secondEnd, firstEndsWhole, secondEndsWhole,
                  same⟩
               apart := ?_ },
              ⟨firstItem, firstIn, firstTop, firstIs⟩,
              ⟨secondItem, secondIn, secondTop, secondIs⟩⟩
          -- below the items passed by one side the other has none
          intro left isLeft right isRight sameLevel above
          rcases List.mem_append.mp isLeft with leftPassed | leftBranch
          · have high := firstAbove left leftPassed
            have low := secondWhole.num_le_head secondTop isRight
            omega
          · rcases List.mem_append.mp isRight with
              rightPassed | rightBranch
            · have high := secondAbove right rightPassed
              have low :=
                branches.firstChain.num_le_head firstBranchHead leftBranch
              omega
            · refine branches.apart left leftBranch right rightBranch
                sameLevel ?_
              intro last isLast
              rw [secondEnds, Option.mem_some] at isLast
              exact above last (by rw [secondEndsWhole, isLast]; rfl)
  · cases found

end ForkDatabase

end GxbCore.Chain
