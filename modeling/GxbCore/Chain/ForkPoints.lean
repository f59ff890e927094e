import GxbCore.Chain.Branches

/-!
# The fork point of two blocks

`fetch_branch_from` follows weak pointers, so it comes to the fork point of two
blocks when the items on the way are still held.  Whatever was called on the
fork database, the items that anybody may hold are of one pool, in which a
pointer leads to the predecessor or nowhere.
-/

namespace GxbCore.Chain

variable {B : Type} {known : Set (Block B)}

namespace ForkDatabase

def reset (fork : ForkDatabase B) : ForkDatabase B :=
  { fork with index := [], head := none }

/-- A call that returns; `pool` are the items that callers may hold, and the
blocks are known ones. -/
inductive Call (known : Set (Block B)) (pool : List (ForkItem B)) :
    ForkDatabase B → ForkDatabase B → Prop
  | reset {fork : ForkDatabase B} : Call known pool fork fork.reset
  | startBlock {fork : ForkDatabase B} {block : Block B}
      (isKnown : block ∈ known) (isNew : fork.find block.id = none) :
      Call known pool fork (fork.startBlock block)
  | pushBlock {fork pushed : ForkDatabase B} {block : Block B}
      (isKnown : block ∈ known) (returns : fork.pushBlock block = .ok pushed) :
      Call known pool fork pushed
  | popBlock {fork popped : ForkDatabase B} {held : List (ForkItem B)}
      (areHeld : held ⊆ pool) (returns : fork.popBlock held = .ok popped) :
      Call known pool fork popped
  | setHead {fork : ForkDatabase B} {item : Option (ForkItem B)}
      (isHeld : ∀ head, item = some head → head ∈ pool) :
      Call known pool fork (fork.setHead item)
  | remove {fork : ForkDatabase B} {held : List (ForkItem B)} (id : BlockId)
      (areHeld : held ⊆ pool) :
      Call known pool fork (fork.remove held id)
  | setMaxSize {fork : ForkDatabase B} (size : Nat) :
      Call known pool fork (fork.setMaxSize size)

/-- The states that calls lead to, each with all items there ever were. -/
inductive Reachable (known : Set (Block B)) :
    ForkDatabase B → List (ForkItem B) → Prop
  | empty : Reachable known empty []
  | call {fork after : ForkDatabase B} {pool : List (ForkItem B)}
      (reachable : Reachable known fork pool)
      (call : Call known pool fork after) :
      Reachable known after (after.items ++ pool)

structure PoolOk (known : Set (Block B)) (fork : ForkDatabase B)
    (pool : List (ForkItem B)) : Prop where
  itemsOk : ItemsOk known fork.nextAddress pool
  inside : fork.items ⊆ pool

section Calls

variable {fork after : ForkDatabase B} {pool : List (ForkItem B)}

/-- A call that lets items go, or makes a held one the head. -/
theorem PoolOk.of_subset (ok : PoolOk known fork pool)
    (inside : after.items ⊆ pool)
    (sameAddress : after.nextAddress = fork.nextAddress) :
    PoolOk known after (after.items ++ pool) where
  itemsOk := by
    rw [sameAddress]
    exact ok.itemsOk.subset
      (List.append_subset.mpr ⟨inside, List.Subset.refl _⟩)
  inside := List.subset_append_left _ _

theorem PoolOk.of_new {prev : Option Nat} {block : Block B}
    (ok : PoolOk known fork pool) (isKnown : block ∈ known)
    (points :
      ∀ address, prev = some address →
        ∃ parent ∈ pool, parent.address = address ∧
          parent.id = block.previous)
    (inside : after.items ⊆ ⟨fork.nextAddress, prev, block⟩ :: fork.items)
    (next : after.nextAddress = fork.nextAddress + 1) :
    PoolOk known after (after.items ++ pool) where
  itemsOk := by
    rw [next]
    refine (ok.itemsOk.cons isKnown points).subset
      (List.append_subset.mpr ⟨?_, List.subset_cons_self _ _⟩)
    exact List.Subset.trans inside (List.cons_subset_cons _ ok.inside)
  inside := List.subset_append_left _ _

theorem Call.keeps (ok : PoolOk known fork pool)
    (call : Call known pool fork after) :
    PoolOk known after (after.items ++ pool) := by
  cases call with
  | reset => exact ok.of_subset (List.nil_subset pool) rfl
  | @startBlock block isKnown isNew =>
      have isFirst :
          (fork.startBlock block).items ⊆
            ⟨fork.nextAddress, none, block⟩ :: fork.items := by
        intro item member
        rcases mem_items.mp member with isHead | inIndex
        · exact List.mem_cons.mpr (.inl (Option.some.inj isHead).symm)
        · rcases List.mem_cons.mp inIndex with same | older
          · exact List.mem_cons.mpr (.inl same)
          · exact List.mem_cons_of_mem _ (mem_items.mpr (.inr older))
      exact ok.of_new isKnown (by simp) isFirst rfl
  | @pushBlock pushed block isKnown returns =>
      obtain ⟨prev, rfl, _, points⟩ := pushBlock_inserted returns
      obtain ⟨subset, next⟩ :=
        insertItem_items fork ⟨fork.nextAddress, prev, block⟩
      refine ok.of_new isKnown ?_ subset next
      intro address pointer
      obtain ⟨parent, inIndex, rest⟩ := points address pointer
      exact ⟨parent, ok.inside (mem_items.mpr (.inr inIndex)), rest⟩
  | @popBlock popped held areHeld returns =>
      refine ok.of_subset ?_ ?_
      · exact List.Subset.trans (popBlock_items_subset returns)
          (List.append_subset.mpr ⟨ok.inside, areHeld⟩)
      · obtain ⟨_, _, _, _, rfl⟩ := popBlock_eq_ok returns
        rfl
  | @setHead item isHeld =>
      refine ok.of_subset ?_ rfl
      intro other member
      rcases mem_items.mp member with isHead | inIndex
      · exact isHeld other isHead
      · exact ok.inside (mem_items.mpr (.inr inIndex))
  | @remove held id areHeld =>
      refine ok.of_subset ?_ (remove_nextAddress id)
      exact List.Subset.trans (remove_items_subset id)
        (List.append_subset.mpr ⟨ok.inside, areHeld⟩)
  | setMaxSize size =>
      exact ok.of_subset
        (List.Subset.trans (setMaxSize_items_subset size) ok.inside)
        (setMaxSize_nextAddress size)

theorem Reachable.poolOk (reachable : Reachable known fork pool) :
    PoolOk known fork pool := by
  induction reachable with
  | empty =>
      refine ⟨⟨?_, ?_, ?_, ?_, ?_⟩, ?_⟩ <;> simp [items, ForkDatabase.empty]
  | call _ call ih => exact call.keeps ih

end Calls

inductive Ancestor (fork : ForkDatabase B) : ForkItem B → BlockId → Prop
  | parent {item : ForkItem B} : Ancestor fork item item.block.previous
  | further {item parent : ForkItem B} {id : BlockId}
      (locked : fork.lock [] item = some parent)
      (ancestor : Ancestor fork parent id) : Ancestor fork item id

section Ancestors

variable {fork : ForkDatabase B} {pool : List (ForkItem B)} {next : Nat}
  {item left right : ForkItem B} {id : BlockId}

theorem Ancestor.num_lt (ok : ItemsOk known next pool)
    (inside : fork.items ⊆ pool) (member : item ∈ pool)
    (ancestor : Ancestor fork item id) : id.num < item.num := by
  induction ancestor with
  | parent => exact Nat.lt_succ_self _
  | further locked _ ih =>
      obtain ⟨parentMember, follows⟩ :=
        parent_of_lock ok (by simpa using inside) member locked
      have step := num_succ_of_previous follows
      have below := ih parentMember
      omega

/-- An ancestor below the predecessor is one of the predecessor's item. -/
theorem Ancestor.lower (ancestor : Ancestor fork item id)
    (notParent : id ≠ item.block.previous) :
    ∃ parent, fork.lock [] item = some parent ∧
      Ancestor fork parent id := by
  cases ancestor with
  | parent => exact absurd rfl notParent
  | further locked ancestor => exact ⟨_, locked, ancestor⟩

/-- The walk down to a number above the ancestor comes to its end. -/
theorem descend_returns {level fuel : Nat}
    (ok : ItemsOk known next pool) (inside : fork.items ⊆ pool)
    (member : item ∈ pool) (ancestor : Ancestor fork item id)
    (above : id.num < level) (enough : item.num < fuel) :
    ∃ passed last, fork.descend level fuel item = some (passed, last) ∧
      last ∈ pool := by
  induction fuel generalizing item with
  | zero => exact absurd enough (Nat.not_lt_zero _)
  | succ fuel ih =>
      by_cases higher : level < item.num
      · have notParent : id ≠ item.block.previous := by
          intro same
          rw [same] at above
          have isNum : item.num = item.block.previous.num + 1 := rfl
          omega
        obtain ⟨parent, locked, further⟩ := ancestor.lower notParent
        obtain ⟨parentMember, follows⟩ :=
          parent_of_lock ok (by simpa using inside) member locked
        have step := num_succ_of_previous follows
        obtain ⟨passed, last, descends, lastMember⟩ :=
          ih parentMember further (by omega)
        exact ⟨item :: passed, last, by
          rw [descend, if_pos higher, locked]
          simp only [descends], lastMember⟩
      · exact ⟨[], item, by rw [descend, if_neg higher], member⟩

variable {last : ForkItem B} {passed : List (ForkItem B)} {fuel : Nat}
  {first second : List (ForkItem B)}

theorem descend_keeps_ancestor {level fuel : Nat}
    (ancestor : Ancestor fork item id) (above : id.num < level)
    (descends : fork.descend level fuel item = some (passed, last)) :
    Ancestor fork last id := by
  induction fuel generalizing item passed with
  | zero => cases descends
  | succ fuel ih =>
      rw [descend] at descends
      split at descends
      · next higher =>
          have notParent : id ≠ item.block.previous := by
            intro same
            rw [same] at above
            have isNum : item.num = item.block.previous.num + 1 := rfl
            omega
          obtain ⟨parent, locked, further⟩ := ancestor.lower notParent
          rw [locked] at descends
          split at descends
          · next none => cases none
          · next other isParent =>
              cases isParent
              split at descends
              · cases descends
              · next lower lowest goes =>
                  cases descends
                  exact ih further goes
      · cases descends
        exact ancestor

theorem ancestor_of_descend {level fuel : Nat}
    (descends : fork.descend level fuel item = some (passed, last))
    (ancestor : Ancestor fork last id) : Ancestor fork item id := by
  induction fuel generalizing item passed with
  | zero => cases descends
  | succ fuel ih =>
      rw [descend] at descends
      split at descends
      · split at descends
        · cases descends
        · next parent locked =>
            split at descends
            · cases descends
            · next lower lowest goes =>
                cases descends
                exact .further locked (ih goes)
      · cases descends
        exact ancestor

/-- The walk to the number of an ancestor ends in an item of that id. -/
theorem descend_to_ancestor (ok : ItemsOk known next pool)
    (inside : fork.items ⊆ pool) (member : item ∈ pool)
    (ancestor : Ancestor fork item id)
    (descends : fork.descend id.num fuel item = some (passed, last)) :
    last.id = id := by
  induction fuel generalizing item passed with
  | zero => cases descends
  | succ fuel ih =>
      have higher := ancestor.num_lt ok inside member
      rw [descend, if_pos higher] at descends
      split at descends
      · cases descends
      · next parent locked =>
          obtain ⟨parentMember, follows⟩ :=
            parent_of_lock ok (by simpa using inside) member locked
          split at descends
          · cases descends
          · next lower lowest goes =>
              cases descends
              by_cases isParent : id = item.block.previous
              · cases fuel with
                | zero => cases goes
                | succ fuel =>
                    have level : ¬ id.num < parent.num := by
                      have same := congrArg BlockId.num (follows.trans
                        isParent.symm)
                      have isNum : parent.id.num = parent.num := rfl
                      omega
                    rw [descend, if_neg level] at goes
                    cases goes
                    rw [follows, isParent]
              · obtain ⟨other, lockedToo, further⟩ := ancestor.lower isParent
                rw [locked] at lockedToo
                cases lockedToo
                exact ih parentMember further goes

/-- Of two items of one height with different predecessors no predecessor is
an ancestor of both. -/
theorem Ancestor.ne_previous (ok : ItemsOk known next pool)
    (inside : fork.items ⊆ pool) (rightMember : right ∈ pool)
    (sameNum : left.num = right.num)
    (differ : left.block.previous ≠ right.block.previous)
    (ofRight : Ancestor fork right id) : id ≠ left.block.previous := by
  intro isParent
  have notParent : id ≠ right.block.previous := by
    rw [isParent]
    exact differ
  obtain ⟨parent, locked, further⟩ := ofRight.lower notParent
  obtain ⟨parentMember, follows⟩ :=
    parent_of_lock ok (by simpa using inside) rightMember locked
  have step := num_succ_of_previous follows
  have below := further.num_lt ok inside parentMember
  have isNum : left.num = left.block.previous.num + 1 := rfl
  rw [isParent] at below
  omega

/-- The predecessors of two items of one height, when they differ and there is
a common ancestor below. -/
structure Lower (fork : ForkDatabase B) (pool : List (ForkItem B))
    (id : BlockId) (left right leftParent rightParent : ForkItem B) :
    Prop where
  leftLocked : fork.lock [] left = some leftParent
  rightLocked : fork.lock [] right = some rightParent
  leftMember : leftParent ∈ pool
  rightMember : rightParent ∈ pool
  leftNum : left.num = leftParent.num + 1
  rightNum : right.num = rightParent.num + 1
  ofLeft : Ancestor fork leftParent id
  ofRight : Ancestor fork rightParent id

theorem exists_lower (ok : ItemsOk known next pool)
    (inside : fork.items ⊆ pool) (leftMember : left ∈ pool)
    (rightMember : right ∈ pool) (sameNum : left.num = right.num)
    (differ : left.block.previous ≠ right.block.previous)
    (ofLeft : Ancestor fork left id) (ofRight : Ancestor fork right id) :
    ∃ leftParent rightParent,
      Lower fork pool id left right leftParent rightParent := by
  obtain ⟨leftParent, leftLocked, leftFurther⟩ :=
    ofLeft.lower
      (ofRight.ne_previous ok inside rightMember sameNum differ)
  obtain ⟨rightParent, rightLocked, rightFurther⟩ :=
    ofRight.lower
      (ofLeft.ne_previous ok inside leftMember sameNum.symm differ.symm)
  obtain ⟨leftIn, leftFollows⟩ :=
    parent_of_lock ok (by simpa using inside) leftMember leftLocked
  obtain ⟨rightIn, rightFollows⟩ :=
    parent_of_lock ok (by simpa using inside) rightMember rightLocked
  exact ⟨leftParent, rightParent, leftLocked, rightLocked, leftIn, rightIn,
    num_succ_of_previous leftFollows, num_succ_of_previous rightFollows,
    leftFurther, rightFurther⟩

/-- The third loop comes to its end when there is a common ancestor. -/
theorem meet_returns (ok : ItemsOk known next pool) (inside : fork.items ⊆ pool)
    (leftMember : left ∈ pool) (rightMember : right ∈ pool)
    (sameNum : left.num = right.num) (ofLeft : Ancestor fork left id)
    (ofRight : Ancestor fork right id) (enough : left.num < fuel) :
    ∃ first second, fork.meet fuel left right = some (first, second) := by
  induction fuel generalizing left right with
  | zero => exact absurd enough (Nat.not_lt_zero _)
  | succ fuel ih =>
      by_cases differ : left.block.previous ≠ right.block.previous
      · obtain ⟨leftParent, rightParent, lower⟩ :=
          exists_lower ok inside leftMember rightMember sameNum differ ofLeft
            ofRight
        have leftNum := lower.leftNum
        have rightNum := lower.rightNum
        obtain ⟨first, second, met⟩ :=
          ih lower.leftMember lower.rightMember (by omega)
            lower.ofLeft lower.ofRight (by omega)
        refine ⟨left :: first, right :: second, ?_⟩
        rw [meet, if_pos differ, lower.leftLocked, lower.rightLocked]
        simp only [met]
      · exact ⟨[left], [right], by rw [meet, if_neg differ]⟩

/-- The third loop goes on with the items of both predecessors. -/
theorem meet_eq_some (differ : left.block.previous ≠ right.block.previous)
    (met : fork.meet (fuel + 1) left right = some (first, second)) :
    ∃ leftParent rightParent firstRest secondRest,
      fork.lock [] left = some leftParent ∧
        fork.lock [] right = some rightParent ∧
        fork.meet fuel leftParent rightParent =
          some (firstRest, secondRest) ∧
        first = left :: firstRest ∧ second = right :: secondRest := by
  rw [meet, if_pos differ] at met
  split at met
  · next leftParent rightParent leftLocked rightLocked =>
      split at met
      · cases met
      · next firstRest secondRest goes =>
          cases met
          exact ⟨leftParent, rightParent, firstRest, secondRest, leftLocked,
            rightLocked, goes, rfl, rfl⟩
  · cases met

/-- The common ancestor at which two branches from items of one height end. -/
structure Meets (fork : ForkDatabase B) (left right : ForkItem B)
    (first second : List (ForkItem B)) (firstLast secondLast : ForkItem B) :
    Prop where
  firstEnds : first.getLast? = some firstLast
  secondEnds : second.getLast? = some secondLast
  same : firstLast.block.previous = secondLast.block.previous
  ofLeft : Ancestor fork left firstLast.block.previous
  ofRight : Ancestor fork right firstLast.block.previous
  highest :
    ∀ id, Ancestor fork left id → Ancestor fork right id →
      id.num ≤ firstLast.block.previous.num

/-- The third loop ends at the highest common ancestor. -/
theorem meet_meets (ok : ItemsOk known next pool) (inside : fork.items ⊆ pool)
    (leftMember : left ∈ pool) (rightMember : right ∈ pool)
    (sameNum : left.num = right.num)
    (met : fork.meet fuel left right = some (first, second)) :
    ∃ firstLast secondLast,
      Meets fork left right first second firstLast secondLast := by
  induction fuel generalizing left right first second with
  | zero => cases met
  | succ fuel ih =>
      by_cases differ : left.block.previous ≠ right.block.previous
      · obtain ⟨leftParent, rightParent, firstRest, secondRest, leftLocked,
          rightLocked, goes, rfl, rfl⟩ := meet_eq_some differ met
        obtain ⟨leftIn, leftFollows⟩ :=
          parent_of_lock ok (by simpa using inside) leftMember leftLocked
        obtain ⟨rightIn, rightFollows⟩ :=
          parent_of_lock ok (by simpa using inside) rightMember rightLocked
        have leftStep := num_succ_of_previous leftFollows
        have rightStep := num_succ_of_previous rightFollows
        obtain ⟨firstLast, secondLast, meets⟩ :=
          ih leftIn rightIn (by omega) goes
        refine ⟨firstLast, secondLast,
          { firstEnds := ?_
            secondEnds := ?_
            same := meets.same
            ofLeft := .further leftLocked meets.ofLeft
            ofRight := .further rightLocked meets.ofRight
            highest := fun id ofLeft ofRight => ?_ }⟩
        · rw [List.getLast?_cons, meets.firstEnds]
          rfl
        · rw [List.getLast?_cons, meets.secondEnds]
          rfl
        · obtain ⟨leftOther, rightOther, lower⟩ :=
            exists_lower ok inside leftMember rightMember sameNum differ
              ofLeft ofRight
          have sameLeft := lower.leftLocked
          have sameRight := lower.rightLocked
          rw [leftLocked] at sameLeft
          rw [rightLocked] at sameRight
          cases sameLeft
          cases sameRight
          exact meets.highest id lower.ofLeft lower.ofRight
      · rw [meet, if_neg differ] at met
        cases met
        have same := not_not.mp differ
        refine ⟨left, right,
          { firstEnds := rfl
            secondEnds := rfl
            same := same
            ofLeft := .parent
            ofRight := same ▸ .parent
            highest := fun id ofLeft _ => ?_ }⟩
        exact Nat.le_of_lt_succ (ofLeft.num_lt ok inside leftMember)

end Ancestors

section Branches

variable {fork : ForkDatabase B} {pool : List (ForkItem B)}
  {firstItem secondItem : ForkItem B} {first second : BlockId}

/-- The branches of two blocks: consecutive items that are held, down to the
items above the highest common ancestor. -/
structure ForkPoint (fork : ForkDatabase B)
    (firstItem secondItem : ForkItem B) (first second : List (ForkItem B))
    (firstLast secondLast : ForkItem B) : Prop
    extends Meets fork firstItem secondItem first second firstLast
      secondLast where
  firstHead : first.head? = some firstItem
  secondHead : second.head? = some secondItem
  firstChain : Consecutive first
  secondChain : Consecutive second
  firstHeld : first ⊆ fork.items
  secondHeld : second ⊆ fork.items

/-- The walks of `fetch_branch_from` when both blocks have a common ancestor
along items that are held. -/
theorem fetchBranchFrom_walks {next : Nat} {id : BlockId}
    (ok : ItemsOk known next pool) (inside : fork.items ⊆ pool)
    (isFirst : fork.find first = some firstItem)
    (isSecond : fork.find second = some secondItem)
    (ofFirst : Ancestor fork firstItem id)
    (ofSecond : Ancestor fork secondItem id) :
    ∃ firstPassed firstLast secondPassed secondLast firstBranch secondBranch,
      fork.descend secondItem.num (firstItem.num + 1) firstItem =
          some (firstPassed, firstLast) ∧
        fork.descend firstLast.num (secondItem.num + 1) secondItem =
          some (secondPassed, secondLast) ∧
        fork.meet (firstLast.num + 1) firstLast secondLast =
          some (firstBranch, secondBranch) ∧
        fork.fetchBranchFrom first second =
          some (firstPassed ++ firstBranch, secondPassed ++ secondBranch) ∧
        firstLast ∈ pool ∧ secondLast ∈ pool ∧
        firstLast.num = secondLast.num := by
  have firstMember := inside (mem_items.mpr (.inr (find_eq_some isFirst).1))
  have secondMember := inside (mem_items.mpr (.inr (find_eq_some isSecond).1))
  obtain ⟨firstPassed, firstLast, firstDescends, firstIn⟩ :=
    descend_returns ok inside firstMember ofFirst
      (ofSecond.num_lt ok inside secondMember) (Nat.lt_succ_self _)
  have firstKept :=
    descend_keeps_ancestor ofFirst (ofSecond.num_lt ok inside secondMember)
      firstDescends
  have below := firstKept.num_lt ok inside firstIn
  obtain ⟨secondPassed, secondLast, secondDescends, secondIn⟩ :=
    descend_returns ok inside secondMember ofSecond below (Nat.lt_succ_self _)
  have secondKept := descend_keeps_ancestor ofSecond below secondDescends
  obtain ⟨_, _, _, _, firstLow, _⟩ :=
    descend_spec ok inside firstMember firstDescends
  obtain ⟨_, _, _, _, _, secondExact⟩ :=
    descend_spec ok inside secondMember secondDescends
  have sameNum : firstLast.num = secondLast.num := (secondExact firstLow).symm
  obtain ⟨firstBranch, secondBranch, met⟩ :=
    meet_returns ok inside firstIn secondIn sameNum firstKept secondKept
      (Nat.lt_succ_self _)
  refine ⟨firstPassed, firstLast, secondPassed, secondLast, firstBranch,
    secondBranch, firstDescends, secondDescends, met, ?_, firstIn, secondIn,
    sameNum⟩
  rw [fetchBranchFrom, isFirst, isSecond]
  simp only [firstDescends, secondDescends, met]

/-- The walks of a block and of one of its ancestors end in that ancestor. -/
theorem meet_shared {fuel : Nat} {left right : ForkItem B}
    {first second : List (ForkItem B)} (shared : left.block = right.block)
    (met : fork.meet fuel left right = some (first, second)) :
    first = [left] ∧ second = [right] := by
  cases fuel with
  | zero => cases met
  | succ fuel =>
      rw [meet, if_neg (by simp [shared])] at met
      cases met
      exact ⟨rfl, rfl⟩

theorem descend_stays {level fuel : Nat} {item last : ForkItem B}
    {passed : List (ForkItem B)} (low : item.num ≤ level)
    (descends : fork.descend level fuel item = some (passed, last)) :
    passed = [] ∧ last = item := by
  cases fuel with
  | zero => cases descends
  | succ fuel =>
      rw [descend, if_neg (Nat.not_lt.mpr low)] at descends
      cases descends
      exact ⟨rfl, rfl⟩

/-- Two blocks with a common ancestor, along items that are still held: the
branches go down to the highest one, or end in the one block when it is an
ancestor of the other. -/
theorem fetch_branch_from_fork_point
    (reachable : Reachable known fork pool)
    (isFirst : fork.find first = some firstItem)
    (isSecond : fork.find second = some secondItem)
    (stillHeld :
      ∃ id, Ancestor fork firstItem id ∧ Ancestor fork secondItem id) :
    ∃ firstBranch secondBranch firstLast secondLast,
      fork.fetchBranchFrom first second = some (firstBranch, secondBranch) ∧
        ForkPoint fork firstItem secondItem firstBranch secondBranch firstLast
          secondLast ∧
        (CollisionFree known → Ancestor fork firstItem second →
          secondBranch = [secondItem] ∧
            firstLast.block = secondItem.block) ∧
        (CollisionFree known → Ancestor fork secondItem first →
          firstBranch = [firstItem] ∧
            secondLast.block = firstItem.block) := by
  obtain ⟨id, ofFirst, ofSecond⟩ := stillHeld
  have poolOk := reachable.poolOk
  have ok := poolOk.itemsOk.subset poolOk.inside
  have inside : fork.items ⊆ fork.items := List.Subset.refl _
  obtain ⟨firstIn, firstIs⟩ := find_eq_some isFirst
  obtain ⟨secondIn, secondIs⟩ := find_eq_some isSecond
  have firstMember := mem_items.mpr (.inr firstIn)
  have secondMember := mem_items.mpr (.inr secondIn)
  obtain ⟨firstPassed, firstLast, secondPassed, secondLast, firstBranch,
    secondBranch, firstDescends, secondDescends, met, fetched, firstLastIn,
    secondLastIn, sameNum⟩ :=
    fetchBranchFrom_walks ok inside isFirst isSecond ofFirst ofSecond
  obtain ⟨firstEnd, secondEnd, meets⟩ :=
    meet_meets ok inside firstLastIn secondLastIn sameNum met
  obtain ⟨firstChain, firstHead, firstSubset, _⟩ :=
    descend_spec ok inside firstMember firstDescends
  obtain ⟨secondChain, secondHead, secondSubset, _⟩ :=
    descend_spec ok inside secondMember secondDescends
  obtain ⟨branches, firstTop, secondTop⟩ :=
    meet_spec ok inside firstLastIn secondLastIn sameNum met
  obtain ⟨firstWhole, firstStarts⟩ :=
    joined firstChain branches.firstChain firstTop
  obtain ⟨secondWhole, secondStarts⟩ :=
    joined secondChain branches.secondChain secondTop
  refine ⟨firstPassed ++ firstBranch, secondPassed ++ secondBranch, firstEnd,
    secondEnd, fetched,
    { firstEnds := by simp [List.getLast?_append, meets.firstEnds]
      secondEnds := by simp [List.getLast?_append, meets.secondEnds]
      same := meets.same
      ofLeft := ancestor_of_descend firstDescends meets.ofLeft
      ofRight := ancestor_of_descend secondDescends meets.ofRight
      highest := fun other ofFirst ofSecond => ?_
      firstHead := firstStarts.trans firstHead
      secondHead := secondStarts.trans secondHead
      firstChain := firstWhole
      secondChain := secondWhole
      firstHeld := List.append_subset.mpr
        ⟨(List.append_subset.mp firstSubset).1, branches.firstIn⟩
      secondHeld := List.append_subset.mpr
        ⟨(List.append_subset.mp secondSubset).1, branches.secondIn⟩ },
    fun free ancestor => ?_, fun free ancestor => ?_⟩
  · have firstKept :=
      descend_keeps_ancestor ofFirst (ofSecond.num_lt ok inside secondMember)
        firstDescends
    have secondKept :=
      descend_keeps_ancestor ofSecond
        (firstKept.num_lt ok inside firstLastIn) secondDescends
    exact meets.highest other firstKept secondKept
  · have sameId : firstLast.id = secondItem.id :=
      descend_to_ancestor ok inside firstMember (secondIs ▸ ancestor)
        firstDescends
    have shared : firstLast.block = secondItem.block :=
      free firstLast.block (ok.known firstLast firstLastIn) secondItem.block
        (ok.known secondItem secondMember) sameId
    have low : secondItem.num ≤ firstLast.num := by
      rw [ForkItem.num, ForkItem.num, shared]
    obtain ⟨rfl, rfl⟩ := descend_stays low secondDescends
    obtain ⟨rfl, rfl⟩ := meet_shared shared met
    have isEnd := meets.firstEnds
    rw [List.getLast?_singleton, Option.some.injEq] at isEnd
    exact ⟨rfl, isEnd ▸ shared⟩
  · have below := ancestor.num_lt ok inside secondMember
    have firstNum : first.num = firstItem.num := by
      rw [← firstIs]
      rfl
    obtain ⟨rfl, rfl⟩ := descend_stays (by omega) firstDescends
    have sameId : secondLast.id = firstLast.id :=
      descend_to_ancestor ok inside secondMember (firstIs ▸ ancestor)
        secondDescends
    have shared : secondLast.block = firstLast.block :=
      free secondLast.block (ok.known secondLast secondLastIn) firstLast.block
        (ok.known firstLast firstMember) sameId
    obtain ⟨rfl, rfl⟩ := meet_shared shared.symm met
    have isEnd := meets.secondEnds
    rw [List.getLast?_singleton, Option.some.injEq] at isEnd
    exact ⟨rfl, isEnd ▸ shared⟩

end Branches

def rootBlock : Block Unit := ⟨.zero, 1, 0, ()⟩

def upperBlock : Block Unit := ⟨rootBlock.id, 2, 0, ()⟩

def otherBlock : Block Unit := ⟨rootBlock.id, 3, 0, ()⟩

def topBlock : Block Unit := ⟨upperBlock.id, 4, 0, ()⟩

/-- Two branches above the first block. -/
def twoBranches : ForkDatabase Unit where
  index :=
    [⟨3, some 1, topBlock⟩, ⟨2, some 0, otherBlock⟩,
      ⟨1, some 0, upperBlock⟩, ⟨0, none, rootBlock⟩]
  head := some ⟨3, some 1, topBlock⟩
  maxSize := 1024
  nextAddress := 4

theorem reachable_twoBranches :
    ∃ pool, Reachable Set.univ twoBranches pool := by
  have started : Reachable Set.univ (startBlock rootBlock empty) _ :=
    .call .empty (.startBlock trivial rfl)
  have one : Reachable Set.univ _ _ :=
    .call started (@Call.pushBlock _ _ _ _ _ upperBlock trivial rfl)
  have two : Reachable Set.univ _ _ :=
    .call one (@Call.pushBlock _ _ _ _ _ otherBlock trivial rfl)
  exact ⟨_, .call two
    (@Call.pushBlock _ _ _ _ twoBranches topBlock trivial rfl)⟩

theorem fetch_branch_from_two_branches :
    ∃ firstBranch secondBranch firstLast secondLast,
      twoBranches.fetchBranchFrom topBlock.id otherBlock.id =
          some (firstBranch, secondBranch) ∧
        ForkPoint twoBranches ⟨3, some 1, topBlock⟩ ⟨2, some 0, otherBlock⟩
          firstBranch secondBranch firstLast secondLast := by
  obtain ⟨pool, reachable⟩ := reachable_twoBranches
  obtain ⟨firstBranch, secondBranch, firstLast, secondLast, fetched, point,
    _⟩ :=
    fetch_branch_from_fork_point reachable
      (show twoBranches.find topBlock.id =
        some ⟨3, some 1, topBlock⟩ from rfl)
      (show twoBranches.find otherBlock.id =
        some ⟨2, some 0, otherBlock⟩ from rfl)
      ⟨rootBlock.id, .further rfl .parent, .parent⟩
  exact ⟨firstBranch, secondBranch, firstLast, secondLast, fetched, point⟩

end ForkDatabase

end GxbCore.Chain
