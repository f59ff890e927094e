import GxbCore.Chain.HeadAgreement
import GxbCore.Chain.LogAgreement

/-!
# Nodes in which no switch has failed

A switch that fails leaves blocks in the fork database that are above the head,
or entries of its own in the block log.  As long as every switch that is started
goes through, the block log is the main chain and nothing else, and the fork
database holds no block above the head.
-/

namespace GxbCore.Chain

variable {B X : Type} {rules : Rules B X} {known : Set (Block B)}

/-- The log is the main chain, and no block above the head is held. -/
structure InOrder (db : ChainDatabase B X) : Prop where
  log : LogAgrees db
  logEnds : ∀ num, db.headBlockNum < num → db.blockLog num = none
  items : ∀ item ∈ db.forkDb.items, item.num ≤ db.headBlockNum

/-- If the push starts a switch, the switch goes through. -/
def SwitchesSucceed (rules : Rules B X) (db : ChainDatabase B X)
    (skipForkDb : Bool) (newBlock : Block B) : Prop :=
  skipForkDb = false →
  ∀ fork newHead, Attempts db newBlock fork newHead →
    ∃ after,
      switchForks rules newBlock newHead { db with forkDb := fork } =
        .ok after

namespace ForkDatabase

variable {fork pushed : ForkDatabase B} {bound : Nat}

/-- A block one above the bound is removed; if it was the head, its parent is
not above the bound. -/
theorem remove_items_le {id : BlockId} {next : Nat}
    (ok : ItemsOk known next fork.items) (level : id.num = bound + 1)
    (others : ∀ item ∈ fork.items, item.id ≠ id → item.num ≤ bound) :
    ∀ item ∈ (fork.remove [] id).items, item.num ≤ bound := by
  have erasedIndex : ∀ item ∈ (fork.erase id).index, item.num ≤ bound := by
    intro item member
    obtain ⟨inIndex, differs⟩ := List.mem_filter.mp member
    exact others item (mem_items.mpr (Or.inr inIndex))
      (by simpa using differs)
  have erasedHead : (fork.erase id).head = fork.head := rfl
  intro item member
  unfold remove at member
  cases isHead : fork.head with
  | none =>
      simp only [erasedHead, isHead] at member
      rcases mem_items.mp member with itemHead | inIndex
      · rw [erasedHead, isHead] at itemHead
        cases itemHead
      · exact erasedIndex item inIndex
  | some head =>
      have headIn : head ∈ fork.items := mem_items.mpr (Or.inl isHead)
      simp only [erasedHead, isHead] at member
      by_cases same : head.id = id
      · rw [if_pos same] at member
        have okErased : ItemsOk known next (fork.erase id).items :=
          ok.subset (erase_items_subset id)
        cases popped : (fork.erase id).popBlock [] with
        | ok left =>
            rw [popped] at member
            obtain ⟨top, parent, topIs, locked, rfl⟩ := popBlock_eq_ok popped
            rw [erasedHead, isHead, Option.some.injEq] at topIs
            subst topIs
            obtain ⟨_, follows⟩ :=
              parent_of_lock okErased
                (by rw [List.append_nil]; exact List.Subset.refl _)
                (mem_items.mpr (Or.inl (erasedHead.trans isHead))) locked
            have step := num_succ_of_previous follows
            have headNum : head.num = bound + 1 := by
              rw [← level, ← same]
              rfl
            rcases mem_items.mp member with itemHead | inIndex
            · have isParent : parent = item := Option.some.inj itemHead
              rw [← isParent]
              omega
            · exact erasedIndex item inIndex
        | throw fault left =>
            rw [popped] at member
            rw [popBlock_throw popped] at member
            rcases mem_items.mp member with itemHead | inIndex
            · cases itemHead
            · exact erasedIndex item inIndex
      · rw [if_neg same] at member
        rcases mem_items.mp member with itemHead | inIndex
        · rw [erasedHead, isHead, Option.some.injEq] at itemHead
          rw [← itemHead]
          exact others head headIn same
        · exact erasedIndex item inIndex

/-- The new item is the only one that a push can put above the bound. -/
theorem pushBlock_items_le {newBlock : Block B}
    (low : ∀ item ∈ fork.items, item.num ≤ bound)
    (returns : fork.pushBlock newBlock = .ok pushed) :
    ∀ item ∈ pushed.items,
      item.block = newBlock ∨ item.num ≤ bound := by
  obtain ⟨prev, rfl, _⟩ := pushBlock_inserted returns
  intro item member
  rcases List.mem_cons.mp ((insertItem_items fork _).1 member) with
    same | older
  · exact Or.inl (by rw [same])
  · exact Or.inr (low item older)

theorem pushBlock_num_le {newBlock : Block B} {newHead : ForkItem B}
    (returns : fork.pushBlock newBlock = .ok pushed)
    (isHead : pushed.head = some newHead) : newBlock.num ≤ newHead.num := by
  obtain ⟨prev, rfl, _⟩ := pushBlock_inserted returns
  rw [insertItem_head] at isHead
  cases old : fork.head with
  | none =>
      simp only [old, Option.some.injEq] at isHead
      rw [← isHead]
      exact Nat.le_refl _
  | some head =>
      simp only [old] at isHead
      split at isHead
      · rw [← Option.some.inj isHead]
        exact Nat.le_refl _
      · rename_i notLower
        rw [← Option.some.inj isHead]
        exact Nat.le_of_not_lt notLower

end ForkDatabase

section Steps

variable {db : ChainDatabase B X} {newBlock : Block B}
  {fork : ForkDatabase B} {newHead : ForkItem B} {after : ChainDatabase B X}

theorem Applied.inOrder (applied : Applied rules newBlock.id newBlock db after)
    (ok : ObjectsOk known rules db.objects) (isKnown : newBlock ∈ known)
    (agrees : LogAgrees db)
    (logEnds : ∀ num, db.headBlockNum < num → db.blockLog num = none)
    (items :
      ∀ item ∈ db.forkDb.items,
        item.block = newBlock ∨ item.num ≤ db.headBlockNum) :
    InOrder after := by
  have extended := applyState_extends applied.applies
  have number : newBlock.num = db.headBlockNum + 1 := by
    rw [Block.num, extended.previous]
    exact congrArg (· + 1) ok.headBlockId_num
  have headNum : after.headBlockNum = newBlock.num := extended.headNum
  refine { log := ?_, logEnds := ?_, items := ?_ }
  · have linked := (applied.objectsOk isKnown ok).current.linked
    have stored :=
      @LogHas.store B db.state.history [] newBlock db.blockLog agrees
    rw [List.append_nil] at stored
    unfold LogAgrees
    rw [extended.history, applied.blockLog]
    exact stored (extended.history ▸ linked)
  · intro num above
    rw [headNum] at above
    rw [applied.blockLog, BlockLog.store_own, if_neg (by omega)]
    exact logEnds num (by omega)
  · intro item member
    rw [applied.forkDb] at member
    rw [headNum]
    rcases items item ((sizedFork_items rules newBlock db.state
      db.forkDb).1 member) with same | low
    · exact Nat.le_of_eq (congrArg Block.num same)
    · omega

/-- A block that does not apply and is taken out of the fork database. -/
theorem Refused.inOrder
    (refused : Refused rules newBlock db after) (agrees : LogAgrees db)
    (logEnds : ∀ num, db.headBlockNum < num → db.blockLog num = none)
    (items :
      ∀ item ∈ (after.forkDb.remove [] newBlock.id).items,
        item.num ≤ db.headBlockNum) :
    InOrder
      { after with forkDb := after.forkDb.remove [] newBlock.id } := by
  have sameNum : after.headBlockNum = db.headBlockNum :=
    congrArg ChainState.headBlockNum refused.current
  have sameHistory : after.state.history = db.state.history :=
    congrArg ChainState.history refused.current
  refine { log := ?_, logEnds := ?_, items := ?_ }
  · unfold LogAgrees
    rw [show ({ after with
        forkDb := after.forkDb.remove [] newBlock.id } :
          ChainDatabase B X).state.history = db.state.history
        from sameHistory]
    rw [show ({ after with
        forkDb := after.forkDb.remove [] newBlock.id } :
          ChainDatabase B X).blockLog = db.blockLog from refused.blockLog]
    exact agrees
  · intro num above
    rw [show ({ after with
        forkDb := after.forkDb.remove [] newBlock.id } :
          ChainDatabase B X).blockLog = db.blockLog from refused.blockLog]
    exact logEnds num (sameNum ▸ above)
  · intro item member
    exact Nat.le_trans (items item member) (Nat.le_of_eq sameNum.symm)

theorem pushLinear_skipped_inOrder (ok : DatabaseOk known rules db)
    (isKnown : newBlock ∈ known) (order : InOrder db) :
    InOrder (pushLinear rules newBlock db).state := by
  rcases applyAndStore_cases rules newBlock.id newBlock db with
    ⟨after, returns, applied⟩ | ⟨fault, after, throws, refused⟩
  · simp only [pushLinear, returns, Outcome.state_ok]
    exact applied.inOrder ok.objects isKnown order.log order.logEnds
      (fun item member => Or.inr (order.items item member))
  · simp only [pushLinear, throws, Outcome.state_throw]
    refine refused.inOrder order.log order.logEnds ?_
    intro item member
    have inAfter := ForkDatabase.remove_items_subset newBlock.id member
    rw [List.append_nil, refused.forkDb] at inAfter
    exact order.items item
      ((sizedFork_items rules newBlock db.state db.forkDb).1 inAfter)

theorem pushLinear_inOrder (ok : DatabaseOk known rules db)
    (isKnown : newBlock ∈ known) (order : InOrder db)
    (pushed : db.forkDb.pushBlock newBlock = .ok fork)
    (isHead : fork.head = some newHead)
    (builds : newHead.block.previous = db.headBlockId) :
    InOrder
      (pushLinear rules newBlock { db with forkDb := fork }).state := by
  have okPushed := ok.push isKnown pushed
  have items := ForkDatabase.pushBlock_items_le order.items pushed
  rcases applyAndStore_cases rules newBlock.id newBlock
      { db with forkDb := fork } with
    ⟨after, returns, applied⟩ | ⟨fault, after, throws, refused⟩
  · simp only [pushLinear, returns, Outcome.state_ok]
    exact applied.inOrder okPushed.objects isKnown order.log order.logEnds
      items
  · simp only [pushLinear, throws, Outcome.state_throw]
    refine refused.inOrder order.log order.logEnds ?_
    -- the head is above the chain, so it is the block just pushed
    have headNum : newHead.num = db.headBlockNum + 1 := by
      rw [ForkItem.num, Block.num, builds, ok.objects.headBlockId_num]
    have headIs : newHead.block = newBlock := by
      rcases items newHead
        (ForkDatabase.mem_items.mpr (Or.inl isHead)) with same | low
      · exact same
      · omega
    have level : newBlock.id.num = db.headBlockNum + 1 := by
      rw [← headNum, ForkItem.num, headIs]
      rfl
    have subset := sizedFork_items rules newBlock db.state fork
    have sized : after.forkDb = sizedFork rules newBlock db.state fork :=
      refused.forkDb
    rw [sized]
    refine ForkDatabase.remove_items_le
      (okPushed.items.subset subset.1) level ?_
    intro item member differs
    rcases items item (subset.1 member) with same | low
    · exact absurd (congrArg Block.id same) differs
    · exact low

theorem storeAll_above {items : List (ForkItem B)} {log : BlockLog B}
    {num : Nat} (free : log num = none) (low : ∀ item ∈ items, item.num < num) :
    storeAll ForkItem.id items log num = none := by
  induction items generalizing log with
  | nil => exact free
  | cons item items ih =>
      have differs : num ≠ item.block.num :=
        Nat.ne_of_gt (low item List.mem_cons_self)
      refine ih ?_
        (fun other member => low other (List.mem_cons_of_mem item member))
      have stored := BlockLog.store_own log item.block num
      rw [if_neg differs] at stored
      exact stored.trans free

theorem switchForks_inOrder (free : CollisionFree known)
    (ok : DatabaseOk known rules db) (isKnown : newBlock ∈ known)
    (order : InOrder db) (attempts : Attempts db newBlock fork newHead)
    (returns :
      switchForks rules newBlock newHead { db with forkDb := fork } =
        .ok after) : InOrder after := by
  have okPushed := ok.push isKnown attempts.pushed
  have kept := switchForks_keeps newBlock free okPushed attempts.head
  rw [returns, Outcome.state_ok] at kept
  cases found :
      fork.fetchBranchFrom newHead.id db.headBlockId with
  | none =>
      simp only [switchForks, found] at returns
      cases returns
  | some branches =>
      obtain ⟨first, second⟩ := branches
      obtain ⟨branchesOk, ⟨top, topIn, topIs, topId⟩, _⟩ :=
        ForkDatabase.fetchBranchFrom_spec okPushed.items
          (List.Subset.refl _) found
      obtain ⟨older, switch, switchIs, shape, course⟩ :=
        switchForks_cases newBlock free okPushed attempts.head
          attempts.higher found
      have firstIs : switch.first = first := by rw [switchIs]
      rcases course with ⟨below, point, goesOn⟩ |
        ⟨count, fault, left, throws, _⟩
      · rw [goesOn] at returns
        have agreesBelow : LogHas older below.blockLog := by
          rw [point.popped.blockLog]
          refine LogHas.mono order.log ?_
          have whole : db.state.history = _ := shape
          rw [whole]
          exact List.subset_append_right _ _
        rcases applyAll_cases rules switch.first.reverse below.state with
          ⟨reached, applies⟩ |
          ⟨good, bad, later, reached, parts, applies, refused⟩
        · obtain ⟨middle, applied, _, log, history, has⟩ :=
            point.stores agreesBelow
              (fun item member => List.mem_reverse.mp member) applies
          have whole := pushBranch_append switch [] applied
          rw [List.append_nil, returns] at whole
          have same : after = middle := Outcome.ok.inj whole
          subst same
          -- the top of the branch is the new head of the fork database
          have topBlock : top.block = newHead.block :=
            free top.block
              (okPushed.items.known top
                (ForkDatabase.mem_items.mpr (Or.inr topIn)))
              newHead.block
              (okPushed.items.known newHead
                (ForkDatabase.mem_items.mpr (Or.inl attempts.head)))
              topId
          have topNum : top.num = newHead.num :=
            congrArg Block.num topBlock
          obtain ⟨tail, firstCons⟩ : ∃ tail, first = top :: tail := by
            cases first with
            | nil => cases topIs
            | cons head tail =>
                exact ⟨tail, by rw [Option.some.inj topIs]⟩
          have headNum : after.headBlockNum = newHead.num := by
            have linked := kept.objects.current.linked
            have whole : after.objects.current.history = _ := history
            rw [kept.objects.headBlockNum_eq, history]
            rw [whole] at linked
            rw [firstIs, firstCons, List.map_reverse, List.reverse_reverse,
              List.map_cons, List.cons_append] at linked ⊢
            rw [List.length_cons, ← linked.head_num]
            exact topNum
          refine { log := has, logEnds := ?_, items := ?_ }
          · intro num above
            rw [headNum] at above
            rw [log]
            refine storeAll_above ?_ ?_
            · rw [point.popped.blockLog]
              exact order.logEnds num (attempts.higher.trans above)
            · intro item member
              rw [firstIs] at member
              have low :=
                branchesOk.firstChain.num_le_head topIs
                  (List.mem_reverse.mp member)
              omega
          · intro item member
            rw [headNum]
            rcases ForkDatabase.pushBlock_items_le order.items
                attempts.pushed item (kept.items member) with same | low
            · rw [ForkItem.num, same]
              exact ForkDatabase.pushBlock_num_le attempts.pushed
                attempts.head
            · exact Nat.le_of_lt (Nat.lt_of_le_of_lt low attempts.higher)
        · -- a block of the branch that does not apply makes the push throw
          have knownGood : ∀ item ∈ good, item.block ∈ known := by
            intro item member
            refine point.switchOk.known item
              (point.switchOk.first_subset ?_)
            rw [← List.mem_reverse, parts]
            exact List.mem_append_left _ member
          rw [parts] at returns
          rcases pushBranch_failed point.objects point.history
              point.switchOk.target knownGood applies refused
              point.replays with
            ⟨_, fault, final, throws, _⟩ |
            ⟨_, _, _, _, fault, final, throws, _⟩
          · rw [throws] at returns
            cases returns
          · rw [throws] at returns
            cases returns
      · rw [throws] at returns
        cases returns

theorem pushBlock_inOrder {skipForkDb : Bool} (free : CollisionFree known)
    (ok : DatabaseOk known rules db) (isKnown : newBlock ∈ known)
    (order : InOrder db)
    (succeeds : SwitchesSucceed rules db skipForkDb newBlock) :
    InOrder (pushBlock rules skipForkDb newBlock db).state := by
  have course := pushBlock_cases rules skipForkDb newBlock db
  generalize pushBlock rules skipForkDb newBlock db = outcome at course ⊢
  cases course with
  | skipped isSkipped => exact pushLinear_skipped_inOrder ok isKnown order
  | refused fault left refuses => exact order
  | kept fork newHead pushed head elsewhere notHigher =>
      refine
        { log := order.log
          logEnds := order.logEnds
          items := ?_ }
      intro item member
      rcases ForkDatabase.pushBlock_items_le order.items pushed item
          member with same | low
      · rw [ForkItem.num, same]
        exact Nat.le_trans (ForkDatabase.pushBlock_num_le pushed head)
          notHigher
      · exact low
  | linear fork newHead pushed head builds =>
      exact pushLinear_inOrder ok isKnown order pushed head builds
  | switched fork newHead notSkipped attempts =>
      obtain ⟨after, returns⟩ :=
        succeeds notSkipped fork newHead attempts
      rw [returns, Outcome.state_ok]
      exact switchForks_inOrder free ok isKnown order attempts returns

end Steps

variable {db origin : ChainDatabase B X}

/-- A database just opened on a log that is its main chain. -/
theorem Opened.inOrder (opened : Opened known origin) (log : LogAgrees origin)
    (logEnds : ∀ num, origin.headBlockNum < num → origin.blockLog num = none) :
    InOrder origin := by
  refine { log := log, logEnds := logEnds, items := ?_ }
  have fork := opened.forkDb
  have number := opened.state.headNum
  have linked := opened.state.linked
  cases history : origin.state.history with
  | nil =>
      rw [history] at fork
      rw [fork]
      intro item member
      cases member
  | cons block older =>
      rw [history] at fork number linked
      have headNum : origin.headBlockNum = block.num := by
        rw [linked.head_num]
        exact number
      rw [fork, headNum]
      intro item member
      have isBlock : item = ⟨0, none, block⟩ := by
        simpa [ForkDatabase.items, ForkDatabase.startBlock,
          ForkDatabase.empty] using member
      rw [isBlock]
      exact Nat.le_refl _

theorem Run.inOrder (free : CollisionFree known)
    (run : Run rules known (SwitchesSucceed rules) origin db)
    (ok : DatabaseOk known rules origin) (order : InOrder origin) :
    InOrder db := by
  induction run with
  | refl => exact order
  | push skipForkDb block earlier isKnown succeeds ih =>
      exact pushBlock_inOrder free (earlier.databaseOk free ok) isKnown
        ih succeeds
  | pending count _ ih =>
      exact
        { log := ih.log
          logEnds := ih.logEnds
          items := ih.items }

/-- A node: opened on a log that is its main chain, and then any pushes of
known blocks whose switches go through. -/
structure Node (rules : Rules B X) (known : Set (Block B))
    (db : ChainDatabase B X) : Prop where
  reached :
    ∃ origin, Opened known origin ∧ LogAgrees origin ∧
      (∀ num, origin.headBlockNum < num → origin.blockLog num = none) ∧
      Run rules known (SwitchesSucceed rules) origin db

theorem Node.databaseOk (free : CollisionFree known)
    (node : Node rules known db) : DatabaseOk known rules db := by
  obtain ⟨origin, opened, _, _, run⟩ := node.reached
  exact run.databaseOk free opened.databaseOk

theorem Node.inOrder (free : CollisionFree known) (node : Node rules known db) :
    InOrder db := by
  obtain ⟨origin, opened, log, logEnds, run⟩ := node.reached
  exact run.inOrder free opened.databaseOk (opened.inOrder log logEnds)

end GxbCore.Chain
