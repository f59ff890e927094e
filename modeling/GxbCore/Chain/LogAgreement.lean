import GxbCore.Chain.ForkRecovery

/-!
# The block log and the main chain

Blocks that extend the chain, and the blocks of a branch that is switched to,
are stored under their own ids.  The recovery of a switch stores the blocks it
restores under the id of the block that was pushed: the entries that the new
branch has overwritten keep its blocks.

So the log agrees with the main chain as long as no switch fails after one of
its blocks was applied and is then taken back.
-/

namespace GxbCore.Chain

variable {B X : Type} {rules : Rules B X} {known : Set (Block B)}

/-- If the push starts a switch in which a block does not apply, then either no
block of the new branch applied before it, and the block pushed is numbered
above the head or is the head; or the blocks that did apply cannot all be popped
again, and the chain stays on them. -/
def KeepsLog (rules : Rules B X) (db : ChainDatabase B X)
    (skipForkDb : Bool) (newBlock : Block B) : Prop :=
  skipForkDb = false →
  ∀ fork newHead first second below good bad later reached,
    Attempts db newBlock fork newHead →
    fork.fetchBranchFrom newHead.id db.headBlockId =
      some (first, second) →
    Popped (Switch.held ⟨newBlock, newHead, first, second⟩)
      second.length { db with forkDb := fork } below →
    first.reverse = good ++ bad :: later →
    applyAll rules (good.map ForkItem.block) below.state =
      some reached →
    (∀ after, applyState rules bad.block reached ≠ .ok after) →
    (good = [] ∧
      (db.headBlockNum < newBlock.num ∨ newBlock.id = db.headBlockId)) ∨
    ¬ CanPop (Switch.held ⟨newBlock, newHead, first, second⟩) good.length
      (Switch.failed rules ⟨newBlock, newHead, first, second⟩ good
        (bad :: later) below)

section Storing

variable {blocks : List (Block B)} {log : BlockLog B}

theorem LogHas.mono {fewer : List (Block B)} (has : LogHas blocks log)
    (inside : fewer ⊆ blocks) : LogHas fewer log :=
  fun block member => has block (inside member)

/-- An entry that no block of the chain uses is written. -/
theorem LogHas.store_other {id : BlockId} {block : Block B}
    (has : LogHas blocks log) (valid : id ≠ .zero)
    (apart : ∀ other ∈ blocks, other.num ≠ id.num) :
    LogHas blocks (log.store id block) := by
  intro other member
  simp only [BlockLog.store, if_neg valid]
  rw [if_neg (apart other member)]
  exact has other member

theorem LogHas.store_again {block : Block B} {older : List (Block B)}
    (has : LogHas (block :: older) log) (linked : Linked (block :: older)) :
    LogHas (block :: older) (log.store block.id block) := by
  have below : LogHas older log :=
    has.mono (List.subset_cons_self block older)
  have whole := @LogHas.store B older [] block log below
  rw [List.append_nil] at whole
  exact whole linked

theorem storeAll_const {id : BlockId} {last : ForkItem B}
    {items : List (ForkItem B)} (valid : id ≠ .zero)
    (ends : items.getLast? = some last) :
    storeAll (fun _ => id) items log = log.store id last.block := by
  induction items generalizing log with
  | nil => cases ends
  | cons item items ih =>
      cases items with
      | nil =>
          simp only [List.getLast?_singleton, Option.some.injEq] at ends
          rw [← ends]
          rfl
      | cons second rest =>
          have step :
              storeAll (fun _ => id) (item :: second :: rest) log =
                storeAll (fun _ => id) (second :: rest)
                  (log.store id item.block) :=
            rfl
          rw [step, ih (by simpa using ends)]
          funext num
          simp only [BlockLog.store, if_neg valid]
          split
          · rfl
          · rfl

end Storing

section Steps

variable {db : ChainDatabase B X} {newBlock : Block B}
  {fork : ForkDatabase B} {newHead : ForkItem B}

/-- The log has every block of the main chain under its number and id. -/
def LogAgrees (db : ChainDatabase B X) : Prop :=
  LogHas db.state.history db.blockLog

theorem pushLinear_log (ok : ObjectsOk known rules db.objects)
    (isKnown : newBlock ∈ known) (agrees : LogAgrees db) :
    LogAgrees (pushLinear rules newBlock db).state := by
  rcases applyAndStore_cases rules newBlock.id newBlock db with
    ⟨after, returns, applied⟩ | ⟨fault, after, throws, refused⟩
  · simp only [pushLinear, returns, Outcome.state_ok]
    have history := (applyState_extends applied.applies).history
    have linked := (applied.objectsOk isKnown ok).current.linked
    have stored :=
      @LogHas.store B db.state.history [] newBlock db.blockLog agrees
    rw [List.append_nil] at stored
    unfold LogAgrees
    rw [history, applied.blockLog]
    exact stored (history ▸ linked)
  · simp only [pushLinear, throws, Outcome.state_throw]
    unfold LogAgrees
    have sameHistory : after.state.history = db.state.history :=
      congrArg ChainState.history refused.current
    rw [sameHistory, refused.blockLog]
    exact agrees

/-- The blocks of the new branch that apply are stored under their own ids. -/
theorem ForkPoint.stores {switch : Switch B} {older : List (Block B)}
    {below : ChainDatabase B X} {good : List (ForkItem B)}
    {reached : ChainState B X}
    (point : ForkPoint known rules switch older db below)
    (agrees : LogHas older below.blockLog) (inFirst : good ⊆ switch.first)
    (applies :
      applyAll rules (good.map ForkItem.block) below.state =
        some reached) :
    ∃ middle,
      forEach
        (fun item : ForkItem B =>
          applyAndStore rules item.id item.block) good below =
        .ok middle ∧
      middle.state = reached ∧
      middle.blockLog = storeAll ForkItem.id good below.blockLog ∧
      middle.state.history =
        (good.map ForkItem.block).reverse ++ older ∧
      LogAgrees middle := by
  obtain ⟨middle, returns, state, _, _, log⟩ :=
    forEach_applyAndStore ForkItem.id applies
  have knownGood : ∀ item ∈ good, item.block ∈ known := fun item member =>
    point.switchOk.known item
      (point.switchOk.first_subset (inFirst member))
  obtain ⟨_, history, has⟩ :=
    forEach_own_log point.objects knownGood
      (point.history.trans (List.append_nil older).symm) agrees returns
  rw [List.append_nil] at history
  refine ⟨middle, returns, state, log, history, ?_⟩
  unfold LogAgrees
  rw [history]
  exact has

theorem pushBranch_log {switch : Switch B} {older : List (Block B)}
    {below : ChainDatabase B X} {oldHead : ForkItem B}
    (point : ForkPoint known rules switch older db below)
    (ok : ObjectsOk known rules db.objects)
    (shape : db.state.history = switch.second.map ForkItem.block ++ older)
    (agrees : LogAgrees db) (oldHeadIs : switch.second.head? = some oldHead)
    (keeps :
      ∀ good bad later reached,
        switch.first.reverse = good ++ bad :: later →
        applyAll rules (good.map ForkItem.block) below.state =
          some reached →
        (∀ after, applyState rules bad.block reached ≠ .ok after) →
        (good = [] ∧
          (db.headBlockNum < switch.newBlock.num ∨
            switch.newBlock.id = db.headBlockId)) ∨
        ¬ CanPop switch.held good.length
          (switch.failed rules good (bad :: later) below)) :
    LogAgrees
      (pushBranch rules switch switch.first.reverse below).state := by
  have agreesBelow : LogHas older below.blockLog := by
    rw [point.popped.blockLog]
    refine LogHas.mono agrees ?_
    rw [shape]
    exact List.subset_append_right _ _
  rcases applyAll_cases rules switch.first.reverse below.state with
    ⟨after, applies⟩ |
    ⟨good, bad, later, reached, parts, applies, refused⟩
  · -- the whole branch applies
    obtain ⟨middle, returns, _, _, _, has⟩ :=
      point.stores agreesBelow
        (fun item member => List.mem_reverse.mp member) applies
    have whole := pushBranch_append switch [] returns
    rw [List.append_nil] at whole
    rw [whole]
    exact has
  · have goodIn : good ⊆ switch.first := by
      intro item member
      rw [← List.mem_reverse, parts]
      exact List.mem_append_left _ member
    have knownGood : ∀ item ∈ good, item.block ∈ known :=
      fun item member =>
        point.switchOk.known item
          (point.switchOk.first_subset (goodIn member))
    obtain ⟨middle, _, _, middleLog, middleHistory, middleHas⟩ :=
      point.stores agreesBelow goodIn applies
    rw [parts]
    rcases pushBranch_failed point.objects point.history
        point.switchOk.target knownGood applies refused point.replays with
      ⟨all, fault, final, throws, restored, log⟩ |
      ⟨count, _, _, _, fault, final, throws, finalApplies, log⟩
    · -- the old branch is restored: nothing else was stored
      rw [throws, Outcome.state_throw]
      rcases keeps good bad later reached parts applies refused with
        ⟨rfl, harmless⟩ | stuck
      · have ends :
            switch.second.reverse.getLast? = some oldHead := by
          rw [List.getLast?_reverse, oldHeadIs]
        have isStored :
            final.blockLog =
              db.blockLog.store switch.newBlock.id oldHead.block := by
          rw [log, storeAll_const switch.newBlock.id_ne_zero ends,
            ← point.popped.blockLog]
          rfl
        unfold LogAgrees
        rw [restored, isStored]
        rcases harmless with higher | same
        · refine LogHas.store_other agrees switch.newBlock.id_ne_zero ?_
          intro other member
          have bound := ok.current.linked.num_le member
          rw [ok.headBlockNum_eq] at higher
          rw [Block.id_num]
          have low : other.num < switch.newBlock.num :=
            Nat.lt_of_le_of_lt bound higher
          exact Nat.ne_of_lt low
        · have linked := ok.current.linked
          have headId := ok.headBlockId_eq
          have has : LogHas db.state.history db.blockLog := agrees
          have top : ∃ rest, db.state.history = oldHead.block :: rest := by
            cases isSecond : switch.second with
            | nil => simp [isSecond] at oldHeadIs
            | cons head tail =>
                rw [isSecond, List.head?_cons,
                  Option.some.injEq] at oldHeadIs
                rw [shape, isSecond, oldHeadIs]
                exact ⟨_, rfl⟩
          obtain ⟨rest, history⟩ := top
          have headHistory : db.objects.current.history = _ := history
          rw [headHistory] at linked
          rw [history] at has headId ⊢
          rw [same, headId, lastId_cons]
          exact has.store_again linked
      · exact absurd all stuck
    · -- the chain stays on blocks of the new branch
      rw [throws, Outcome.state_throw]
      unfold LogAgrees at middleHas ⊢
      rw [log, ← middleLog, applyAll_history finalApplies, point.history]
      rw [middleHistory] at middleHas
      refine middleHas.mono ?_
      intro block member
      rcases List.mem_append.mp member with isNew | isOld
      · refine List.mem_append_left _ ?_
        rw [List.mem_reverse] at isNew ⊢
        exact List.mem_of_mem_take isNew
      · exact List.mem_append_right _ isOld

theorem switchForks_log {first second : List (ForkItem B)}
    (free : CollisionFree known) (ok : DatabaseOk known rules db)
    (isKnown : newBlock ∈ known) (agrees : LogAgrees db)
    (keeps : KeepsLog rules db false newBlock)
    (attempts : Attempts db newBlock fork newHead)
    (found :
      fork.fetchBranchFrom newHead.id db.headBlockId =
        some (first, second)) :
    LogAgrees
      (switchForks rules newBlock newHead
        { db with forkDb := fork }).state := by
  have okPushed := ok.push isKnown attempts.pushed
  obtain ⟨_, _, oldHead, _, oldHeadIs, _⟩ :=
    ForkDatabase.fetchBranchFrom_spec okPushed.items
      (List.Subset.refl _) found
  obtain ⟨older, switch, rfl, shape, course⟩ :=
    switchForks_cases newBlock free okPushed attempts.head
      attempts.higher found
  have agreesPushed : LogAgrees { db with forkDb := fork } := agrees
  rcases course with ⟨below, point, goesOn⟩ |
    ⟨count, fault, left, throws, fewer, _, _, dropped, log⟩
  · rw [goesOn]
    refine pushBranch_log point okPushed.objects shape agreesPushed
      oldHeadIs ?_
    intro good bad later reached parts applies refused
    exact keeps rfl fork newHead first second below good bad later
      reached attempts found point.popped parts applies refused
  · -- stuck on the old branch: a lower state of the same chain
    rw [throws, Outcome.state_throw]
    unfold LogAgrees
    rw [log]
    refine LogHas.mono agreesPushed ?_
    have below :=
      okPushed.objects.dropped_history
        (by
          have whole : db.objects.current.history = _ := shape
          rw [whole, List.length_append, List.length_map]
          omega)
        dropped
    have history :
        left.state.history = db.state.history.drop count := below
    rw [history]
    exact List.drop_subset _ _

/-- One push that meets the condition. -/
theorem pushBlock_log {skipForkDb : Bool} (free : CollisionFree known)
    (ok : DatabaseOk known rules db) (isKnown : newBlock ∈ known)
    (agrees : LogAgrees db) (keeps : KeepsLog rules db skipForkDb newBlock) :
    LogAgrees (pushBlock rules skipForkDb newBlock db).state := by
  have course := pushBlock_cases rules skipForkDb newBlock db
  generalize pushBlock rules skipForkDb newBlock db = outcome at course ⊢
  cases course with
  | skipped isSkipped => exact pushLinear_log ok.objects isKnown agrees
  | refused fault left refuses => exact agrees
  | kept fork newHead pushed head elsewhere notHigher => exact agrees
  | linear fork newHead pushed head builds =>
      exact pushLinear_log (ok.push isKnown pushed).objects isKnown agrees
  | switched fork newHead notSkipped attempts =>
      subst notSkipped
      cases found :
          fork.fetchBranchFrom newHead.id db.headBlockId with
      | none =>
          simp only [switchForks, found, Outcome.state_throw]
          exact agrees
      | some branches =>
          obtain ⟨first, second⟩ := branches
          exact switchForks_log free ok isKnown agrees keeps attempts
            found

end Steps

variable {db origin : ChainDatabase B X}

theorem Run.logAgrees (free : CollisionFree known)
    (run : Run rules known (KeepsLog rules) origin db)
    (ok : DatabaseOk known rules origin) (agrees : LogAgrees origin) :
    LogAgrees db := by
  induction run with
  | refl => exact agrees
  | push skipForkDb block earlier isKnown keeps ih =>
      exact pushBlock_log free (earlier.databaseOk free ok) isKnown
        ih keeps
  | pending count _ ih => exact ih

end GxbCore.Chain
