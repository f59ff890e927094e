import GxbCore.Chain.HeadAgreement
import GxbCore.Chain.TransactionIndex

/-!
# reindex: replaying the block log

The blocks of the log are applied again with most checks skipped, the early ones
without undo sessions, the last fifty through `push_block`.  The duplicate check
is skipped too, and with it the recording of transactions, until the head block
time has come so near to the last block that a transaction could still be alive
there; it then stays on.

`Agrees` relates the replayed state to the live one.  A block that was accepted
with all checks applies again, and the two states then differ at most in the
transactions of the blocks that were replayed without recording.
-/

namespace GxbCore.Chain

variable {O H W : Type}

/-- The flags of `reindex`. -/
def reindexFlags (skipDupeCheck : Bool) : SkipFlags :=
  { skipNothing with
    witnessSignature := true
    blockSizeCheck := true
    merkleCheck := true
    transactionSignatures := true
    transactionDupeCheck := skipDupeCheck
    taposCheck := true
    witnessScheduleCheck := true
    authorityCheck := true }

/-- The test that switches the duplicate check on again, with the subtraction of
`time_point_sec`. -/
def nearTheEnd (evaluators : Evaluators O H W) (lastTime : UInt32)
    (state : TrxState O H W) : Bool :=
  decide
    (lastTime - evaluators.maximumTimeUntilExpiration state.rest.world ≤
      state.rest.headBlockTime)

/-- What `reindex` throws. -/
inductive ReindexFault where
  | headBlockMissing
  | block (fault : ChainFault)

def fetchBlockByNumber {B X : Type} (db : ChainDatabase B X) (num : Nat) :
    Option (Block B) :=
  match db.forkDb.index.filter fun item => decide (item.num = num) with
  | [item] => some item.block
  | _ => db.blockLog.fetchByNumber num

/-- The loop, with the number of blocks that are left.  A gap in the log ends it
and drops the blocks above. -/
def reindexFrom (evaluators : Evaluators O H W)
    (checkpoints : Checkpoints) (lastTime : UInt32) (undoPoint : Nat) :
    Nat → Bool → Nat → ChainDatabase (Payload O H) (Objects O W) →
      Outcome ReindexFault (ChainDatabase (Payload O H) (Objects O W))
  | 0, _, _, db => .ok db
  | left + 1, skipDupeCheck, num, db =>
      let skipDupeCheck :=
        skipDupeCheck && !nearTheEnd evaluators lastTime db.state
      match db.blockLog.fetchByNumber num with
      | none =>
          .ok
            { db with
              blockLog := fun entry =>
                if num < entry then none else db.blockLog entry }
      | some block =>
          let rules :=
            trxRules evaluators checkpoints (reindexFlags skipDupeCheck)
          match
            (if num < undoPoint then applyBlock rules block db
              else pushBlock rules false block db) with
          | .throw fault db => .throw (.block fault) db
          | .ok db =>
              reindexFrom evaluators checkpoints lastTime undoPoint left
                skipDupeCheck (num + 1) db

/-- `reindex`; `lastBlock` is what the log returns as its last block. -/
def reindex (evaluators : Evaluators O H W) (checkpoints : Checkpoints)
    (lastBlock : Option (TrxBlock O H))
    (db : ChainDatabase (Payload O H) (Objects O W)) :
    Outcome ReindexFault (ChainDatabase (Payload O H) (Objects O W)) :=
  match lastBlock with
  | none => .ok db
  | some last =>
      if last.num ≤ db.headBlockNum then
        .ok db
      else
        let undoPoint := last.num - 50
        let replay :=
          reindexFrom evaluators checkpoints last.body.timestamp undoPoint
            (last.num - db.headBlockNum) true (db.headBlockNum + 1)
        if undoPoint ≤ db.headBlockNum ∧ 0 < db.headBlockNum then
          match fetchBlockByNumber db db.headBlockNum with
          | none => .throw .headBlockMissing db
          | some block =>
              replay { db with forkDb := db.forkDb.startBlock block }
        else
          replay db

/-- The evaluators behave the same when `reindex` skips their checks: a block
that was applied with all checks applies again, with the same result. -/
structure RelaxesChecks (evaluators : Evaluators O H W) : Prop where
  operations :
    ∀ skipDupeCheck view trx world,
      evaluators.applyOperations skipNothing view trx = .ok world →
      evaluators.applyOperations (reindexFlags skipDupeCheck) view trx =
        .ok world
  header :
    ∀ skipDupeCheck view block,
      evaluators.validateBlock skipNothing view block = true →
      evaluators.validateBlock (reindexFlags skipDupeCheck) view block =
        true
  maintenance :
    ∀ skipDupeCheck view block changed,
      evaluators.maintain skipNothing view block = .ok changed →
      evaluators.maintain (reindexFlags skipDupeCheck) view block =
        .ok changed
  ending :
    ∀ skipDupeCheck view block changed,
      evaluators.finish skipNothing view block = .ok changed →
      evaluators.finish (reindexFlags skipDupeCheck) view block =
        .ok changed

def DistinctIds (index : List (Transaction O)) : Prop :=
  (index.map Transaction.id).Nodup

theorem DistinctIds.eq {index : List (Transaction O)}
    {left right : Transaction O} (distinct : DistinctIds index)
    (leftMember : left ∈ index) (rightMember : right ∈ index)
    (same : left.id = right.id) : left = right :=
  List.inj_on_of_nodup_map distinct leftMember rightMember same

theorem view_eq_iff {left right : TrxState O H W} :
    left.view = right.view ↔
      left.headBlockNum = right.headBlockNum ∧
      left.headBlockId = right.headBlockId ∧
      left.lastIrreversibleBlockNum = right.lastIrreversibleBlockNum ∧
      left.activeWitnesses = right.activeWitnesses ∧
      left.lastConfirmedBlockNum = right.lastConfirmedBlockNum ∧
      left.rest.headBlockTime = right.rest.headBlockTime ∧
      left.rest.world = right.rest.world ∧
      left.history = right.history := by
  simp only [ChainState.view, ChainState.mk.injEq, Prod.mk.injEq,
    and_assoc]

/-- The replayed state is the live one, but for transactions that are expired
when the last block comes and for those in `missing`. -/
structure Agrees (lastTime : UInt32) (live replayed : TrxState O H W)
    (missing : List (Transaction O)) : Prop where
  view : replayed.view = live.view
  distinct : DistinctIds live.rest.transactionIndex
  inLive :
    ∀ trx ∈ replayed.rest.transactionIndex,
      trx ∈ live.rest.transactionIndex
  alive :
    ∀ trx ∈ live.rest.transactionIndex, lastTime ≤ trx.expiration →
      trx ∈ replayed.rest.transactionIndex ∨ trx ∈ missing
  missing :
    ∀ trx ∈ missing, lastTime ≤ trx.expiration →
      trx ∈ live.rest.transactionIndex ∧
        trx ∉ replayed.rest.transactionIndex

section Step

variable {evaluators : Evaluators O H W} {live replayed : TrxState O H W}
  {skipDupeCheck : Bool}

theorem isKnownTransaction_eq_false {state : TrxState O H W} {id : Nat} :
    isKnownTransaction state id = false ↔
      id ∉ state.rest.transactionIndex.map Transaction.id := by
  simp [isKnownTransaction]

theorem applyTransaction_replays {trx : Transaction O} {after : TrxState O H W}
    (relaxed : RelaxesChecks evaluators) (view : replayed.view = live.view)
    (inLive :
      ∀ trx ∈ replayed.rest.transactionIndex,
        trx ∈ live.rest.transactionIndex)
    (applied : TransactionApplied evaluators skipNothing trx live after) :
    ∃ result,
      applyTransaction evaluators (reindexFlags skipDupeCheck) trx
        replayed = .ok result ∧
      result.view = after.view ∧
      result.rest.transactionIndex =
        recordTransaction (reindexFlags skipDupeCheck) trx
          replayed.rest.transactionIndex ∧
      after.rest.transactionIndex =
        trx :: live.rest.transactionIndex ∧
      trx.id ∉ live.rest.transactionIndex.map Transaction.id := by
  have fresh : trx.id ∉ live.rest.transactionIndex.map Transaction.id := by
    rcases applied.fresh with skipped | unknown
    · cases skipped
    · exact isKnownTransaction_eq_false.mp unknown
  obtain ⟨sameNum, sameId, irreversible, active, confirmed, sameTime,
    sameWorld, history⟩ := view_eq_iff.mp view
  obtain ⟨world, operations, rfl⟩ := applied.operations
  have again :
      TransactionApplied evaluators (reindexFlags skipDupeCheck) trx
        replayed
        { replayed with
          rest :=
            { headBlockTime := replayed.rest.headBlockTime
              transactionIndex :=
                recordTransaction (reindexFlags skipDupeCheck) trx
                  replayed.rest.transactionIndex
              world := world } } :=
    { valid := applied.valid
      fresh := by
        refine Or.inr (isKnownTransaction_eq_false.mpr ?_)
        intro known
        obtain ⟨other, member, same⟩ := List.mem_map.mp known
        exact fresh (List.mem_map.mpr ⟨other, inLive other member, same⟩)
      authorised := Or.inl rfl
      tapos := Or.inr (Or.inl rfl)
      notTooLate := by
        rw [sameNum, sameTime, sameWorld]
        exact applied.notTooLate
      notExpired := by
        rw [sameNum, sameTime]
        exact applied.notExpired
      operations :=
        ⟨world, by
          rw [view]
          exact relaxed.operations _ _ _ _ operations, rfl⟩ }
  refine ⟨_, applyTransaction_eq_ok.mpr again, ?_, rfl, rfl, fresh⟩
  exact view_eq_iff.mpr
    ⟨sameNum, sameId, irreversible, active, confirmed, sameTime, rfl,
      history⟩

theorem applyTransactions_replays {transactions : List (Transaction O)}
    {after : TrxState O H W} (relaxed : RelaxesChecks evaluators)
    (view : replayed.view = live.view)
    (distinct : DistinctIds live.rest.transactionIndex)
    (inLive :
      ∀ trx ∈ replayed.rest.transactionIndex,
        trx ∈ live.rest.transactionIndex)
    (returns :
      applyTransactions evaluators skipNothing transactions live =
        .ok after) :
    (∃ result,
      applyTransactions evaluators (reindexFlags skipDupeCheck)
        transactions replayed = .ok result ∧ result.view = after.view) ∧
    DistinctIds (transactions.reverse ++ live.rest.transactionIndex) := by
  induction transactions generalizing live replayed with
  | nil =>
      cases returns
      exact ⟨⟨replayed, rfl, view⟩, distinct⟩
  | cons trx rest ih =>
      unfold applyTransactions at returns
      rw [List.foldlM_cons] at returns
      obtain ⟨middle, first, later⟩ := bind_eq_ok.mp returns
      obtain ⟨next, applies, nextView, nextIndex, middleIndex, fresh⟩ :=
        @applyTransaction_replays O H W evaluators live replayed
          skipDupeCheck trx middle relaxed view inLive
          (applyTransaction_eq_ok.mp first)
      obtain ⟨⟨result, rests, resultView⟩, distinctAfter⟩ :=
        @ih middle next nextView
          (by
            rw [middleIndex]
            exact List.nodup_cons.mpr ⟨fresh, distinct⟩)
          (by
            rw [nextIndex, middleIndex]
            intro other member
            unfold recordTransaction at member
            split at member
            · exact List.mem_cons_of_mem trx (inLive other member)
            · rcases List.mem_cons.mp member with same | old
              · exact same ▸ List.mem_cons_self
              · exact List.mem_cons_of_mem trx (inLive other old))
          later
      refine ⟨⟨result, ?_, resultView⟩, ?_⟩
      · unfold applyTransactions
        rw [List.foldlM_cons]
        exact bind_eq_ok.mpr ⟨next, applies, rests⟩
      · rw [middleIndex] at distinctAfter
        rw [List.reverse_cons, List.append_assoc]
        exact distinctAfter

/-- What follows the transactions depends on the view alone. -/
theorem begunState_view {block : TrxBlock O H}
    {liveMiddle replayedMiddle : TrxState O H W}
    (view : replayed.view = live.view)
    (middles : replayedMiddle.view = liveMiddle.view) :
    (begunState evaluators block replayed replayedMiddle).view =
      (begunState evaluators block live liveMiddle).view := by
  have commutes :
      ∀ state : TrxState O H W,
        (updateLastIrreversibleBlock
          (updateSigningWitness block state)).view =
          updateLastIrreversibleBlock
            (updateSigningWitness block state.view) := by
    intro state
    have candidate :
        irreversibleCandidate (updateSigningWitness block state) =
          irreversibleCandidate
            (updateSigningWitness block state.view) :=
      rfl
    unfold updateLastIrreversibleBlock
    rw [← candidate]
    by_cases advances :
        (updateSigningWitness block state).lastIrreversibleBlockNum <
          irreversibleCandidate (updateSigningWitness block state)
    · rw [if_pos advances, if_pos (show
        (updateSigningWitness block
          state.view).lastIrreversibleBlockNum < _ from advances)]
      rfl
    · rw [if_neg advances, if_neg (show
        ¬ (updateSigningWitness block
          state.view).lastIrreversibleBlockNum < _ from advances)]
      rfl
  obtain ⟨_, _, irreversible, active, confirmed, _, _, history⟩ :=
    view_eq_iff.mp view
  unfold begunState
  rw [commutes, commutes]
  congr 2
  refine view_eq_iff.mpr
    ⟨rfl, rfl, irreversible, active, confirmed, rfl, ?_, ?_⟩
  · exact congrArg
      (fun seen => evaluators.updateGlobalDynamicData seen block) middles
  · exact congrArg (block :: ·) history

theorem clearedState_view {left right : TrxState O H W}
    {changed : List WitnessId × W} (view : left.view = right.view) :
    (clearedState left changed).view =
      (clearedState right changed).view := by
  obtain ⟨num, id, irreversible, _, confirmed, time, _, history⟩ :=
    view_eq_iff.mp view
  exact view_eq_iff.mpr
    ⟨num, id, irreversible, rfl, confirmed, time, rfl, history⟩

/-- One block: it applies again, and its transactions are missing when they are
not recorded. -/
theorem Agrees.step {lastTime : UInt32} {block : TrxBlock O H}
    {after : TrxState O H W} {missing : List (Transaction O)}
    (relaxed : RelaxesChecks evaluators)
    (agrees : Agrees lastTime live replayed missing)
    (notLater : block.body.timestamp ≤ lastTime)
    (applies :
      applyState (trxRules evaluators [] skipNothing) block live =
        .ok after) :
    ∃ result,
      applyState
        (trxRules evaluators [] (reindexFlags skipDupeCheck)) block
        replayed = .ok result ∧
      Agrees lastTime after result
        (missing ++
          if skipDupeCheck then block.body.transactions else []) := by
  obtain ⟨middle, maintained, finished, applied⟩ :=
    (applyState_trxRules rfl).mp applies
  obtain ⟨⟨replayedMiddle, transactions, middles⟩, distinctAll⟩ :=
    @applyTransactions_replays O H W evaluators live replayed
      skipDupeCheck block.body.transactions middle relaxed agrees.view
      agrees.distinct agrees.inLive applied.transactions
  have begun :=
    @begunState_view O H W evaluators live replayed block middle
      replayedMiddle agrees.view middles
  obtain ⟨_, sameId, _, _, _, sameTime, _, _⟩ :=
    view_eq_iff.mp agrees.view
  obtain ⟨_, _, sameIrreversible, _⟩ := view_eq_iff.mp middles
  have again :
      BlockApplied evaluators (reindexFlags skipDupeCheck) block replayed
        replayedMiddle maintained finished
        (clearedState
          (begunState evaluators block replayed replayedMiddle)
          finished) :=
    { previous := sameId.trans applied.previous
      later := by
        rw [sameTime]
        exact applied.later
      header := by
        rw [agrees.view]
        exact relaxed.header _ _ _ applied.header
      transactions := transactions
      cpu := by
        rw [middles]
        exact applied.cpu
      undoHistory := by
        rw [sameIrreversible]
        exact applied.undoHistory
      maintains := by
        rw [begun]
        exact relaxed.maintenance _ _ _ _ applied.maintains
      finishes := by
        rw [clearedState_view begun]
        exact relaxed.ending _ _ _ _ applied.finishes
      result := rfl }
  obtain ⟨_, liveIndex⟩ := applied.index
  obtain ⟨_, replayedIndex⟩ := again.index
  have liveMember :
      ∀ trx, trx ∈ after.rest.transactionIndex ↔
        (trx ∈ block.body.transactions ∨
          trx ∈ live.rest.transactionIndex) ∧
        block.body.timestamp ≤ trx.expiration := by
    intro trx
    rw [liveIndex, mem_clearExpiredTransactions, List.mem_append,
      mem_recorded]
    simp [skipNothing]
  have replayedMember :
      ∀ trx,
        trx ∈ (clearedState
          (begunState evaluators block replayed replayedMiddle)
          finished).rest.transactionIndex ↔
        (skipDupeCheck = false ∧ trx ∈ block.body.transactions ∨
          trx ∈ replayed.rest.transactionIndex) ∧
        block.body.timestamp ≤ trx.expiration := by
    intro trx
    rw [replayedIndex, mem_clearExpiredTransactions, List.mem_append,
      mem_recorded]
    rfl
  -- a transaction of the block was not in the index before
  have apart :
      ∀ trx ∈ block.body.transactions,
        trx ∉ live.rest.transactionIndex := by
    intro trx inBlock inIndex
    unfold DistinctIds at distinctAll
    rw [List.map_append, List.nodup_append] at distinctAll
    exact distinctAll.2.2 trx.id
      (List.mem_map_of_mem (List.mem_reverse.mpr inBlock)) trx.id
      (List.mem_map_of_mem inIndex) rfl
  refine ⟨_, (applyState_trxRules rfl).mpr ⟨_, _, _, again⟩,
    { view := ?_, distinct := ?_, inLive := ?_, alive := ?_,
      missing := ?_ }⟩
  · rw [applied.result]
    exact clearedState_view begun
  · rw [liveIndex]
    refine List.Nodup.sublist ?_ distinctAll
    exact List.Sublist.map _ List.filter_sublist
  · intro trx member
    obtain ⟨origin, current⟩ := (replayedMember trx).mp member
    refine (liveMember trx).mpr ⟨?_, current⟩
    rcases origin with ⟨_, inBlock⟩ | old
    · exact Or.inl inBlock
    · exact Or.inr (agrees.inLive trx old)
  · intro trx member living
    have current : block.body.timestamp ≤ trx.expiration :=
      UInt32.le_trans notLater living
    obtain ⟨origin, _⟩ := (liveMember trx).mp member
    rcases origin with inBlock | old
    · cases skipDupeCheck with
      | true => exact Or.inr (List.mem_append_right _ inBlock)
      | false =>
          exact Or.inl
            ((replayedMember trx).mpr ⟨Or.inl ⟨rfl, inBlock⟩, current⟩)
    · rcases agrees.alive trx old living with isThere | isMissing
      · exact Or.inl ((replayedMember trx).mpr ⟨Or.inr isThere, current⟩)
      · exact Or.inr (List.mem_append_left _ isMissing)
  · intro trx member living
    have current : block.body.timestamp ≤ trx.expiration :=
      UInt32.le_trans notLater living
    rcases List.mem_append.mp member with isMissing | unrecorded
    · obtain ⟨inLive, notReplayed⟩ := agrees.missing trx isMissing living
      refine ⟨(liveMember trx).mpr ⟨Or.inr inLive, current⟩, ?_⟩
      intro isThere
      obtain ⟨origin, _⟩ := (replayedMember trx).mp isThere
      rcases origin with ⟨_, inBlock⟩ | old
      · exact apart trx inBlock inLive
      · exact notReplayed old
    · cases skipDupeCheck with
      | false => cases unrecorded
      | true =>
          have inBlock : trx ∈ block.body.transactions := unrecorded
          refine ⟨(liveMember trx).mpr ⟨Or.inl inBlock, current⟩, ?_⟩
          intro isThere
          obtain ⟨origin, _⟩ := (replayedMember trx).mp isThere
          rcases origin with ⟨recordedAgain, _⟩ | old
          · cases recordedAgain
          · exact apart trx inBlock (agrees.inLive trx old)

end Step

end GxbCore.Chain
