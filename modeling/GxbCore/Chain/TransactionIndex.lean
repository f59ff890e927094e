import GxbCore.Chain.ChainInvariant
import GxbCore.Chain.Transactions

/-!
# What a block does to the index of recent transactions

One lemma for each step: a transaction that is applied passed its checks and is
recorded unless the duplicate check is skipped; the end of a block drops what
has expired.
-/

namespace GxbCore.Chain

variable {O H W : Type} {evaluators : Evaluators O H W}
  {checkpoints : Checkpoints} {skip flags : SkipFlags}
  {block : TrxBlock O H} {state after : TrxState O H W}

structure TransactionApplied (evaluators : Evaluators O H W)
    (flags : SkipFlags) (trx : Transaction O)
    (before after : TrxState O H W) : Prop where
  valid : evaluators.validate trx = true
  fresh :
    flags.transactionDupeCheck = true ∨
      isKnownTransaction before trx.id = false
  authorised :
    flags.transactionSignatures = true ∨ flags.authorityCheck = true ∨
      evaluators.verifyAuthority before.rest.world trx = true
  tapos :
    before.headBlockNum = 0 ∨ flags.taposCheck = true ∨
      evaluators.taposMatches before.rest.world trx = true
  notTooLate :
    before.headBlockNum = 0 ∨
      trx.expiration ≤
        before.rest.headBlockTime +
          evaluators.maximumTimeUntilExpiration before.rest.world
  notExpired :
    before.headBlockNum = 0 ∨ before.rest.headBlockTime ≤ trx.expiration
  operations :
    ∃ world,
      evaluators.applyOperations flags before.view trx = .ok world ∧
      after =
        { before with
          rest :=
            { headBlockTime := before.rest.headBlockTime
              transactionIndex :=
                recordTransaction flags trx before.rest.transactionIndex
              world := world } }

variable {trx : Transaction O} {transactions : List (Transaction O)}

/-- The one lemma about `_apply_transaction`. -/
theorem applyTransaction_eq_ok :
    applyTransaction evaluators flags trx state = .ok after ↔
      TransactionApplied evaluators flags trx state after := by
  constructor
  · intro returns
    obtain ⟨_, valid, returns⟩ := bind_eq_ok.mp returns
    obtain ⟨_, fresh, returns⟩ := bind_eq_ok.mp returns
    obtain ⟨_, authorised, returns⟩ := bind_eq_ok.mp returns
    obtain ⟨_, tapos, returns⟩ := bind_eq_ok.mp returns
    obtain ⟨_, notTooLate, returns⟩ := bind_eq_ok.mp returns
    obtain ⟨_, notExpired, returns⟩ := bind_eq_ok.mp returns
    obtain ⟨world, operations, returns⟩ := bind_eq_ok.mp returns
    exact
      { valid := require_eq_ok.mp valid
        fresh := require_eq_ok.mp fresh
        authorised := require_eq_ok.mp authorised
        tapos := require_eq_ok.mp tapos
        notTooLate := require_eq_ok.mp notTooLate
        notExpired := require_eq_ok.mp notExpired
        operations :=
          ⟨world, operations, (Except.ok.inj returns).symm⟩ }
  · intro applied
    obtain ⟨world, operations, rfl⟩ := applied.operations
    refine bind_eq_ok.mpr ⟨⟨⟩, require_eq_ok.mpr applied.valid, ?_⟩
    refine bind_eq_ok.mpr ⟨⟨⟩, require_eq_ok.mpr applied.fresh, ?_⟩
    refine bind_eq_ok.mpr ⟨⟨⟩, require_eq_ok.mpr applied.authorised, ?_⟩
    refine bind_eq_ok.mpr ⟨⟨⟩, require_eq_ok.mpr applied.tapos, ?_⟩
    refine bind_eq_ok.mpr ⟨⟨⟩, require_eq_ok.mpr applied.notTooLate, ?_⟩
    refine bind_eq_ok.mpr ⟨⟨⟩, require_eq_ok.mpr applied.notExpired, ?_⟩
    exact bind_eq_ok.mpr ⟨world, operations, rfl⟩

def recorded (flags : SkipFlags) (transactions : List (Transaction O)) :
    List (Transaction O) :=
  if flags.transactionDupeCheck then [] else transactions.reverse

theorem mem_recorded :
    trx ∈ recorded flags transactions ↔
      flags.transactionDupeCheck = false ∧ trx ∈ transactions := by
  unfold recorded
  split
  · rename_i skipped
    simp [skipped]
  · rename_i checked
    simp [checked]

theorem mem_clearExpiredTransactions {now : UInt32}
    {index : List (Transaction O)} :
    trx ∈ clearExpiredTransactions now index ↔
      trx ∈ index ∧ now ≤ trx.expiration := by
  simp [clearExpiredTransactions]

theorem recorded_cons (trx : Transaction O)
    (rest index : List (Transaction O)) :
    recorded flags (trx :: rest) ++ index =
      recorded flags rest ++ recordTransaction flags trx index := by
  unfold recorded recordTransaction
  split
  · rfl
  · rw [List.reverse_cons, List.append_assoc]
    rfl

/-- The loop over the transactions changes nothing else than the world and the
index. -/
theorem applyTransactions_fields
    (returns :
      applyTransactions evaluators flags transactions state =
        .ok after) :
    ∃ world,
      after =
        { state with
          rest :=
            { headBlockTime := state.rest.headBlockTime
              transactionIndex :=
                recorded flags transactions ++ state.rest.transactionIndex
              world := world } } := by
  induction transactions generalizing state with
  | nil =>
      cases returns
      refine ⟨after.rest.world, ?_⟩
      unfold recorded
      split
      · rfl
      · rfl
  | cons trx rest ih =>
      unfold applyTransactions at returns
      rw [List.foldlM_cons] at returns
      obtain ⟨middle, first, later⟩ := bind_eq_ok.mp returns
      obtain ⟨_, _, rfl⟩ := (applyTransaction_eq_ok.mp first).operations
      obtain ⟨world, rfl⟩ := ih later
      refine ⟨world, ?_⟩
      simp only [recorded_cons]

/-- The object state when `update_last_irreversible_block` has returned. -/
def begunState (evaluators : Evaluators O H W) (block : TrxBlock O H)
    (before middle : TrxState O H W) : TrxState O H W :=
  updateLastIrreversibleBlock
    (updateSigningWitness block
      { before with
        headBlockNum := block.num
        headBlockId := block.id
        rest :=
          { headBlockTime := block.body.timestamp
            transactionIndex := middle.rest.transactionIndex
            world :=
              evaluators.updateGlobalDynamicData middle.view block }
        history := block :: before.history })

/-- The object state after `clear_expired_transactions`, or at the end of the
block, with these witnesses and this world. -/
def clearedState (state : TrxState O H W)
    (changed : List WitnessId × W) : TrxState O H W :=
  { state with
    activeWitnesses := changed.1
    rest :=
      { headBlockTime := state.rest.headBlockTime
        transactionIndex :=
          clearExpiredTransactions state.rest.headBlockTime
            state.rest.transactionIndex
        world := changed.2 } }

structure BlockApplied (evaluators : Evaluators O H W)
    (flags : SkipFlags) (block : TrxBlock O H)
    (before middle : TrxState O H W)
    (maintained finished : List WitnessId × W)
    (after : TrxState O H W) : Prop where
  previous : before.headBlockId = block.previous
  later : before.rest.headBlockTime < block.body.timestamp
  header : evaluators.validateBlock flags before.view block = true
  transactions :
    applyTransactions evaluators flags block.body.transactions before =
      .ok middle
  cpu : evaluators.withinCpuLimit middle.view block = true
  undoHistory :
    flags.undoHistoryCheck = true ∨
      block.num - middle.lastIrreversibleBlockNum <
        GRAPHENE_MAX_UNDO_HISTORY
  maintains :
    evaluators.maintain flags
      (begunState evaluators block before middle).view block =
      .ok maintained
  finishes :
    evaluators.finish flags
      (clearedState (begunState evaluators block before middle)
        maintained).view block = .ok finished
  result :
    after =
      clearedState (begunState evaluators block before middle) finished

theorem evaluateBlock_eq_ok {rest : Objects O W}
    (flagsAre : applyFlags checkpoints skip block = .ok flags) :
    evaluateBlock evaluators checkpoints skip block state = .ok rest ↔
      state.rest.headBlockTime < block.body.timestamp ∧
      evaluators.validateBlock flags state.view block = true ∧
      ∃ middle,
        applyTransactions evaluators flags block.body.transactions state =
          .ok middle ∧
        evaluators.withinCpuLimit middle.view block = true ∧
        (flags.undoHistoryCheck = true ∨
          block.num - middle.lastIrreversibleBlockNum <
            GRAPHENE_MAX_UNDO_HISTORY) ∧
        rest =
          { headBlockTime := block.body.timestamp
            transactionIndex := middle.rest.transactionIndex
            world :=
              evaluators.updateGlobalDynamicData middle.view block } := by
  unfold evaluateBlock
  constructor
  · intro returns
    obtain ⟨found, isFlags, returns⟩ := bind_eq_ok.mp returns
    obtain rfl := Except.ok.inj (flagsAre.symm.trans isFlags)
    obtain ⟨_, later, returns⟩ := bind_eq_ok.mp returns
    obtain ⟨_, header, returns⟩ := bind_eq_ok.mp returns
    obtain ⟨middle, transactions, returns⟩ := bind_eq_ok.mp returns
    obtain ⟨_, cpu, returns⟩ := bind_eq_ok.mp returns
    obtain ⟨_, undoHistory, returns⟩ := bind_eq_ok.mp returns
    exact
      ⟨require_eq_ok.mp later, require_eq_ok.mp header, middle, transactions,
        require_eq_ok.mp cpu, require_eq_ok.mp undoHistory,
        (Except.ok.inj returns).symm⟩
  · rintro ⟨later, header, middle, transactions, cpu, undoHistory, rfl⟩
    refine bind_eq_ok.mpr ⟨flags, flagsAre, ?_⟩
    refine bind_eq_ok.mpr ⟨⟨⟩, require_eq_ok.mpr later, ?_⟩
    refine bind_eq_ok.mpr ⟨⟨⟩, require_eq_ok.mpr header, ?_⟩
    refine bind_eq_ok.mpr ⟨middle, transactions, ?_⟩
    refine bind_eq_ok.mpr ⟨⟨⟩, require_eq_ok.mpr cpu, ?_⟩
    exact bind_eq_ok.mpr ⟨⟨⟩, require_eq_ok.mpr undoHistory, rfl⟩

theorem settleBlock_eq_ok {changed : List WitnessId × Objects O W}
    (flagsAre : applyFlags checkpoints skip block = .ok flags) :
    settleBlock evaluators checkpoints skip block state = .ok changed ↔
      ∃ maintained finished,
        evaluators.maintain flags state.view block = .ok maintained ∧
        evaluators.finish flags (clearedState state maintained).view
          block = .ok finished ∧
        changed = (finished.1, (clearedState state finished).rest) := by
  unfold settleBlock
  constructor
  · intro returns
    obtain ⟨found, isFlags, returns⟩ := bind_eq_ok.mp returns
    obtain rfl := Except.ok.inj (flagsAre.symm.trans isFlags)
    obtain ⟨maintained, maintains, returns⟩ := bind_eq_ok.mp returns
    obtain ⟨finished, finishes, returns⟩ := bind_eq_ok.mp returns
    exact
      ⟨maintained, finished, maintains, finishes,
        (Except.ok.inj returns).symm⟩
  · rintro ⟨maintained, finished, maintains, finishes, rfl⟩
    refine bind_eq_ok.mpr ⟨flags, flagsAre, ?_⟩
    refine bind_eq_ok.mpr ⟨maintained, maintains, ?_⟩
    exact bind_eq_ok.mpr ⟨finished, finishes, rfl⟩

/-- The one lemma about `apply_block`. -/
theorem applyState_trxRules
    (flagsAre : applyFlags checkpoints skip block = .ok flags) :
    applyState (trxRules evaluators checkpoints skip) block state =
        .ok after ↔
      ∃ middle maintained finished,
        BlockApplied evaluators flags block state middle maintained
          finished after := by
  constructor
  · intro returns
    unfold applyState at returns
    split at returns
    · cases returns
    · rename_i begun begins
      unfold beginBlock at begins
      split at begins
      · cases begins
      · rename_i builds
        split at begins
        · cases begins
        · rename_i rest evaluates
          obtain ⟨later, header, middle, transactions, cpu, undoHistory,
            rfl⟩ := (evaluateBlock_eq_ok flagsAre).mp evaluates
          obtain rfl := Except.ok.inj begins
          unfold finishBlock at returns
          simp only at returns
          split at returns
          · cases returns
          · rename_i active rest settles
            obtain ⟨maintained, finished, maintains, finishes, same⟩ :=
              (settleBlock_eq_ok flagsAre).mp settles
            obtain ⟨rfl, rfl⟩ := Prod.mk.inj same
            exact
              ⟨middle, maintained, finished,
                { previous := not_not.mp builds
                  later := later
                  header := header
                  transactions := transactions
                  cpu := cpu
                  undoHistory := undoHistory
                  maintains := maintains
                  finishes := finishes
                  result := (Except.ok.inj returns).symm }⟩
  · rintro ⟨middle, maintained, finished, applied⟩
    have evaluates :=
      (evaluateBlock_eq_ok flagsAre).mpr
        ⟨applied.later, applied.header, middle, applied.transactions, applied.cpu,
          applied.undoHistory, rfl⟩
    have settles :=
      (settleBlock_eq_ok flagsAre).mpr
        ⟨maintained, finished, applied.maintains, applied.finishes, rfl⟩
    have begins :
        beginBlock (trxRules evaluators checkpoints skip) block state =
          .ok
            { state with
              headBlockNum := block.num
              headBlockId := block.id
              rest :=
                { headBlockTime := block.body.timestamp
                  transactionIndex := middle.rest.transactionIndex
                  world :=
                    evaluators.updateGlobalDynamicData middle.view block }
              history := block :: state.history } := by
      unfold beginBlock
      rw [if_neg (not_not.mpr applied.previous)]
      have evaluatesRules :
          (trxRules evaluators checkpoints skip).evaluate block state = _ :=
        evaluates
      rw [evaluatesRules]
      rfl
    unfold applyState
    rw [begins]
    have settlesRules :
        (trxRules evaluators checkpoints skip).settle block
          (begunState evaluators block state middle) = _ :=
      settles
    unfold begunState at settlesRules
    simp only [finishBlock, settlesRules]
    rw [applied.result]
    rfl

theorem updateLastIrreversibleBlock_rest {B X : Type} (state : ChainState B X) :
    (updateLastIrreversibleBlock state).rest = state.rest := by
  unfold updateLastIrreversibleBlock
  split
  · rfl
  · rfl

theorem begunState_rest (before middle : TrxState O H W) :
    (begunState evaluators block before middle).rest =
      { headBlockTime := block.body.timestamp
        transactionIndex := middle.rest.transactionIndex
        world := evaluators.updateGlobalDynamicData middle.view block } :=
  updateLastIrreversibleBlock_rest _

theorem BlockApplied.index {middle : TrxState O H W}
    {maintained finished : List WitnessId × W}
    (applied :
      BlockApplied evaluators flags block state middle maintained finished
        after) :
    after.rest.headBlockTime = block.body.timestamp ∧
      after.rest.transactionIndex =
        clearExpiredTransactions block.body.timestamp
          (recorded flags block.body.transactions ++
            state.rest.transactionIndex) := by
  have middleIndex :
      middle.rest.transactionIndex =
        recorded flags block.body.transactions ++
          state.rest.transactionIndex := by
    obtain ⟨world, rfl⟩ := applyTransactions_fields applied.transactions
    rfl
  rw [applied.result]
  unfold clearedState
  rw [begunState_rest, ← middleIndex]
  exact ⟨rfl, rfl⟩

end GxbCore.Chain
