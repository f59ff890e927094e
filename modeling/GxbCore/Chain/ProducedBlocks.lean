import GxbCore.Chain.BlockProduction
import GxbCore.Chain.PoppedTransactions

/-!
# Which produced blocks are accepted

The transactions that the loop has taken apply in the same order on the head
block, and the time they bill is below the limit, so `push_block` has nothing
against them.  The size is another matter: a transaction is let in for the size
it had, and the block is refused when the results it has now are too long.
-/

namespace GxbCore.Chain

variable {O H W : Type}

/-- Applying a transaction with the results it was given repeats what happened
when it got them. -/
structure Producer.Reproducible (producer : Producer O H W) : Prop where
  operations :
    ∀ {round skip view trx contents world},
      producer.execute round skip view trx = .ok (contents, world) →
        producer.work.applyOperations (productionFlags skip) view
          { trx with contents := contents } = .ok world
  validate :
    ∀ {round skip view trx contents world},
      producer.execute round skip view trx = .ok (contents, world) →
        producer.work.validate { trx with contents := contents } =
          producer.work.validate trx
  tapos :
    ∀ {round skip view trx contents world},
      producer.execute round skip view trx = .ok (contents, world) →
        producer.work.taposMatches view.rest.2
            { trx with contents := contents } =
          producer.work.taposMatches view.rest.2 trx
  limit :
    ∀ {round skip view trx contents world},
      producer.execute round skip view trx = .ok (contents, world) →
        producer.blockCpuLimit world = producer.blockCpuLimit view.rest.2

section Selecting

variable {producer : Producer O H W} {skip : SkipFlags}
variable {maximum limit : Nat} {head : TrxState O H W}
variable {selection : Selection O H W} {trx processed : Transaction O}
variable {state after : TrxState O H W} {newBlockCpu : Nat}

theorem applyMeasured_repeats {round : Nat}
    (reproducible : producer.Reproducible)
    (returns :
      applyMeasured producer round skip trx state =
        .ok (processed, after)) :
    applyTransaction producer.evaluators (productionFlags skip) processed
        state = .ok after ∧
      producer.blockCpuLimit after.rest.world =
        producer.blockCpuLimit state.rest.world := by
  obtain ⟨middle, applies, rest⟩ := bind_eq_ok.mp returns
  obtain ⟨⟨contents, world⟩, executes, isAfter⟩ := bind_eq_ok.mp rest
  have applied := applyTransaction_eq_ok.mp applies
  obtain ⟨other, operations, rfl⟩ := applied.operations
  obtain ⟨executed, again, isOther⟩ := bind_eq_ok.mp operations
  rw [executes] at again
  cases again
  cases isOther
  cases isAfter
  constructor
  · apply applyTransaction_eq_ok.mpr
    exact
      { valid := (reproducible.validate executes).trans applied.valid
        fresh := applied.fresh
        authorised := Or.inl rfl
        tapos := by
          rcases applied.tapos with first | skipped | matching
          · exact Or.inl first
          · exact Or.inr (Or.inl skipped)
          · exact Or.inr
              (Or.inr ((reproducible.tapos executes).trans matching))
        notTooLate := applied.notTooLate
        notExpired := applied.notExpired
        operations := ⟨world, reproducible.operations executes, rfl⟩ }
  · exact reproducible.limit executes

theorem judge_taken
    (takes :
      producer.judge skip maximum limit selection trx =
        .taken processed after newBlockCpu) :
    applyMeasured producer selection.round skip trx selection.state =
        .ok (processed, after) ∧
      newBlockCpu =
        selection.newBlockCpu +
          (producer.billedCpuTimes processed.contents).sum ∧
      newBlockCpu < limit := by
  rw [Producer.judge] at takes
  split at takes
  · cases takes
  · split at takes
    · cases takes
    · rename_i found state applies
      simp only at takes
      split at takes
      · cases takes
      · rename_i below
        cases takes
        exact ⟨applies, rfl, Nat.lt_of_not_le below⟩

theorem judge_overCpu
    (drops :
      producer.judge skip maximum limit selection trx =
        .overCpu newBlockCpu) : selection.newBlockCpu ≤ newBlockCpu := by
  rw [Producer.judge] at drops
  split at drops
  · cases drops
  · split at drops
    · cases drops
    · simp only at drops
      split at drops
      · cases drops
        exact Nat.le_add_right _ _
      · cases drops

/-- A round leaves the transactions alone, or takes one more. -/
theorem selectOne_cases (producer : Producer O H W) (skip : SkipFlags)
    (maximum limit : Nat) (selection : Selection O H W) (trx : Transaction O) :
    ((∀ processed after newBlockCpu,
        producer.judge skip maximum limit selection trx ≠
          .taken processed after newBlockCpu) ∧
      (producer.selectOne skip maximum limit selection trx).transactions =
        selection.transactions ∧
      (producer.selectOne skip maximum limit selection trx).state =
        selection.state ∧
      selection.newBlockCpu ≤
        (producer.selectOne skip maximum limit selection
          trx).newBlockCpu) ∨
    ∃ processed after newBlockCpu,
      producer.judge skip maximum limit selection trx =
        .taken processed after newBlockCpu ∧
      (producer.selectOne skip maximum limit selection trx).transactions =
        selection.transactions ++ [processed] ∧
      (producer.selectOne skip maximum limit selection trx).state = after ∧
      (producer.selectOne skip maximum limit selection trx).newBlockCpu =
        newBlockCpu := by
  unfold Producer.selectOne
  cases judged : producer.judge skip maximum limit selection trx with
  | postponed => exact Or.inl ⟨by simp, rfl, rfl, Nat.le_refl _⟩
  | refused code => exact Or.inl ⟨by simp, rfl, rfl, Nat.le_refl _⟩
  | overCpu newBlockCpu =>
      exact Or.inl ⟨by simp, rfl, rfl, judge_overCpu judged⟩
  | taken processed after newBlockCpu =>
      exact Or.inr ⟨processed, after, newBlockCpu, rfl, rfl, rfl, rfl⟩

/-- The transactions taken so far apply on the head block in their order, and
bill less than the limit. -/
structure Selected
    (producer : Producer O H W) (skip : SkipFlags)
    (head : TrxState O H W) (selection : Selection O H W) : Prop where
  applies :
    applyTransactions producer.evaluators (productionFlags skip)
      selection.transactions head = .ok selection.state
  billed :
    producer.cpuTime selection.transactions ≤ selection.newBlockCpu
  within :
    producer.cpuTime selection.transactions ≤
      producer.blockCpuLimit head.rest.world
  limit :
    producer.blockCpuLimit selection.state.rest.world =
      producer.blockCpuLimit head.rest.world

theorem cpuTime_concat
    (transactions : List (Transaction O)) (processed : Transaction O) :
    producer.cpuTime (transactions ++ [processed]) =
      producer.cpuTime transactions +
        (producer.billedCpuTimes processed.contents).sum := by
  simp [Producer.cpuTime]

theorem Selected.step (reproducible : producer.Reproducible)
    (selected : Selected producer skip head selection) (trx : Transaction O) :
    Selected producer skip head
      (producer.selectOne skip maximum
        (producer.blockCpuLimit head.rest.world) selection trx) := by
  rcases selectOne_cases producer skip maximum
      (producer.blockCpuLimit head.rest.world) selection trx with
    ⟨_, transactions, state, grows⟩ |
    ⟨processed, after, newBlockCpu, takes, transactions, state, cpu⟩
  · constructor
    · rw [transactions, state]
      exact selected.applies
    · rw [transactions]
      exact selected.billed.trans grows
    · rw [transactions]
      exact selected.within
    · rw [state]
      exact selected.limit
  · obtain ⟨measured, isCpu, below⟩ := judge_taken takes
    obtain ⟨repeats, sameLimit⟩ :=
      applyMeasured_repeats reproducible measured
    have billed := selected.billed
    constructor
    · rw [transactions, state, applyTransactions, List.foldlM_append]
      refine bind_eq_ok.mpr ⟨selection.state, selected.applies, ?_⟩
      rw [List.foldlM_cons]
      exact bind_eq_ok.mpr ⟨after, repeats, rfl⟩
    · rw [transactions, cpu, cpuTime_concat]
      omega
    · rw [transactions, cpuTime_concat]
      omega
    · rw [state, sameLimit]
      exact selected.limit

theorem foldl_selectOne_selected (reproducible : producer.Reproducible)
    (selected : Selected producer skip head selection)
    (pending : List (Transaction O)) :
    Selected producer skip head
      (pending.foldl
        (producer.selectOne skip maximum
          (producer.blockCpuLimit head.rest.world)) selection) := by
  induction pending generalizing selection with
  | nil => exact selected
  | cons trx rest ih =>
      exact ih (selected.step reproducible trx)

theorem select_selected (reproducible : producer.Reproducible)
    (head : TrxState O H W) (pending : List (Transaction O)) :
    Selected producer skip head
      (producer.select skip maximum head pending) := by
  apply foldl_selectOne_selected reproducible
  exact ⟨rfl, Nat.zero_le _, Nat.zero_le _, rfl⟩

end Selecting

section Sizes

variable {producer : Producer O H W} {skip : SkipFlags}
variable {maximum bound : Nat} {witness : WitnessId}
variable {head : TrxState O H W}

theorem unsignedIntSize_le_succ (number : Nat) :
    unsignedIntSize number ≤ unsignedIntSize (number + 1) := by
  unfold unsignedIntSize
  split_ifs <;> omega

theorem blockSize_le_concat
    (transactions : List (Transaction O)) (processed : Transaction O) :
    producer.blockSize witness transactions ≤
      producer.blockSize witness (transactions ++ [processed]) := by
  have count := unsignedIntSize_le_succ transactions.length
  simp only [Producer.blockSize, List.length_append, List.length_cons,
    List.length_nil, List.map_append, List.map_cons, List.map_nil,
    List.sum_append, List.sum_cons, List.sum_nil, Nat.zero_add]
  omega

/-- The round takes a transaction that makes the block too big with the results
it has now. -/
def Producer.Overgrows
    (producer : Producer O H W) (skip : SkipFlags) (maximum limit : Nat)
    (bound : Nat) (witness : WitnessId) (selection : Selection O H W)
    (trx : Transaction O) : Prop :=
  ∃ processed after newBlockCpu,
    producer.judge skip maximum limit selection trx =
      .taken processed after newBlockCpu ∧
    bound <
      producer.blockSize witness (selection.transactions ++ [processed])

/-- No pending transaction does so in its round. -/
def Producer.NoneOvergrows
    (producer : Producer O H W) (skip : SkipFlags) (maximum : Nat)
    (bound : Nat) (witness : WitnessId) (head : TrxState O H W)
    (pending : List (Transaction O)) : Prop :=
  ∀ count trx, pending[count]? = some trx →
    ¬ producer.Overgrows skip maximum
      (producer.blockCpuLimit head.rest.world) bound witness
      (producer.select skip maximum head (pending.take count)) trx

theorem select_concat (earlier : List (Transaction O)) (trx : Transaction O) :
    producer.select skip maximum head (earlier ++ [trx]) =
      producer.selectOne skip maximum
        (producer.blockCpuLimit head.rest.world)
        (producer.select skip maximum head earlier) trx := by
  simp [Producer.select]

theorem noneOvergrows_concat
    (earlier : List (Transaction O)) (trx : Transaction O) :
    producer.NoneOvergrows skip maximum bound witness head
        (earlier ++ [trx]) ↔
      producer.NoneOvergrows skip maximum bound witness head earlier ∧
      ¬ producer.Overgrows skip maximum
        (producer.blockCpuLimit head.rest.world) bound witness
        (producer.select skip maximum head earlier) trx := by
  constructor
  · intro none
    constructor
    · intro count other found
      have inside := (List.getElem?_eq_some_iff.mp found).1
      have later := none count other
        (by rw [List.getElem?_append_left inside]; exact found)
      rwa [List.take_append_of_le_length (Nat.le_of_lt inside)] at later
    · have last := none earlier.length trx (by simp)
      rwa [List.take_left] at last
  · rintro ⟨none, last⟩ count other found
    by_cases inside : count < earlier.length
    · rw [List.getElem?_append_left inside] at found
      rw [List.take_append_of_le_length (Nat.le_of_lt inside)]
      exact none count other found
    · have bounds := (List.getElem?_eq_some_iff.mp found).1
      simp only [List.length_append, List.length_cons,
        List.length_nil] at bounds
      have isLast : count = earlier.length := by omega
      subst isLast
      rw [List.getElem?_append_right (Nat.le_refl _), Nat.sub_self,
        List.getElem?_cons_zero, Option.some.injEq] at found
      rw [← found, List.take_left]
      exact last

theorem select_fits_iff (empty : producer.blockSize witness [] ≤ bound)
    (pending : List (Transaction O)) :
    producer.blockSize witness
          (producer.select skip maximum head pending).transactions ≤
        bound ↔
      producer.NoneOvergrows skip maximum bound witness head pending := by
  induction pending using List.reverseRecOn with
  | nil =>
      constructor
      · intro _ count trx found
        rw [List.getElem?_nil] at found
        cases found
      · intro _
        exact empty
  | append_singleton earlier trx ih =>
      rw [noneOvergrows_concat, ← ih, select_concat]
      rcases selectOne_cases producer skip maximum
          (producer.blockCpuLimit head.rest.world)
          (producer.select skip maximum head earlier) trx with
        ⟨notTaken, transactions, _⟩ |
        ⟨processed, after, newBlockCpu, takes, transactions, _⟩
      · rw [transactions]
        have stays :
            ¬ producer.Overgrows skip maximum
              (producer.blockCpuLimit head.rest.world) bound witness
              (producer.select skip maximum head earlier) trx := by
          rintro ⟨processed, after, newBlockCpu, takes, _⟩
          exact notTaken processed after newBlockCpu takes
        exact (and_iff_left stays).symm
      · rw [transactions]
        constructor
        · intro fits
          refine ⟨(blockSize_le_concat _ processed).trans fits, ?_⟩
          rintro ⟨other, otherAfter, otherCpu, otherTakes, larger⟩
          rw [takes] at otherTakes
          cases otherTakes
          omega
        · rintro ⟨_, stays⟩
          by_contra larger
          exact stays
            ⟨processed, after, newBlockCpu, takes, Nat.lt_of_not_le larger⟩

end Sizes

section Producing

variable {producer : Producer O H W} {checkpoints : Checkpoints}
variable {skip : SkipFlags} {when : UInt32} {witness : WitnessId}
variable {key : Nat} {db : PendingDatabase O H W}

/-- What `_apply_block` checks and does besides the transactions and their cpu
time: the header, the undo history, maintenance and the work at the end. -/
structure RestAccepts
    (evaluators : Evaluators O H W) (flags : SkipFlags)
    (block : TrxBlock O H) (before middle : TrxState O H W) : Prop where
  later : before.rest.headBlockTime < block.body.timestamp
  header : evaluators.validateBlock flags before.view block = true
  undoHistory :
    flags.undoHistoryCheck = true ∨
      block.num - middle.lastIrreversibleBlockNum <
        GRAPHENE_MAX_UNDO_HISTORY
  settles :
    ∃ maintained finished,
      evaluators.maintain flags
          (begunState evaluators block before middle).view block =
        .ok maintained ∧
      evaluators.finish flags
          (clearedState (begunState evaluators block before middle)
            maintained).view block = .ok finished

/-- A block whose transactions apply and are within the cpu limit is accepted
exactly if the rest accepts it. -/
theorem applies_iff_restAccepts {evaluators : Evaluators O H W}
    {flags : SkipFlags} {block : TrxBlock O H} {before middle : TrxState O H W}
    (flagsAre : applyFlags checkpoints flags block = .ok flags)
    (builds : before.headBlockId = block.previous)
    (transactions :
      applyTransactions evaluators flags block.body.transactions before =
        .ok middle)
    (cpu : evaluators.withinCpuLimit middle.view block = true) :
    (∃ after,
      applyState (trxRules evaluators checkpoints flags) block before =
        .ok after) ↔
      RestAccepts evaluators flags block before middle := by
  constructor
  · rintro ⟨after, applies⟩
    obtain ⟨other, maintained, finished, applied⟩ :=
      (applyState_trxRules flagsAre).mp applies
    obtain rfl :=
      Except.ok.inj (transactions.symm.trans applied.transactions)
    exact
      { later := applied.later
        header := applied.header
        undoHistory := applied.undoHistory
        settles :=
          ⟨maintained, finished, applied.maintains, applied.finishes⟩ }
  · intro accepts
    obtain ⟨maintained, finished, maintains, finishes⟩ := accepts.settles
    refine ⟨clearedState (begunState evaluators block before middle) finished,
      (applyState_trxRules flagsAre).mpr ⟨middle, maintained, finished, ?_⟩⟩
    exact
      { previous := builds
        later := accepts.later
        header := accepts.header
        transactions := transactions
        cpu := cpu
        undoHistory := accepts.undoHistory
        maintains := maintains
        finishes := finishes
        result := rfl }

theorem pushLinear_returns_iff {B X : Type} {rules : Rules B X}
    {block : Block B} {chain : ChainDatabase B X} :
    (∃ next, pushLinear rules block chain = .ok next) ↔
      ∃ after, applyState rules block chain.state = .ok after := by
  rcases applyAndStore_cases rules block.id block chain with
    ⟨next, returns, applied⟩ | ⟨fault, left, throws, refused⟩
  · constructor
    · intro _
      exact ⟨next.state, applied.applies⟩
    · intro _
      exact ⟨next, by rw [pushLinear, returns]⟩
  · constructor
    · rintro ⟨next, returns⟩
      rw [pushLinear, throws] at returns
      cases returns
    · rintro ⟨after, applies⟩
      exact absurd applies (refused.refused after)

/-- On a fork database that is at the head, a block on the head is pushed
exactly if it applies. -/
theorem pushBlock_returns_iff {B X : Type} {rules : Rules B X} {block : Block B}
    {chain : ChainDatabase B X} {skipForkDb : Bool} (ready : ForkReady 0 chain)
    (builds : block.previous = chain.headBlockId) :
    (∃ next, pushBlock rules skipForkDb block chain = .ok next) ↔
      ∃ after, applyState rules block chain.state = .ok after := by
  cases skipForkDb with
  | true =>
      rw [pushBlock, if_pos rfl]
      exact pushLinear_returns_iff
  | false =>
      obtain ⟨prev, pushed, isHead⟩ := ready.pushed builds
      have linear :
          pushBlock rules false block chain =
            pushLinear rules block
              { chain with
                forkDb :=
                  chain.forkDb.insertItem
                    ⟨chain.forkDb.nextAddress, prev, block⟩ } := by
        simp [pushBlock, pushed, isHead, builds]
      rw [linear]
      exact pushLinear_returns_iff

/-- `push_block` returns exactly if `_push_block` does. -/
theorem pushBlockAmongPending_returns_iff {evaluators : Evaluators O H W}
    {flags : SkipFlags} {block : TrxBlock O H} :
    (∃ after,
      pushBlockAmongPending evaluators checkpoints flags block db =
        .ok after) ↔
      ∃ next,
        pushBlock (trxRules evaluators checkpoints flags) flags.forkDb
          block db.chain = .ok next := by
  have same :=
    @pushBlockTx_db O H W (trxRules evaluators checkpoints flags)
      flags.forkDb block ⟨db.chain, db.poppedTx⟩
  rw [← same, pushBlockAmongPending]
  cases pushBlockTx (trxRules evaluators checkpoints flags) flags.forkDb
      block ⟨db.chain, db.poppedTx⟩ with
  | ok switching =>
      constructor
      · intro _
        exact ⟨switching.db, rfl⟩
      · intro _
        exact ⟨_, rfl⟩
  | throw fault switching =>
      constructor
      · rintro ⟨after, returns⟩
        cases returns
      · rintro ⟨next, returns⟩
        cases returns

/-- The transactions that `_generate_block` packs. -/
def Producer.selectPending
    (producer : Producer O H W) (skip : SkipFlags)
    (db : PendingDatabase O H W) : Selection O H W :=
  producer.select skip (producer.maximumBlockSize db.state.rest.world)
    db.chain.state db.pendingTx

/-- The block that `_generate_block` packs. -/
def Producer.packedBlock
    (producer : Producer O H W) (skip : SkipFlags) (when : UInt32)
    (witness : WitnessId) (key : Nat) (db : PendingDatabase O H W) :
    TrxBlock O H :=
  producer.makeBlock skip when witness key db.chain.state
    (producer.selectPending skip db).transactions

/-- The production ends with a block within both limits that is accepted on the
head block it was made for. -/
structure Producer.Produces
    (producer : Producer O H W) (checkpoints : Checkpoints)
    (skip : SkipFlags) (when : UInt32) (witness : WitnessId) (key : Nat)
    (db : PendingDatabase O H W) (block : TrxBlock O H) : Prop where
  returns :
    ∃ after,
      producer.generateBlock checkpoints skip when witness key db =
        .ok (block, after)
  fits :
    producer.blockSize block.witness block.body.transactions ≤
      producer.maximumBlockSize db.chain.state.rest.world
  withinCpu :
    producer.cpuTime block.body.transactions ≤
      producer.blockCpuLimit db.chain.state.rest.world
  accepted :
    ∃ after,
      applyState
          (trxRules producer.evaluators checkpoints (productionFlags skip))
          block db.chain.state = .ok after

theorem pushPacked_eq_ok
    {block packed : TrxBlock O H} {after : PendingDatabase O H W} :
    producer.pushPacked checkpoints skip packed db = .ok (block, after) ↔
      block = packed ∧
      pushBlockAmongPending producer.evaluators checkpoints
        (productionFlags skip) packed { db with pendingSession := none } =
          .ok after := by
  rw [Producer.pushPacked]
  cases pushBlockAmongPending producer.evaluators checkpoints
      (productionFlags skip) packed { db with pendingSession := none } with
  | ok pushed =>
      simp only [Except.ok.injEq, Prod.mk.injEq, Outcome.ok.injEq]
      exact and_congr_left fun _ => eq_comm
  | throw fault left => simp

/-- `_generate_block` returns exactly if the block fits, or the check is
skipped, and `_push_block` returns. -/
theorem generateBlock_eq_ok
    {block : TrxBlock O H} {after : PendingDatabase O H W}
    (scheduled :
      producer.checkSchedule skip when witness key db.state = .ok ()) :
    producer.generateBlock checkpoints skip when witness key db =
        .ok (block, after) ↔
      block = producer.packedBlock skip when witness key db ∧
      (skip.blockSizeCheck = true ∨
        producer.blockSize witness
            (producer.selectPending skip db).transactions ≤
          producer.maximumBlockSize db.chain.state.rest.world) ∧
      pushBlockAmongPending producer.evaluators checkpoints
        (productionFlags skip) block { db with pendingSession := none } =
          .ok after := by
  constructor
  · intro returns
    obtain ⟨_, _, returns⟩ := bind_eq_ok.mp returns
    obtain ⟨_, fits, returns⟩ := bind_eq_ok.mp returns
    obtain ⟨isBlock, pushed⟩ := pushPacked_eq_ok.mp returns
    refine ⟨isBlock, require_eq_ok.mp fits, ?_⟩
    rw [isBlock]
    exact pushed
  · rintro ⟨rfl, fits, pushed⟩
    refine bind_eq_ok.mpr ⟨(), scheduled, ?_⟩
    refine bind_eq_ok.mpr ⟨⟨⟩, require_eq_ok.mpr fits, ?_⟩
    exact pushPacked_eq_ok.mpr ⟨rfl, pushed⟩

end Producing

section Receipts

/-- A contract call with a receipt for every account whose memory it bills; some
calls change how many that are. -/
structure CallRecord where
  size : Nat
  receipts : Nat
  writes : Option Nat
  deriving DecidableEq, Repr

/-- The world is the number of accounts that a call bills. -/
def callProducer : Producer CallRecord Unit Nat where
  work :=
    { maximumTimeUntilExpiration := fun _ => 86400
      validate := fun _ => true
      verifyAuthority := fun _ _ => true
      taposMatches := fun _ _ => true
      applyOperations := fun _ view trx =>
        .ok (trx.contents.writes.getD view.rest.2)
      validateBlock := fun _ _ _ => true
      withinCpuLimit := fun _ _ => true
      updateGlobalDynamicData := fun view _ => view.rest.2
      maintain := fun _ view _ => .ok (view.activeWitnesses, view.rest.2)
      finish := fun _ view _ => .ok (view.activeWitnesses, view.rest.2) }
  execute := fun _ _ view trx =>
    .ok ({ trx.contents with receipts := view.rest.2 },
      trx.contents.writes.getD view.rest.2)
  packSize := fun contents => contents.size + 18 * contents.receipts
  billedCpuTimes := fun _ => [900]
  headerPackSize := fun witness => 110 + unsignedIntSize witness
  maximumBlockSize := fun _ => 5120
  blockCpuLimit := fun _ => 200000
  getSlotAtTime := fun view when => if view.rest.1 < when then 1 else 0
  getScheduledWitness := fun _ _ => 7
  signingKey := fun _ _ => some 1
  sign := fun _ _ _ _ _ _ => (1, ())

def callState (billed : Nat) : TrxState CallRecord Unit Nat where
  headBlockNum := 0
  headBlockId := .zero
  lastIrreversibleBlockNum := 0
  activeWitnesses := [7]
  lastConfirmedBlockNum := fun _ => 0
  rest := ⟨0, [], billed⟩
  history := []

def callDatabase (billed : Nat) (pending : List (Transaction CallRecord)) :
    PendingDatabase CallRecord Unit Nat where
  chain := ⟨⟨callState billed, [], 1⟩, .empty, fun _ => none⟩
  pendingTx := pending
  pendingSession := none
  poppedTx := []

/-- A call of nearly the size of a block, after which calls bill one account. -/
def longCall : Transaction CallRecord :=
  ⟨1, 60, ⟨4800, 20, some 1⟩⟩

/-- A call with the receipt that it got after `longCall`. -/
def shortCall : Transaction CallRecord :=
  ⟨2, 60, ⟨4800, 1, none⟩⟩

theorem callProducer_reproducible : callProducer.Reproducible := by
  constructor
  · intro round skip view trx contents world executes
    cases executes
    rfl
  · intro round skip view trx contents world executes
    rfl
  · intro round skip view trx contents world executes
    rfl
  · intro round skip view trx contents world executes
    rfl

theorem callDatabase_ready
    (billed : Nat) (pending : List (Transaction CallRecord)) :
    ForkReady 0 (callDatabase billed pending).chain :=
  ⟨Nat.succ_pos 1023, Or.inl rfl⟩

end Receipts

end GxbCore.Chain
