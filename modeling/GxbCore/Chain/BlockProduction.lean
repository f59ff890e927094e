import Mathlib.Algebra.Order.BigOperators.Group.List
import Mathlib.Algebra.Order.Ring.Nat
import GxbCore.Chain.PendingTransactions
import GxbCore.Chain.Replay
import GxbCore.Chain.TransactionIndex

/-!
# Producing a block

`_generate_block` applies the pending transactions once more, on the state of
the head block, and packs those that still apply and still fit.  A transaction
is tried when the size it had when it was pushed leaves the block below its
limit; what is added to the block is the size with the results it has now.

Applying a transaction without recorded results measures the time of contract
calls, so `execute` is told the round it is called in.  A block carries the
results, and applying it bills the recorded times.
-/

namespace GxbCore.Chain

variable {O H W : Type}

/-- The code around block production that is not modelled: the evaluators, with
and without recorded results, the packed sizes and the schedule. -/
structure Producer (O H W : Type) where
  work : Evaluators O H W
  execute :
    Nat → SkipFlags → TrxView O H W → Transaction O → Except Nat (O × W)
  packSize : O → Nat
  billedCpuTimes : O → List Nat
  headerPackSize : WitnessId → Nat
  maximumBlockSize : W → Nat
  blockCpuLimit : W → Nat
  getSlotAtTime : TrxView O H W → UInt32 → Nat
  getScheduledWitness : TrxView O H W → Nat → WitnessId
  signingKey : W → WitnessId → Option Nat
  sign :
    SkipFlags → BlockId → UInt32 → WitnessId → Nat → List (Transaction O) →
      Nat × H

/-- The exceptions of `_generate_block`. -/
inductive ProductionFault where
  | notScheduled
  | unknownWitness
  | wrongKey
  | blockTooBig
  | push (fault : ChainFault)
  deriving DecidableEq, Repr

/-- The bytes of an `unsigned_int` below `2 ^ 32`. -/
def unsignedIntSize (number : Nat) : Nat :=
  if number < 128 then 1
  else if number < 16384 then 2
  else if number < 2097152 then 3
  else if number < 268435456 then 4
  else 5

/-- The time that the receipts of these transactions bill. -/
def Producer.cpuTime
    (producer : Producer O H W) (transactions : List (Transaction O)) : Nat :=
  (transactions.map
    fun trx => (producer.billedCpuTimes trx.contents).sum).sum

/-- The evaluators with the check of the block's cpu time. -/
def Producer.evaluators (producer : Producer O H W) : Evaluators O H W :=
  { producer.work with
    withinCpuLimit := fun view block =>
      decide
        (producer.cpuTime block.body.transactions ≤
          producer.blockCpuLimit view.rest.2) }

/-- The evaluators of a round, without recorded results. -/
def Producer.measuring (producer : Producer O H W) (round : Nat) :
    Evaluators O H W :=
  { producer.evaluators with
    applyOperations := fun flags view trx => do
      let executed ← producer.execute round flags view trx
      .ok executed.2 }

/-- `skip | skip_transaction_signatures` -/
def productionFlags (skip : SkipFlags) : SkipFlags :=
  { skip with transactionSignatures := true }

/-- `fc::raw::pack_size` of a block: the header, the number of transactions, the
transactions. -/
def Producer.blockSize
    (producer : Producer O H W) (witness : WitnessId)
    (transactions : List (Transaction O)) : Nat :=
  producer.headerPackSize witness + unsignedIntSize transactions.length +
    (transactions.map fun trx => producer.packSize trx.contents).sum

/-- `_apply_transaction` in the loop of `_generate_block`: the transaction with
its results, and the state after it.  The index keeps the signed transaction, so
that it does not matter which results are written there. -/
def applyMeasured
    (producer : Producer O H W) (round : Nat) (skip : SkipFlags)
    (trx : Transaction O) (state : TrxState O H W) :
    Except Nat (Transaction O × TrxState O H W) := do
  let after ← applyTransaction (producer.measuring round) skip trx state
  let executed ← producer.execute round skip state.view trx
  let processed := { trx with contents := executed.1 }
  .ok (processed,
    { after with
      rest :=
        { after.rest with
          transactionIndex :=
            recordTransaction skip processed
              state.rest.transactionIndex } })

/-- The local variables of the loop. -/
structure Selection (O H W : Type) where
  state : TrxState O H W
  round : Nat
  totalBlockSize : Nat
  newBlockCpu : Nat
  postponedTxCount : Nat
  transactions : List (Transaction O)

/-- What a round of the loop does with a transaction. -/
inductive Decision (O H W : Type) where
  | postponed
  | refused (code : Nat)
  | overCpu (newBlockCpu : Nat)
  | taken (processed : Transaction O) (state : TrxState O H W)
      (newBlockCpu : Nat)

/-- The decision of a round. -/
def Producer.judge
    (producer : Producer O H W) (skip : SkipFlags)
    (maximumBlockSize blockCpuLimit : Nat)
    (selection : Selection O H W) (trx : Transaction O) : Decision O H W :=
  if maximumBlockSize ≤
        selection.totalBlockSize + producer.packSize trx.contents ∨
      blockCpuLimit ≤ selection.newBlockCpu then
    .postponed
  else
    match applyMeasured producer selection.round skip trx
        selection.state with
    | .error code => .refused code
    | .ok (processed, state) =>
        let newBlockCpu :=
          selection.newBlockCpu +
            (producer.billedCpuTimes processed.contents).sum
        if blockCpuLimit ≤ newBlockCpu then
          .overCpu newBlockCpu
        else
          .taken processed state newBlockCpu

/-- A round of the loop.  The time of a transaction that is dropped for it
stays in the sum. -/
def Producer.selectOne
    (producer : Producer O H W) (skip : SkipFlags)
    (maximumBlockSize blockCpuLimit : Nat)
    (selection : Selection O H W) (trx : Transaction O) :
    Selection O H W :=
  let next := { selection with round := selection.round + 1 }
  match producer.judge skip maximumBlockSize blockCpuLimit selection trx with
  | .postponed =>
      { next with postponedTxCount := selection.postponedTxCount + 1 }
  | .refused _ => next
  | .overCpu newBlockCpu =>
      { next with
        newBlockCpu := newBlockCpu
        postponedTxCount := selection.postponedTxCount + 1 }
  | .taken processed state newBlockCpu =>
      { next with
        state := state
        newBlockCpu := newBlockCpu
        totalBlockSize :=
          selection.totalBlockSize + producer.packSize processed.contents
        transactions := selection.transactions ++ [processed] }

/-- The local variables before the loop; `max_block_header_size` is the size
of an empty header, and four bytes more. -/
def Producer.noneSelected
    (producer : Producer O H W) (head : TrxState O H W) :
    Selection O H W :=
  { state := head
    round := 0
    totalBlockSize := producer.headerPackSize 0 + 4
    newBlockCpu := 0
    postponedTxCount := 0
    transactions := [] }

/-- The loop over `_pending_tx`, on the state of the head block. -/
def Producer.select
    (producer : Producer O H W) (skip : SkipFlags)
    (maximumBlockSize : Nat) (head : TrxState O H W)
    (pending : List (Transaction O)) : Selection O H W :=
  pending.foldl
    (producer.selectOne skip maximumBlockSize
      (producer.blockCpuLimit head.rest.world))
    (producer.noneSelected head)

/-- The assertions at the start, on the state with the pending transactions. -/
def Producer.checkSchedule
    (producer : Producer O H W) (skip : SkipFlags) (when : UInt32)
    (witness : WitnessId) (key : Nat) (state : TrxState O H W) :
    Except ProductionFault Unit := do
  let slot := producer.getSlotAtTime state.view when
  require (0 < slot) .notScheduled
  require (producer.getScheduledWitness state.view slot = witness)
    .notScheduled
  let signingKey ←
    orThrow (producer.signingKey state.rest.world witness) .unknownWitness
  require (skip.witnessSignature = true ∨ signingKey = key) .wrongKey

def Producer.makeBlock
    (producer : Producer O H W) (skip : SkipFlags) (when : UInt32)
    (witness : WitnessId) (key : Nat) (head : TrxState O H W)
    (transactions : List (Transaction O)) : TrxBlock O H :=
  let signed :=
    producer.sign skip head.headBlockId when witness key transactions
  { previous := head.headBlockId
    hash := signed.1
    witness := witness
    body :=
      { timestamp := when
        transactions := transactions
        header := signed.2 } }

/-- The call of `push_block` at the end; the session of pending transactions is
gone by then. -/
def Producer.pushPacked
    (producer : Producer O H W) (checkpoints : Checkpoints)
    (skip : SkipFlags) (block : TrxBlock O H)
    (db : PendingDatabase O H W) :
    Except ProductionFault (TrxBlock O H × PendingDatabase O H W) :=
  match pushBlockAmongPending producer.evaluators checkpoints
      (productionFlags skip) block { db with pendingSession := none } with
  | .ok after => .ok (block, after)
  | .throw fault _ => .error (.push fault)

def Producer.generateBlock
    (producer : Producer O H W) (checkpoints : Checkpoints)
    (skip : SkipFlags) (when : UInt32) (witness : WitnessId) (key : Nat)
    (db : PendingDatabase O H W) :
    Except ProductionFault (TrxBlock O H × PendingDatabase O H W) := do
  producer.checkSchedule skip when witness key db.state
  let head := db.chain.state
  let selection :=
    producer.select skip (producer.maximumBlockSize db.state.rest.world)
      head db.pendingTx
  let block :=
    producer.makeBlock skip when witness key head selection.transactions
  require
    (skip.blockSizeCheck = true ∨
      producer.blockSize witness selection.transactions ≤
        producer.maximumBlockSize head.rest.world) .blockTooBig
  producer.pushPacked checkpoints skip block db

end GxbCore.Chain
