import GxbCore.Chain.PushBlock
import GxbCore.Lib.Fallible

/-!
# Blocks of transactions

What `push_block` makes of a block, with its transactions in view: the checks of
`_apply_transaction` and the flags that skip them, the index of recent
transactions that finds duplicates, and the checkpoints below which nothing is
checked.

The operations of a transaction, the checks of a block header, maintenance and
the other work at the end of a block are the parameter `Evaluators`.  They see
all objects but the index of recent transactions.
-/

namespace GxbCore.Chain

/-- `validation_steps` -/
structure SkipFlags where
  witnessSignature : Bool
  transactionSignatures : Bool
  transactionDupeCheck : Bool
  forkDb : Bool
  blockSizeCheck : Bool
  taposCheck : Bool
  authorityCheck : Bool
  merkleCheck : Bool
  assertEvaluation : Bool
  undoHistoryCheck : Bool
  witnessScheduleCheck : Bool
  validate : Bool
  deriving DecidableEq, Repr

def skipNothing : SkipFlags where
  witnessSignature := false
  transactionSignatures := false
  transactionDupeCheck := false
  forkDb := false
  blockSizeCheck := false
  taposCheck := false
  authorityCheck := false
  merkleCheck := false
  assertEvaluation := false
  undoHistoryCheck := false
  witnessScheduleCheck := false
  validate := false

/-- `~0` -/
def skipEverything : SkipFlags where
  witnessSignature := true
  transactionSignatures := true
  transactionDupeCheck := true
  forkDb := true
  blockSizeCheck := true
  taposCheck := true
  authorityCheck := true
  merkleCheck := true
  assertEvaluation := true
  undoHistoryCheck := true
  witnessScheduleCheck := true
  validate := true

/-- `processed_transaction`; `contents` are the operations and their results, the
signatures and the reference block. -/
structure Transaction (O : Type) where
  id : Nat
  expiration : UInt32
  contents : O
  deriving DecidableEq, Repr

/-- What a block says besides its predecessor, id and witness. -/
structure Payload (O H : Type) where
  timestamp : UInt32
  transactions : List (Transaction O)
  header : H
  deriving DecidableEq, Repr

/-- The objects: the head block time, the index of recent transactions and all
others. -/
structure Objects (O W : Type) where
  headBlockTime : UInt32
  transactionIndex : List (Transaction O)
  world : W
  deriving DecidableEq, Repr

abbrev TrxBlock (O H : Type) :=
  Block (Payload O H)

abbrev TrxState (O H W : Type) :=
  ChainState (Payload O H) (Objects O W)

/-- Everything but the index of recent transactions. -/
abbrev TrxView (O H W : Type) :=
  ChainState (Payload O H) (UInt32 × W)

variable {O H W : Type}

/-- What the evaluators see. -/
def ChainState.view (state : TrxState O H W) : TrxView O H W where
  headBlockNum := state.headBlockNum
  headBlockId := state.headBlockId
  lastIrreversibleBlockNum := state.lastIrreversibleBlockNum
  activeWitnesses := state.activeWitnesses
  lastConfirmedBlockNum := state.lastConfirmedBlockNum
  rest := (state.rest.headBlockTime, state.rest.world)
  history := state.history

/-- The code that is not modelled.  `validateBlock` are the checks of the merkle
root and the witness; `finish` is what follows `clear_expired_transactions`. -/
structure Evaluators (O H W : Type) where
  maximumTimeUntilExpiration : W → UInt32
  validate : Transaction O → Bool
  verifyAuthority : W → Transaction O → Bool
  taposMatches : W → Transaction O → Bool
  applyOperations :
    SkipFlags → TrxView O H W → Transaction O → Except Nat W
  validateBlock : SkipFlags → TrxView O H W → TrxBlock O H → Bool
  withinCpuLimit : TrxView O H W → TrxBlock O H → Bool
  updateGlobalDynamicData : TrxView O H W → TrxBlock O H → W
  maintain :
    SkipFlags → TrxView O H W → TrxBlock O H →
      Except Nat (List WitnessId × W)
  finish :
    SkipFlags → TrxView O H W → TrxBlock O H →
      Except Nat (List WitnessId × W)

def isKnownTransaction (state : TrxState O H W) (id : Nat) : Bool :=
  state.rest.transactionIndex.any fun trx => decide (trx.id = id)

def invalidTransaction : Nat := 1
def duplicatedTransaction : Nat := 2
def missingAuthority : Nat := 3
def taposMismatch : Nat := 4
def expirationTooLate : Nat := 5
def transactionExpired : Nat := 6
def invalidBlockHeader : Nat := 7
def blockCpuLimit : Nat := 8
def undoHistoryExceeded : Nat := 9
def checkpointMismatch : Nat := 10
def timestampNotLater : Nat := 11

/-- The index after `create<transaction_object>`, if it is called. -/
def recordTransaction (flags : SkipFlags) (trx : Transaction O)
    (index : List (Transaction O)) : List (Transaction O) :=
  if flags.transactionDupeCheck then index else trx :: index

def applyTransaction (evaluators : Evaluators O H W) (flags : SkipFlags)
    (trx : Transaction O) (state : TrxState O H W) :
    Except Nat (TrxState O H W) := do
  let now := state.rest.headBlockTime
  let world := state.rest.world
  require (evaluators.validate trx = true) invalidTransaction
  require
    (flags.transactionDupeCheck = true ∨
      isKnownTransaction state trx.id = false) duplicatedTransaction
  require
    (flags.transactionSignatures = true ∨ flags.authorityCheck = true ∨
      evaluators.verifyAuthority world trx = true) missingAuthority
  require
    (state.headBlockNum = 0 ∨ flags.taposCheck = true ∨
      evaluators.taposMatches world trx = true) taposMismatch
  require
    (state.headBlockNum = 0 ∨
      trx.expiration ≤
        now + evaluators.maximumTimeUntilExpiration world)
    expirationTooLate
  require (state.headBlockNum = 0 ∨ now ≤ trx.expiration)
    transactionExpired
  let world ← evaluators.applyOperations flags state.view trx
  .ok
    { state with
      rest :=
        { headBlockTime := now
          transactionIndex :=
            recordTransaction flags trx state.rest.transactionIndex
          world := world } }

/-- The loop over the transactions of a block. -/
def applyTransactions (evaluators : Evaluators O H W)
    (flags : SkipFlags) (transactions : List (Transaction O))
    (state : TrxState O H W) : Except Nat (TrxState O H W) :=
  transactions.foldlM
    (fun state trx => applyTransaction evaluators flags trx state) state

/-- `_checkpoints`, by block number. -/
abbrev Checkpoints :=
  List (Nat × BlockId)

/-- The start of `apply_block`: the flags with which the block is applied. -/
def applyFlags (checkpoints : Checkpoints) (flags : SkipFlags)
    (block : TrxBlock O H) : Except Nat SkipFlags :=
  match checkpoints.getLast? with
  | none => .ok flags
  | some (lastNum, lastId) =>
      if lastId = .zero then
        .ok flags
      else if checkpoints.any
          (fun point =>
            decide (point.1 = block.num) && decide (point.2 ≠ block.id)) then
        .error checkpointMismatch
      else if block.num ≤ lastNum then
        .ok skipEverything
      else
        .ok flags

/-- `_apply_block` up to `update_global_dynamic_data`. -/
def evaluateBlock (evaluators : Evaluators O H W)
    (checkpoints : Checkpoints) (skip : SkipFlags)
    (block : TrxBlock O H) (state : TrxState O H W) :
    Except Nat (Objects O W) := do
  let flags ← applyFlags checkpoints skip block
  require (state.rest.headBlockTime < block.body.timestamp)
    timestampNotLater
  require (evaluators.validateBlock flags state.view block = true)
    invalidBlockHeader
  let state ←
    applyTransactions evaluators flags block.body.transactions state
  require (evaluators.withinCpuLimit state.view block = true)
    blockCpuLimit
  require
    (flags.undoHistoryCheck = true ∨
      block.num - state.lastIrreversibleBlockNum <
        GRAPHENE_MAX_UNDO_HISTORY) undoHistoryExceeded
  .ok
    { headBlockTime := block.body.timestamp
      transactionIndex := state.rest.transactionIndex
      world := evaluators.updateGlobalDynamicData state.view block }

def clearExpiredTransactions (now : UInt32)
    (index : List (Transaction O)) : List (Transaction O) :=
  index.filter fun trx => decide (now ≤ trx.expiration)

/-- `_apply_block` after `update_last_irreversible_block`. -/
def settleBlock (evaluators : Evaluators O H W)
    (checkpoints : Checkpoints) (skip : SkipFlags)
    (block : TrxBlock O H) (state : TrxState O H W) :
    Except Nat (List WitnessId × Objects O W) := do
  let flags ← applyFlags checkpoints skip block
  let maintained ← evaluators.maintain flags state.view block
  let state : TrxState O H W :=
    { state with
      activeWitnesses := maintained.1
      rest :=
        { headBlockTime := state.rest.headBlockTime
          transactionIndex :=
            clearExpiredTransactions state.rest.headBlockTime
              state.rest.transactionIndex
          world := maintained.2 } }
  let finished ← evaluators.finish flags state.view block
  .ok
    (finished.1,
      { headBlockTime := state.rest.headBlockTime
        transactionIndex := state.rest.transactionIndex
        world := finished.2 })

/-- `apply_block` under the caller's flags.  Whether the undo history is checked
depends on the block too, so that check is made in `evaluateBlock`. -/
def trxRules (evaluators : Evaluators O H W) (checkpoints : Checkpoints)
    (skip : SkipFlags) : Rules (Payload O H) (Objects O W) where
  evaluate := evaluateBlock evaluators checkpoints skip
  settle := settleBlock evaluators checkpoints skip
  skipUndoHistoryCheck := true

end GxbCore.Chain
