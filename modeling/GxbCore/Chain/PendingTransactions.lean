import GxbCore.Chain.Transactions

/-!
# Pending transactions around push_block

`push_block` moves the pending transactions out of the way, pushes the block and
then, whether it was accepted or not, tries the transactions of the blocks that
were popped and the pending ones again, one after the other.

The functions of a fork switch are written once more with the list of popped
transactions, which is not part of the object state: nothing takes an entry back
when a switch fails.
-/

namespace GxbCore.Chain

variable {O H W : Type}

/-- The database while a block is pushed, and `_popped_tx`. -/
structure Switching (O H W : Type) where
  db : ChainDatabase (Payload O H) (Objects O W)
  poppedTx : List (Transaction O)

/-- A call that does not pop blocks. -/
def withoutPopping
    (call :
      ChainDatabase (Payload O H) (Objects O W) →
        Outcome ChainFault (ChainDatabase (Payload O H) (Objects O W)))
    (switching : Switching O H W) :
    Outcome ChainFault (Switching O H W) :=
  match call switching.db with
  | .ok db => .ok { switching with db := db }
  | .throw fault db => .throw fault { switching with db := db }

/-- `pop_block` -/
def popBlockTx (held : List (ForkItem (Payload O H)))
    (switching : Switching O H W) :
    Outcome ChainFault (Switching O H W) :=
  match fetchBlockById switching.db switching.db.headBlockId with
  | none => .throw .popEmptyChain switching
  | some headBlock =>
      match popBlock held switching.db with
      | .throw fault db => .throw fault { switching with db := db }
      | .ok db =>
          .ok ⟨db, headBlock.body.transactions ++ switching.poppedTx⟩

/-- The loop that pops until the head is `target`. -/
def popUntilTx (held : List (ForkItem (Payload O H))) (target : BlockId) :
    Nat → Switching O H W → Outcome ChainFault (Switching O H W)
  | 0, switching => .throw .undoStackEmpty switching
  | fuel + 1, switching =>
      if switching.db.headBlockId ≠ target then
        (popBlockTx held switching).bind (popUntilTx held target fuel)
      else
        .ok switching

def popToTx (held : List (ForkItem (Payload O H))) (target : BlockId)
    (switching : Switching O H W) :
    Outcome ChainFault (Switching O H W) :=
  popUntilTx held target (switching.db.objects.saved.length + 1) switching

/-- `restoreBranch` with the popped transactions. -/
def restoreBranchTx (rules : Rules (Payload O H) (Objects O W))
    (switch : Switch (Payload O H)) (bad : List (ForkItem (Payload O H)))
    (fault : ChainFault) (switching : Switching O H W) :
    Outcome ChainFault (Switching O H W) :=
  let fork :=
    bad.foldl (fun fork item => fork.remove switch.held item.id)
      switching.db.forkDb
  let fork := fork.setHead switch.second.head?
  (popToTx switch.held switch.target
    { switching with db := { switching.db with forkDb := fork } }).bind
    fun switching =>
  (forEach
    (fun item : ForkItem (Payload O H) =>
      withoutPopping
        (applyAndStore rules switch.newBlock.id item.block))
    switch.second.reverse switching).bind fun switching =>
  .throw fault switching

/-- `pushBranch` with the popped transactions. -/
def pushBranchTx (rules : Rules (Payload O H) (Objects O W))
    (switch : Switch (Payload O H)) :
    List (ForkItem (Payload O H)) → Switching O H W →
      Outcome ChainFault (Switching O H W)
  | [], switching => .ok switching
  | item :: later, switching =>
      match withoutPopping (applyAndStore rules item.id item.block)
          switching with
      | .ok switching => pushBranchTx rules switch later switching
      | .throw fault switching =>
          restoreBranchTx rules switch (item :: later) fault switching

/-- `switchForks` with the popped transactions. -/
def switchForksTx (rules : Rules (Payload O H) (Objects O W))
    (newBlock : TrxBlock O H) (newHead : ForkItem (Payload O H))
    (switching : Switching O H W) :
    Outcome ChainFault (Switching O H W) :=
  match switching.db.forkDb.fetchBranchFrom newHead.id
      switching.db.headBlockId with
  | none => .throw .branchNotFound switching
  | some (first, second) =>
      let switch : Switch (Payload O H) :=
        ⟨newBlock, newHead, first, second⟩
      (popToTx switch.held switch.target switching).bind
        (pushBranchTx rules switch first.reverse)

/-- `_push_block` with the popped transactions. -/
def pushBlockTx (rules : Rules (Payload O H) (Objects O W))
    (skipForkDb : Bool) (newBlock : TrxBlock O H)
    (switching : Switching O H W) :
    Outcome ChainFault (Switching O H W) :=
  if skipForkDb then
    withoutPopping (pushLinear rules newBlock) switching
  else
    match switching.db.forkDb.pushBlock newBlock with
    | .throw fault _ => .throw fault switching
    | .ok fork =>
        let switching :=
          { switching with db := { switching.db with forkDb := fork } }
        match fork.head with
        | none => withoutPopping (pushLinear rules newBlock) switching
        | some newHead =>
            if newHead.block.previous ≠ switching.db.headBlockId then
              if switching.db.headBlockNum < newHead.num then
                switchForksTx rules newBlock newHead switching
              else
                .ok switching
            else
              withoutPopping (pushLinear rules newBlock) switching

/-- The database with `_pending_tx`, the object state inside
`_pending_tx_session` if there is one, and `_popped_tx`. -/
structure PendingDatabase (O H W : Type) where
  chain : ChainDatabase (Payload O H) (Objects O W)
  pendingTx : List (Transaction O)
  pendingSession : Option (TrxState O H W)
  poppedTx : List (Transaction O)

/-- The object state as calls see it. -/
def PendingDatabase.state (db : PendingDatabase O H W) :
    TrxState O H W :=
  db.pendingSession.getD db.chain.state

/-- `_push_transaction`: the session of pending transactions is started if there
is none, and stays when the transaction is refused. -/
def pushTransaction (evaluators : Evaluators O H W) (skip : SkipFlags)
    (trx : Transaction O) (db : PendingDatabase O H W) :
    Outcome Nat (PendingDatabase O H W) :=
  let db := { db with pendingSession := some db.state }
  match applyTransaction evaluators skip trx db.state with
  | .error code => .throw code db
  | .ok state =>
      .ok
        { db with
          pendingSession := some state
          pendingTx := db.pendingTx ++ [trx] }

/-- One round of the loops in `~pending_transactions_restorer`: an exception is
swallowed. -/
def restoreTransaction (evaluators : Evaluators O H W)
    (skip : SkipFlags) (db : PendingDatabase O H W)
    (trx : Transaction O) : PendingDatabase O H W :=
  if isKnownTransaction db.state trx.id then
    db
  else
    (pushTransaction evaluators skip trx db).state

/-- `~pending_transactions_restorer` -/
def restoreTransactions (evaluators : Evaluators O H W)
    (skip : SkipFlags) (pending : List (Transaction O))
    (switching : Switching O H W) : PendingDatabase O H W :=
  let db : PendingDatabase O H W :=
    { chain := switching.db
      pendingTx := []
      pendingSession := none
      poppedTx := switching.poppedTx }
  let db :=
    switching.poppedTx.foldl (restoreTransaction evaluators skip) db
  let db := { db with poppedTx := [] }
  pending.foldl (restoreTransaction evaluators skip) db

/-- `push_block` -/
def pushBlockAmongPending (evaluators : Evaluators O H W)
    (checkpoints : Checkpoints) (skip : SkipFlags)
    (newBlock : TrxBlock O H) (db : PendingDatabase O H W) :
    Outcome ChainFault (PendingDatabase O H W) :=
  match pushBlockTx (trxRules evaluators checkpoints skip) skip.forkDb
      newBlock ⟨db.chain, db.poppedTx⟩ with
  | .ok switching =>
      .ok (restoreTransactions evaluators skip db.pendingTx switching)
  | .throw fault switching =>
      .throw fault
        (restoreTransactions evaluators skip db.pendingTx switching)

end GxbCore.Chain
