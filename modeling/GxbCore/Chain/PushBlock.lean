import GxbCore.Chain.ForkDatabase
import GxbCore.Lib.Snapshots
import Mathlib.Data.List.Sort

/-!
# push_block: applying, popping and switching forks

The object state is kept in `Snapshots`: `start_undo_session` saves it, the
destructor of a session that was not committed and `pop_undo` go back to the
last one saved.  What the chain logic reads of the objects has fields of its
own; the evaluation of transactions and the maintenance code are the parameter
`Rules`.

`history` is not in the program.  It lists the blocks that were applied to reach
the state, the last one first, so that "the main chain" has a meaning for every
state.
-/

namespace GxbCore.Chain

/-- The objects that the chain logic reads, the rest of them, and the main
chain that led here. -/
structure ChainState (B X : Type) where
  headBlockNum : Nat
  headBlockId : BlockId
  lastIrreversibleBlockNum : Nat
  activeWitnesses : List WitnessId
  lastConfirmedBlockNum : WitnessId → Nat
  rest : X
  history : List (Block B)

/-- What the evaluators do to a block.  `evaluate` is everything before
`update_global_dynamic_data` (merkle root, header, transactions, cpu limit);
`settle` everything after `update_last_irreversible_block` (maintenance, which
may replace the active witnesses, expirations, schedule, observers). -/
structure Rules (B X : Type) where
  evaluate : Block B → ChainState B X → Except Nat X
  settle : Block B → ChainState B X → Except Nat (List WitnessId × X)
  skipUndoHistoryCheck : Bool

/-- `database`, as far as blocks are concerned. -/
structure ChainDatabase (B X : Type) where
  objects : Snapshots (ChainState B X)
  forkDb : ForkDatabase B
  blockLog : BlockLog B

namespace ChainDatabase

variable {B X : Type}

abbrev state (db : ChainDatabase B X) : ChainState B X :=
  db.objects.current

abbrev headBlockId (db : ChainDatabase B X) : BlockId :=
  db.state.headBlockId

abbrev headBlockNum (db : ChainDatabase B X) : Nat :=
  db.state.headBlockNum

end ChainDatabase

section Apply

variable {B X : Type}

def GRAPHENE_MAX_UNDO_HISTORY : Nat :=
  10000

def GRAPHENE_100_PERCENT : Nat :=
  10000

def GRAPHENE_IRREVERSIBLE_THRESHOLD : Nat :=
  7000

/-- The new number in `update_last_irreversible_block`: `nth_element` at an
offset of 30 percent. -/
def irreversibleCandidate (state : ChainState B X) : Nat :=
  let confirmed :=
    state.activeWitnesses.map state.lastConfirmedBlockNum
  let offset :=
    (GRAPHENE_100_PERCENT - GRAPHENE_IRREVERSIBLE_THRESHOLD) *
      confirmed.length / GRAPHENE_100_PERCENT
  (confirmed.insertionSort (· ≤ ·)).getD offset 0

def updateLastIrreversibleBlock (state : ChainState B X) :
    ChainState B X :=
  if state.lastIrreversibleBlockNum < irreversibleCandidate state then
    { state with lastIrreversibleBlockNum := irreversibleCandidate state }
  else
    state

/-- `update_signing_witness`, as far as confirmations are concerned. -/
def updateSigningWitness (block : Block B) (state : ChainState B X) :
    ChainState B X :=
  { state with
    lastConfirmedBlockNum := fun witness =>
      if witness = block.witness then block.num
      else state.lastConfirmedBlockNum witness }

/-- `_apply_block` up to the sizes set in `update_global_dynamic_data`. -/
def beginBlock (rules : Rules B X) (block : Block B)
    (state : ChainState B X) : Except ChainFault (ChainState B X) :=
  if state.headBlockId ≠ block.previous then
    .error .previousMismatch
  else
    match rules.evaluate block state with
    | .error code => .error (.evaluation code)
    | .ok rest =>
        let state :=
          { state with
            headBlockNum := block.num
            headBlockId := block.id
            rest := rest
            history := block :: state.history }
        if rules.skipUndoHistoryCheck ||
            decide
              (state.headBlockNum - state.lastIrreversibleBlockNum <
                GRAPHENE_MAX_UNDO_HISTORY) then
          .ok state
        else
          .error .undoHistory

/-- `_apply_block` after the sizes are set. -/
def finishBlock (rules : Rules B X) (block : Block B)
    (state : ChainState B X) : Except ChainFault (ChainState B X) :=
  let state :=
    updateLastIrreversibleBlock (updateSigningWitness block state)
  match rules.settle block state with
  | .error code => .error (.evaluation code)
  | .ok (active, rest) =>
      .ok { state with activeWitnesses := active, rest := rest }

/-- What `apply_block` does to the object state alone. -/
def applyState (rules : Rules B X) (block : Block B)
    (state : ChainState B X) : Except ChainFault (ChainState B X) :=
  match beginBlock rules block state with
  | .error fault => .error fault
  | .ok begun => finishBlock rules block begun

/-- The size that `update_global_dynamic_data` sets in the fork database. -/
def forkMaxSize (begun : ChainState B X) (fork : ForkDatabase B) : Nat :=
  let headNumber :=
    match fork.head with
    | none => begun.headBlockNum
    | some head => max begun.headBlockNum head.num
  headNumber - begun.lastIrreversibleBlockNum + 1

/-- The two `set_max_size` calls of `update_global_dynamic_data`. -/
def setSizes (begun : ChainState B X) (db : ChainDatabase B X) :
    ChainDatabase B X :=
  { db with
    objects :=
      db.objects.setLimit
        (begun.headBlockNum - begun.lastIrreversibleBlockNum + 1)
    forkDb := db.forkDb.setMaxSize (forkMaxSize begun db.forkDb) }

/-- `apply_block`.  The sizes are not part of the object state: they stay when
the block fails later on. -/
def applyBlock (rules : Rules B X) (block : Block B)
    (db : ChainDatabase B X) : Outcome ChainFault (ChainDatabase B X) :=
  match beginBlock rules block db.state with
  | .error fault => .throw fault db
  | .ok begun =>
      let db := setSizes begun db
      match finishBlock rules block begun with
      | .error fault => .throw fault db
      | .ok finished => .ok { db with objects := db.objects.write finished }

def startUndoSession (db : ChainDatabase B X) : ChainDatabase B X :=
  { db with objects := db.objects.save }

/-- The destructor of a session that was not committed. -/
def undoSession (db : ChainDatabase B X) : ChainDatabase B X :=
  match db.objects.restore with
  | none => db
  | some objects => { db with objects := objects }

/-- A session around `apply_block` and `store`, committed when both return. -/
def applyAndStore (rules : Rules B X) (id : BlockId) (block : Block B)
    (db : ChainDatabase B X) : Outcome ChainFault (ChainDatabase B X) :=
  match applyBlock rules block (startUndoSession db) with
  | .ok db => .ok { db with blockLog := db.blockLog.store id block }
  | .throw fault db => .throw fault (undoSession db)

end Apply

section Pop

variable {B X : Type}

def fetchBlockById (db : ChainDatabase B X) (id : BlockId) :
    Option (Block B) :=
  match db.forkDb.find id with
  | some item => some item.block
  | none => db.blockLog.fetchOptional id

/-- `pop_block`; `held` are the items in local variables of the caller. -/
def popBlock (held : List (ForkItem B)) (db : ChainDatabase B X) :
    Outcome ChainFault (ChainDatabase B X) :=
  match fetchBlockById db db.headBlockId with
  | none => .throw .popEmptyChain db
  | some _ =>
      match db.forkDb.popBlock held with
      | .throw fault _ => .throw fault db
      | .ok fork =>
          let db := { db with forkDb := fork }
          match db.objects.restore with
          | none => .throw .undoStackEmpty db
          | some objects => .ok { db with objects := objects }

/-- The loop that pops until the head is `target`.  Every round takes a
snapshot off the stack, so fuel above their number is enough. -/
def popUntil (held : List (ForkItem B)) (target : BlockId) :
    Nat → ChainDatabase B X → Outcome ChainFault (ChainDatabase B X)
  | 0, db => .throw .undoStackEmpty db
  | fuel + 1, db =>
      if db.headBlockId ≠ target then
        (popBlock held db).bind (popUntil held target fuel)
      else
        .ok db

/-- Pop until the head is `target`. -/
def popTo (held : List (ForkItem B)) (target : BlockId)
    (db : ChainDatabase B X) : Outcome ChainFault (ChainDatabase B X) :=
  popUntil held target (db.objects.saved.length + 1) db

end Pop

section Push

variable {B X : Type}

/-- The two branches of a switch and the block whose push asked for it. -/
structure Switch (B : Type) where
  newBlock : Block B
  newHead : ForkItem B
  first : List (ForkItem B)
  second : List (ForkItem B)

namespace Switch

/-- The items that the local variables of `_push_block` hold. -/
def held (switch : Switch B) : List (ForkItem B) :=
  switch.newHead :: (switch.first ++ switch.second)

/-- `branches.second.back()->data.previous` -/
def target (switch : Switch B) : BlockId :=
  match switch.second.getLast? with
  | none => .zero
  | some item => item.block.previous

end Switch

/-- After a block of the new branch failed: remove it and the rest of the
branch from the fork database, pop what was applied, restore the old branch,
throw again.  The restored blocks are stored under the id of the *new*
block. -/
def restoreBranch (rules : Rules B X) (switch : Switch B)
    (bad : List (ForkItem B)) (fault : ChainFault)
    (db : ChainDatabase B X) : Outcome ChainFault (ChainDatabase B X) :=
  let fork :=
    bad.foldl (fun fork item => fork.remove switch.held item.id)
      db.forkDb
  let fork := fork.setHead switch.second.head?
  (popTo switch.held switch.target { db with forkDb := fork }).bind
    fun db =>
  (forEach
    (fun item : ForkItem B =>
      applyAndStore rules switch.newBlock.id item.block)
    switch.second.reverse db).bind fun db =>
  .throw fault db

/-- The loop that pushes the new branch, the lowest block first. -/
def pushBranch (rules : Rules B X) (switch : Switch B) :
    List (ForkItem B) → ChainDatabase B X →
      Outcome ChainFault (ChainDatabase B X)
  | [], db => .ok db
  | item :: later, db =>
      match applyAndStore rules item.id item.block db with
      | .ok db => pushBranch rules switch later db
      | .throw fault db =>
          restoreBranch rules switch (item :: later) fault db

/-- The fork switch in `_push_block`. -/
def switchForks (rules : Rules B X) (newBlock : Block B)
    (newHead : ForkItem B) (db : ChainDatabase B X) :
    Outcome ChainFault (ChainDatabase B X) :=
  match db.forkDb.fetchBranchFrom newHead.id db.headBlockId with
  | none => .throw .branchNotFound db
  | some (first, second) =>
      let switch : Switch B := ⟨newBlock, newHead, first, second⟩
      (popTo switch.held switch.target db).bind
        (pushBranch rules switch first.reverse)

/-- The end of `_push_block`: the block builds on the head. -/
def pushLinear (rules : Rules B X) (newBlock : Block B)
    (db : ChainDatabase B X) : Outcome ChainFault (ChainDatabase B X) :=
  match applyAndStore rules newBlock.id newBlock db with
  | .ok db => .ok db
  | .throw fault db =>
      .throw fault
        { db with forkDb := db.forkDb.remove [] newBlock.id }

def pushBlock (rules : Rules B X) (skipForkDb : Bool)
    (newBlock : Block B) (db : ChainDatabase B X) :
    Outcome ChainFault (ChainDatabase B X) :=
  if skipForkDb then
    pushLinear rules newBlock db
  else
    match db.forkDb.pushBlock newBlock with
    | .throw fault _ => .throw fault db
    | .ok fork =>
        let db := { db with forkDb := fork }
        match fork.head with
        | none => pushLinear rules newBlock db
        | some newHead =>
            if newHead.block.previous ≠ db.headBlockId then
              if db.headBlockNum < newHead.num then
                switchForks rules newBlock newHead db
              else
                .ok db
            else
              pushLinear rules newBlock db

end Push

end GxbCore.Chain
