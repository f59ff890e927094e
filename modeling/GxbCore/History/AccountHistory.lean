import GxbCore.Lib.Fallible
import Mathlib.Algebra.Group.Nat.Defs
import Mathlib.Data.List.Sort

/-!
# The account history plugin

After each block the plugin stores the operations the block applied and links
each of them into the history list of every account it concerns.  The newest
entry of an account is `mostRecentOp` of its statistics, an entry points to the
next older one, and `totalOps` and `removedOps` count the entries made and the
entries pruned; both are 32-bit counters.

What an operation says about accounts is read through `OperationReader`: the
visitors over the operation types are long, and the lists do not depend on
them.
-/

namespace GxbCore.History

/-- The two 32-bit counters of the statistics wrap around here. -/
def counterRange : Nat :=
  2 ^ 32

/-- A difference of two 32-bit counters. -/
def counterSub (left right : Nat) : Nat :=
  (left + counterRange - right) % counterRange

/-- `account_transaction_history_id_type()`: the id with instance zero, which
is also the id of the first entry ever made. -/
def nullEntryId : Nat :=
  0

/-- The fields of `account_statistics_object` the plugin keeps. -/
structure AccountStatistics where
  mostRecentOp : Nat
  totalOps : Nat
  removedOps : Nat
  deriving DecidableEq, Repr

def AccountStatistics.fresh : AccountStatistics :=
  { mostRecentOp := nullEntryId, totalOps := 0, removedOps := 0 }

/-- `account_transaction_history_object`, a node of an account's list. -/
structure AccountTransactionHistory where
  id : Nat
  account : Nat
  operationId : Nat
  sequence : Nat
  next : Nat
  deriving DecidableEq, Repr

/-- The entry with this id becomes the last of its list. -/
def AccountTransactionHistory.cut
    (id : Nat) (entry : AccountTransactionHistory) :
    AccountTransactionHistory :=
  if entry.id = id then { entry with next := nullEntryId } else entry

/-- What `operation_history_object` records of an applied operation. -/
structure Applied (Op Result : Type) where
  op : Op
  result : Result
  blockNum : Nat
  trxInBlock : Nat
  opInTrx : Nat
  virtualOp : Nat
  deriving DecidableEq, Repr

/-- `operation_history_object`; the object made only to use up an id stays
empty. -/
structure OperationHistory (Op Result : Type) where
  id : Nat
  contents : Option (Applied Op Result)
  deriving DecidableEq, Repr

/-- The exceptions of the callback. -/
inductive HistoryError where
  | unableToFindObject
  | uniquenessViolated
  | wrongResultType
  deriving DecidableEq, Repr

/-- The objects of the plugin and the statistics of the accounts, which are
numbered in the order they were created.  The two `old` fields are the index
positions that the undo session on top has written down. -/
structure Tables (Op Result : Type) where
  statistics : List AccountStatistics
  entries : List AccountTransactionHistory
  operations : List (OperationHistory Op Result)
  nextEntryId : Nat
  nextOperationId : Nat
  oldNextEntryId : Option Nat
  oldNextOperationId : Option Nat
  undoEnabled : Bool
  deriving DecidableEq, Repr

/-- The plugin's options; `trackedAccounts` is a `flat_set`. -/
structure Config where
  trackedAccounts : List Nat
  partialOperations : Bool
  maxOpsPerAccount : Nat
  deriving DecidableEq, Repr

/-- `operation_get_required_authorities`, `operation_get_impacted_accounts`
and the test for `account_create_operation`. -/
structure OperationReader (Op Result : Type) where
  requiredAccounts : Op → List Nat
  otherAuthorities : Op → List (List Nat)
  impactedAccounts : Op → List Nat
  isAccountCreate : Op → Bool
  objectResult : Result → Option Nat

variable {Op Result : Type}

/-- `flat_set::insert`. -/
def flatInsert (account : Nat) : List Nat → List Nat
  | [] => [account]
  | first :: rest =>
      if account < first then
        account :: first :: rest
      else if account = first then
        first :: rest
      else
        first :: flatInsert account rest

/-- `flat_set::insert` of several accounts, one after the other. -/
def flatInsertAll (accounts impacted : List Nat) : List Nat :=
  accounts.foldl (fun found account => flatInsert account found) impacted

/-- The accounts an operation is put into the history of. -/
def OperationReader.impacted
    (reader : OperationReader Op Result)
    (applied : Applied Op Result) :
    Except HistoryError (List Nat) := do
  let required := flatInsertAll (reader.requiredAccounts applied.op) []
  let others := (reader.otherAuthorities applied.op).flatten
  if reader.isAccountCreate applied.op then
    let created ←
      orThrow (reader.objectResult applied.result) .wrongResultType
    return flatInsertAll others (flatInsert created required)
  else
    return flatInsertAll others
      (flatInsertAll (reader.impactedAccounts applied.op) required)

namespace Tables

/-- `account_id(db).statistics(db)`. -/
def statisticsOf (tables : Tables Op Result) (accountId : Nat) :
    Except HistoryError AccountStatistics :=
  orThrow tables.statistics[accountId]? .unableToFindObject

def setStatistics
    (tables : Tables Op Result) (accountId : Nat)
    (stats : AccountStatistics) : Tables Op Result :=
  { tables with statistics := tables.statistics.set accountId stats }

def entriesOf (tables : Tables Op Result) (accountId : Nat) :
    List AccountTransactionHistory :=
  tables.entries.filter fun entry => entry.account = accountId

/-- The part of the index by account and sequence that belongs to one
account. -/
def bySeq (tables : Tables Op Result) (accountId : Nat) :
    List AccountTransactionHistory :=
  (tables.entriesOf accountId).insertionSort
    fun left right => left.sequence ≤ right.sequence

/-- Whether some entry refers to the operation, from the index by operation
id. -/
def isReferenced (tables : Tables Op Result) (operationId : Nat) : Bool :=
  tables.entries.any fun entry => entry.operationId = operationId

/-- Whether a new entry would share a key of a unique index with another. -/
def clashes (tables : Tables Op Result)
    (entry : AccountTransactionHistory) : Bool :=
  tables.entries.any fun other =>
    other.id = entry.id ||
      (other.account = entry.account &&
        (other.sequence = entry.sequence ||
          other.operationId = entry.operationId))

/-- `undo_database::on_create`: the position of the index is written down at
the first creation of the session. -/
def noteNextId (undoEnabled : Bool) (nextId : Nat) (old : Option Nat) :
    Option Nat :=
  if undoEnabled && old.isNone then some nextId else old

/-- The new entry goes in under the next id. -/
def insertEntry
    (tables : Tables Op Result) (entry : AccountTransactionHistory) :
    Tables Op Result :=
  { tables with
    entries := tables.entries ++ [entry]
    nextEntryId := tables.nextEntryId + 1
    oldNextEntryId :=
      noteNextId tables.undoEnabled tables.nextEntryId
        tables.oldNextEntryId }

/-- `db.create<account_transaction_history_object>`. -/
def createEntry
    (tables : Tables Op Result) (accountId operationId : Nat)
    (sequence next : Nat) :
    Except HistoryError (AccountTransactionHistory × Tables Op Result) := do
  let entry : AccountTransactionHistory :=
    { id := tables.nextEntryId
      account := accountId
      operationId := operationId
      sequence := sequence
      next := next }
  require (tables.clashes entry = false) .uniquenessViolated
  return (entry, tables.insertEntry entry)

def removeEntry (tables : Tables Op Result) (id : Nat) : Tables Op Result :=
  { tables with
    entries := tables.entries.filter fun entry => entry.id ≠ id }

/-- The entry becomes the last one of its list. -/
def cutNext (tables : Tables Op Result) (id : Nat) : Tables Op Result :=
  { tables with
    entries := tables.entries.map (AccountTransactionHistory.cut id) }

/-- `db.create<operation_history_object>`. -/
def createOperation
    (tables : Tables Op Result) (contents : Option (Applied Op Result)) :
    Except HistoryError (Nat × Tables Op Result) := do
  require (∀ other ∈ tables.operations, other.id ≠ tables.nextOperationId)
    .uniquenessViolated
  return (tables.nextOperationId,
    { tables with
      operations := tables.operations ++
        [{ id := tables.nextOperationId, contents := contents }]
      nextOperationId := tables.nextOperationId + 1
      oldNextOperationId :=
        noteNextId tables.undoEnabled tables.nextOperationId
          tables.oldNextOperationId })

/-- `db.remove( remove_op_id(db) )`. -/
def removeOperation (tables : Tables Op Result) (id : Nat) :
    Except HistoryError (Tables Op Result) := do
  require (∃ operation ∈ tables.operations, operation.id = id)
    .unableToFindObject
  return { tables with
    operations := tables.operations.filter fun operation => operation.id ≠ id }

/-- `_oho_index->use_next_id()`, which no undo session hears of. -/
def useNextOperationId (tables : Tables Op Result) : Tables Op Result :=
  { tables with nextOperationId := tables.nextOperationId + 1 }

end Tables

/-- The pointer of the entry that is now the oldest is cut, when there is
one. -/
def cutOldest
    (rest : List AccountTransactionHistory) (tables : Tables Op Result) :
    Tables Op Result :=
  match rest with
  | oldest :: _ => tables.cutNext oldest.id
  | [] => tables

/-- An operation no entry refers to any more is removed, unless all operations
are kept. -/
def dropUnreferenced
    (config : Config) (operationId : Nat) (tables : Tables Op Result) :
    Except HistoryError (Tables Op Result) :=
  if config.partialOperations && !tables.isReferenced operationId then
    tables.removeOperation operationId
  else
    .ok tables

/-- The second half of `add_account_history`: the earliest entry goes when the
account has too many, but never the one just made. -/
def pruneEarliest
    (config : Config) (accountId newest : Nat) (stats : AccountStatistics)
    (tables : Tables Op Result) :
    Except HistoryError (Tables Op Result) :=
  if config.maxOpsPerAccount <
      counterSub stats.totalOps stats.removedOps then
    match tables.bySeq accountId with
    | earliest :: rest =>
        if earliest.id ≠ newest then
          dropUnreferenced config earliest.operationId
            (cutOldest rest
              ((tables.removeEntry earliest.id).setStatistics accountId
                { stats with
                  removedOps := (stats.removedOps + 1) % counterRange }))
        else
          .ok tables
    | [] => .ok tables
  else
    .ok tables

def addAccountHistory
    (config : Config) (operationId : Nat) (tables : Tables Op Result)
    (accountId : Nat) :
    Except HistoryError (Tables Op Result) := do
  let stats ← tables.statisticsOf accountId
  let (entry, linked) ←
    tables.createEntry accountId operationId
      ((stats.totalOps + 1) % counterRange) stats.mostRecentOp
  let grown : AccountStatistics :=
    { stats with mostRecentOp := entry.id, totalOps := entry.sequence }
  pruneEarliest config accountId entry.id grown
    (linked.setStatistics accountId grown)

/-- What the callback carries from one operation to the next: the tables, and
whether no id of an operation has been used yet. -/
structure Callback (Op Result : Type) where
  tables : Tables Op Result
  isFirst : Bool
  deriving DecidableEq, Repr

namespace Callback

/-- `skip_oho_id`.  The first skip of a block makes an object and removes it
again, so that the undo session hears of the id. -/
def skipOhoId (callback : Callback Op Result) :
    Except HistoryError (Callback Op Result) :=
  if callback.isFirst && callback.tables.undoEnabled then do
    let (id, made) ← callback.tables.createOperation none
    let removed ← made.removeOperation id
    return { tables := removed, isFirst := false }
  else
    .ok { callback with tables := callback.tables.useNextOperationId }

def createOho
    (applied : Applied Op Result) (callback : Callback Op Result) :
    Except HistoryError (Option Nat × Callback Op Result) := do
  let (id, made) ← callback.tables.createOperation (some applied)
  return (some id, { tables := made, isFirst := false })

/-- `create_oho` when it has not been called for this operation. -/
def createOnce
    (applied : Applied Op Result)
    (oho : Option Nat) (callback : Callback Op Result) :
    Except HistoryError (Option Nat × Callback Op Result) :=
  match oho with
  | some id => .ok (some id, callback)
  | none => callback.createOho applied

/-- The operation is stored at once when all operations are kept. -/
def createUnlessPartial
    (config : Config) (applied : Applied Op Result)
    (callback : Callback Op Result) :
    Except HistoryError (Option Nat × Callback Op Result) :=
  if config.partialOperations then
    .ok (none, callback)
  else
    callback.createOho applied

/-- `add_account_history( account_id, oho->id )`. -/
def link
    (config : Config) (oho : Option Nat) (callback : Callback Op Result)
    (accountId : Nat) :
    Except HistoryError (Callback Op Result) := do
  let id ← orThrow oho .unableToFindObject
  let linked ← addAccountHistory config id callback.tables accountId
  return { callback with tables := linked }

end Callback

/-- An operation of the block while its accounts are visited: the id it was
stored under, if it was. -/
abbrev Stored (Op Result : Type) :=
  Option Nat × Callback Op Result

/-- The operation is stored when it concerns some account. -/
def storeImpacted
    (applied : Applied Op Result) (impacted : List Nat)
    (stored : Stored Op Result) :
    Except HistoryError (Stored Op Result) :=
  if impacted.isEmpty then
    .ok stored
  else
    stored.2.createOnce applied stored.1

/-- The operation is linked into the list of every account it concerns. -/
def linkEach
    (config : Config) (impacted : List Nat) (stored : Stored Op Result) :
    Except HistoryError (Callback Op Result) :=
  if 0 < config.maxOpsPerAccount then
    impacted.foldlM (Callback.link config stored.1) stored.2
  else
    .ok stored.2

/-- The branch for all accounts being tracked. -/
def linkImpacted
    (config : Config) (applied : Applied Op Result) (impacted : List Nat)
    (stored : Stored Op Result) :
    Except HistoryError (Stored Op Result) := do
  let made ← storeImpacted applied impacted stored
  let linked ← linkEach config impacted made
  return (made.1, linked)

/-- One round of the loop over the tracked accounts. -/
def linkTracked
    (config : Config) (applied : Applied Op Result) (impacted : List Nat)
    (stored : Stored Op Result) (accountId : Nat) :
    Except HistoryError (Stored Op Result) :=
  if accountId ∈ impacted then do
    let (oho, callback) ← stored.2.createOnce applied stored.1
    let linked ← callback.link config oho accountId
    return (oho, linked)
  else
    .ok stored

/-- The branch on `_tracked_accounts.size()`. -/
def linkAccounts
    (config : Config) (applied : Applied Op Result) (impacted : List Nat)
    (stored : Stored Op Result) :
    Except HistoryError (Stored Op Result) :=
  if config.trackedAccounts = [] then
    linkImpacted config applied impacted stored
  else if 0 < config.maxOpsPerAccount then
    config.trackedAccounts.foldlM (linkTracked config applied impacted) stored
  else
    .ok stored

/-- An operation that was not stored still uses up an id. -/
def skipUnlessStored (config : Config) (stored : Stored Op Result) :
    Except HistoryError (Callback Op Result) :=
  if config.partialOperations && stored.1.isNone then
    stored.2.skipOhoId
  else
    .ok stored.2

/-- One round of the loop of `update_account_histories`. -/
def updateOne
    (config : Config) (reader : OperationReader Op Result)
    (callback : Callback Op Result)
    (recorded : Option (Applied Op Result)) :
    Except HistoryError (Callback Op Result) :=
  match recorded with
  | none => callback.skipOhoId
  | some applied =>
      if config.maxOpsPerAccount = 0 ∧ config.partialOperations = true then
        callback.skipOhoId
      else do
        let stored ← callback.createUnlessPartial config applied
        let impacted ← reader.impacted applied
        let linked ← linkAccounts config applied impacted stored
        skipUnlessStored config linked

/-- `update_account_histories`, called when a block has been applied. -/
def updateAccountHistories
    (config : Config) (reader : OperationReader Op Result)
    (appliedOps : List (Option (Applied Op Result)))
    (tables : Tables Op Result) :
    Except HistoryError (Tables Op Result) := do
  let callback ←
    appliedOps.foldlM (updateOne config reader)
      { tables := tables, isFirst := true }
  return callback.tables

/-- A block, as far as the plugin sees it: how many accounts it creates, and
the operations it applied. -/
structure Block (Op Result : Type) where
  created : Nat
  appliedOps : List (Option (Applied Op Result))

/-- The objects as they were when an undo session started, and what the
session below had written down by then. -/
structure Saved (Op Result : Type) where
  statistics : List AccountStatistics
  entries : List AccountTransactionHistory
  operations : List (OperationHistory Op Result)
  oldNextEntryId : Option Nat
  oldNextOperationId : Option Nat

/-- The tables with the undo sessions of the blocks that can still be
popped. -/
structure Node (Op Result : Type) where
  tables : Tables Op Result
  sessions : List (Saved Op Result)
  maxSize : Nat

namespace Tables

def save (tables : Tables Op Result) : Saved Op Result :=
  { statistics := tables.statistics
    entries := tables.entries
    operations := tables.operations
    oldNextEntryId := tables.oldNextEntryId
    oldNextOperationId := tables.oldNextOperationId }

/-- `undo_database::undo`: the objects go back to what they were; an index goes
back to the position that was written down, if one was. -/
def undo (tables : Tables Op Result) (saved : Saved Op Result) :
    Tables Op Result :=
  { statistics := saved.statistics
    entries := saved.entries
    operations := saved.operations
    nextEntryId := tables.oldNextEntryId.getD tables.nextEntryId
    nextOperationId := tables.oldNextOperationId.getD tables.nextOperationId
    oldNextEntryId := saved.oldNextEntryId
    oldNextOperationId := saved.oldNextOperationId
    undoEnabled := tables.undoEnabled }

def createAccounts (tables : Tables Op Result) (created : Nat) :
    Tables Op Result :=
  { tables with
    statistics :=
      tables.statistics ++ List.replicate created AccountStatistics.fresh }

end Tables

namespace Node

/-- `undo_database::start_undo_session`. -/
def startUndoSession (node : Node Op Result) : Node Op Result :=
  if node.tables.undoEnabled then
    { node with
      tables :=
        { node.tables with
          oldNextEntryId := none
          oldNextOperationId := none }
      sessions := node.tables.save :: node.sessions.take node.maxSize }
  else
    node

/-- A block is applied inside a session: its operations first, the callback
last.  An exception of the callback makes the block fail. -/
def applyBlock
    (config : Config) (reader : OperationReader Op Result)
    (block : Block Op Result) (node : Node Op Result) :
    Except HistoryError (Node Op Result) := do
  let started := node.startUndoSession
  let tables ←
    updateAccountHistories config reader block.appliedOps
      (started.tables.createAccounts block.created)
  return { started with tables := tables }

def popBlock (node : Node Op Result) : Option (Node Op Result) :=
  match node.sessions with
  | [] => none
  | saved :: older =>
      some { node with tables := node.tables.undo saved, sessions := older }

def genesis (accounts maxSize : Nat) (undoEnabled : Bool) : Node Op Result :=
  { tables :=
      { statistics := List.replicate accounts AccountStatistics.fresh
        entries := []
        operations := []
        nextEntryId := 0
        nextOperationId := 0
        oldNextEntryId := none
        oldNextOperationId := none
        undoEnabled := undoEnabled }
    sessions := []
    maxSize := maxSize }

end Node

end GxbCore.History
