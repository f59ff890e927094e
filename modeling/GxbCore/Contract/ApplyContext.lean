import Mathlib.Data.Prod.Lex
import GxbCore.Lib.Rows
import GxbCore.Lib.OrderedRows
import GxbCore.Contract.Tables

/-!
# The table calls of an apply context

The calls a contract makes on its tables: `db_*_i64` on the key-value rows and
`idx64` on the rows of the secondary index.  Both go through the same lookups
and iterator steps, written once over the rows, their order and their cache.
-/

namespace GxbCore.Contract

/-- The execution of one contract: what it has stored, who takes part, what the
transaction context records, and the caches of the two indices. -/
structure ApplyContext where
  store : Store
  sender : Name
  receiver : Name
  trxOrigin : Name
  ramStatistics : Name → Int
  ramUsage : Nat
  keyvalCache : IteratorCache
  itrCache : IteratorCache

/-- A new context; the transaction context may have recorded something before,
in another contract of the same transaction. -/
def ApplyContext.start (store : Store) (sender receiver trxOrigin : Name)
    (ramStatistics : Name → Int) : ApplyContext :=
  { store, sender, receiver, trxOrigin, ramStatistics
    ramUsage := 0
    keyvalCache := .empty
    itrCache := .empty }

section OrderedIndex

variable {ρ κ : Type} [TableRow ρ] [LinearOrder κ]

/-- The composite key of an ordered index: the table first. -/
def compositeKey (key : ρ → κ) (row : ρ) : Nat ×ₗ κ :=
  toLex (TableRow.tId row, key row)

def isRow (pointer : Nat) (row : ρ) : Bool :=
  TableRow.id row == pointer

def deref (rows : List ρ) (pointer : Nat) : Except Fault ρ :=
  orThrow (rows.find? (isRow pointer)) .dangling

def isTable (pointer : Nat) (tab : TableIdObject) : Bool :=
  tab.id == pointer

def derefTable (tables : List TableIdObject) (pointer : Nat) :
    Except Fault TableIdObject :=
  orThrow (tables.find? (isTable pointer)) .dangling

/-- What a lookup or an iterator step answers: the iterator, the row whose keys
it writes to the caller's variables, and the cache afterwards. -/
structure Answer (ρ : Type) where
  iterator : Int
  row : Option ρ
  cache : IteratorCache

def answerRow (cache : IteratorCache) (row : ρ) : Answer ρ :=
  let added := cache.add (TableRow.id row)
  ⟨added.1, some row, added.2⟩

def findTable (tables : List TableIdObject) (code scope table : Name) :
    Option TableIdObject :=
  tables.find? fun tab =>
    tab.code == code && tab.scope == scope && tab.table == table

/-- The lookups: `-1` when there is no such table, its end iterator when no row
is selected. -/
def lookup (tables : List TableIdObject) (cache : IteratorCache)
    (code scope table : Name) (select : Nat → Option ρ) : Answer ρ :=
  match findTable tables code scope table with
  | none => ⟨-1, none, cache⟩
  | some tab =>
      let (tableEnd, cached) := cache.cacheTable tab.id
      match select tab.id with
      | none => ⟨tableEnd, none, cached⟩
      | some row => answerRow cached row

/-- The row a bound is at, when it lies in the table. -/
def inTable (table : Nat) (found : Option ρ) : Option ρ :=
  found.filter fun row => TableRow.tId row == table

/-- `end`: the end iterator of a table. -/
def endOf (tables : List TableIdObject) (cache : IteratorCache)
    (code scope table : Name) : Int × IteratorCache :=
  match findTable tables code scope table with
  | none => (-1, cache)
  | some tab => cache.cacheTable tab.id

/-- `next`: the row after the iterator's, or the end of its table. -/
def next (key : ρ → κ) (rows : List ρ) (cache : IteratorCache)
    (iterator : Int) : Except Fault (Answer ρ) :=
  -- cannot increment past end iterator of table
  if iterator < -1 then
    .ok ⟨-1, none, cache⟩
  else do
    let pointer ← cache.get iterator
    let obj ← deref rows pointer
    let following :=
      firstWhere (compositeKey key)
        (fun row => compositeKey key obj < compositeKey key row) rows
    match inTable (TableRow.tId obj) following with
    | none => do
        let tableEnd ← cache.getEndIteratorByTableId (TableRow.tId obj)
        .ok ⟨tableEnd, none, cache⟩
    | some row => .ok (answerRow cache row)

/-- The last row of a table, behind `upper_bound(tab->id)`. -/
def lastOf (key : ρ → κ) (rows : List ρ) (table : Nat) : Option ρ :=
  inTable table
    (lastWhere (compositeKey key)
      (fun row => TableRow.tId row ≤ table) rows)

/-- The answer of a step backwards: `-1` past the beginning of the table. -/
def answerBack (cache : IteratorCache) (found : Option ρ) : Answer ρ :=
  match found with
  | none => ⟨-1, none, cache⟩
  | some row => answerRow cache row

/-- `previous`: the row before the iterator's, from an end iterator the last row
of its table. -/
def previous (key : ρ → κ) (tables : List TableIdObject) (rows : List ρ)
    (cache : IteratorCache) (iterator : Int) : Except Fault (Answer ρ) :=
  if iterator < -1 then do
    let tab ← cache.findTableByEndIterator iterator
    let pointer ← orThrow tab (.assertion "not a valid end iterator")
    let table ← derefTable tables pointer
    .ok (answerBack cache (lastOf key rows table.id))
  else do
    let pointer ← cache.get iterator
    let obj ← deref rows pointer
    let preceding :=
      lastWhere (compositeKey key)
        (fun row => compositeKey key row < compositeKey key obj) rows
    .ok (answerBack cache (inTable (TableRow.tId obj) preceding))

end OrderedIndex

section Keys

/-- The order of `by_scope_primary` within a table. -/
def KeyValueObject.key (row : KeyValueObject) : Nat :=
  row.primaryKey.toNat

/-- The order of `by_primary` within a table. -/
def Index64Object.byPrimary (row : Index64Object) : Nat :=
  row.primaryKey.toNat

/-- The order of `by_secondary` within a table. -/
def Index64Object.bySecondary (row : Index64Object) : Nat ×ₗ Nat :=
  toLex (row.secondaryKey.toNat, row.primaryKey.toNat)

end Keys

namespace ApplyContext

variable (forks : HardForks) (context : ApplyContext)

section Charging

/-- `head_block_time() > HARDFORK_1016_TIME` -/
def afterHardfork1016 : Prop :=
  forks.hardfork1016Time < context.store.headBlockTime

instance : Decidable (afterHardfork1016 forks context) :=
  inferInstanceAs (Decidable (_ < _))

/-- `check_payer_permission`, with the payer it leaves in its argument -/
def checkPayerPermission (payer : Name) : Except Fault Name :=
  if context.afterHardfork1016 forks then do
    fcAssert
      (0 = payer ∨ payer = context.sender ∨ payer = context.trxOrigin ∨
        payer = context.receiver)
      "db access violation, apayer ${p} not in \x7b0, sender ${s}, origin ${o}, receiver ${r}\x7d"
    .ok (if payer = 0 then context.receiver else payer)
  else
    .ok payer

/-- `transaction_context::update_ram_statistics` -/
def updateRamStatistics (account : Name) (ramDelta : Int) : ApplyContext :=
  if 0 = account then context
  else
    { context with
      ramStatistics :=
        Function.update context.ramStatistics account
          (context.ramStatistics account + ramDelta) }

/-- `update_ram_usage`: a change that would leave the unsigned range is
dropped. -/
def updateRamUsage (ramDelta : Int) : ApplyContext :=
  if 0 ≤ context.ramUsage + ramDelta ∧
      context.ramUsage + ramDelta ≤ 2 ^ 64 - 1 then
    { context with ramUsage := (context.ramUsage + ramDelta).toNat }
  else context

/-- Charge a payer after the hard fork, count the bytes before it. -/
def updateDbUsage (payer : Name) (ramDelta : Int) : ApplyContext :=
  if context.afterHardfork1016 forks then
    context.updateRamStatistics payer ramDelta
  else
    context.updateRamUsage ramDelta

end Charging

section Objects

/-- `_db->modify` on the count of a table object -/
def setCount (tab : TableIdObject) (count : UInt32) : ApplyContext :=
  { context with
    store.tables :=
      replaceFirst (isTable tab.id) { tab with count := count }
        context.store.tables }

def findOrCreateTable (code scope table payer : Name) :
    TableIdObject × ApplyContext :=
  match findTable context.store.tables code scope table with
  | some tab => (tab, context)
  | none =>
      let charged :=
        if context.afterHardfork1016 forks then
          context.updateRamStatistics payer tableIdObjectSize
        else context
      let tab : TableIdObject :=
        { id := context.store.nextTableId
          code, scope, table, payer
          count := 0 }
      (tab,
        { charged with
          store.tables := charged.store.tables ++ [tab]
          store.nextTableId := charged.store.nextTableId + 1 })

def removeTable (tab : TableIdObject) : ApplyContext :=
  let refunded := context.updateRamStatistics tab.payer (-tableIdObjectSize)
  { refunded with
    store.tables := refunded.store.tables.eraseP (isTable tab.id) }

/-- `create<key_value_object>`, unique by table and primary key -/
def createKeyValue (tId : Nat) (payer : Name) (id : UInt64)
    (buffer : List UInt8) : Except Fault (KeyValueObject × ApplyContext) := do
  fcAssert
    (∀ row ∈ context.store.keyValues, ¬(row.tId = tId ∧ row.primaryKey = id))
    "Could not create object! Most likely a uniqueness constraint is violated."
  let fresh : KeyValueObject :=
    { id := context.store.nextKeyValueId
      tId, payer
      primaryKey := id
      value := buffer }
  .ok
    (fresh,
      { context with
        store.keyValues := context.store.keyValues ++ [fresh]
        store.nextKeyValueId := context.store.nextKeyValueId + 1 })

/-- `create<index64_object>`, unique by table and primary key -/
def createIndex64 (tId : Nat) (payer : Name) (id secondary : UInt64) :
    Except Fault (Index64Object × ApplyContext) := do
  fcAssert
    (∀ row ∈ context.store.index64s, ¬(row.tId = tId ∧ row.primaryKey = id))
    "Could not create object! Most likely a uniqueness constraint is violated."
  let fresh : Index64Object :=
    { id := context.store.nextIndex64Id
      tId, payer
      primaryKey := id
      secondaryKey := secondary }
  .ok
    (fresh,
      { context with
        store.index64s := context.store.index64s ++ [fresh]
        store.nextIndex64Id := context.store.nextIndex64Id + 1 })

def setKeyvalCache (cache : IteratorCache) : ApplyContext :=
  { context with keyvalCache := cache }

def setItrCache (cache : IteratorCache) : ApplyContext :=
  { context with itrCache := cache }

/-- The iterator of a stored row, after its table is cached. -/
def rememberKeyValue (tab : TableIdObject) (row : KeyValueObject) :
    Int × ApplyContext :=
  let added := (context.keyvalCache.cacheTable tab.id).2.add row.id
  (added.1, context.setKeyvalCache added.2)

def rememberIndex64 (tab : TableIdObject) (row : Index64Object) :
    Int × ApplyContext :=
  let added := (context.itrCache.cacheTable tab.id).2.add row.id
  (added.1, context.setItrCache added.2)

/-- `_db->modify` on a key-value row -/
def replaceKeyValue (row : KeyValueObject) : ApplyContext :=
  { context with
    store.keyValues :=
      replaceFirst (isRow row.id) row context.store.keyValues }

/-- `_db->remove` on a key-value row -/
def eraseKeyValue (row : KeyValueObject) : ApplyContext :=
  { context with
    store.keyValues := context.store.keyValues.eraseP (isRow row.id) }

/-- `_db->modify` on an index row -/
def replaceIndex64 (row : Index64Object) : ApplyContext :=
  { context with
    store.index64s :=
      replaceFirst (isRow row.id) row context.store.index64s }

/-- `_db->remove` on an index row -/
def eraseIndex64 (row : Index64Object) : ApplyContext :=
  { context with
    store.index64s := context.store.index64s.eraseP (isRow row.id) }

end Objects

section KeyValues

/-- The row is counted since the hard fork only. -/
def countKeyValue (tab : TableIdObject) : ApplyContext :=
  if context.afterHardfork1016 forks then
    context.setCount tab (tab.count + 1)
  else context

/-- The private `db_store_i64`, with the code it stores for -/
def dbStoreI64For (code scope table payer : Name) (id : UInt64)
    (buffer : List UInt8) : Except Fault (Int × ApplyContext) := do
  let payer ← context.checkPayerPermission forks payer
  let made := context.findOrCreateTable forks code scope table payer
  let created ← made.2.createKeyValue made.1.id payer id buffer
  let counted :=
    (created.2.updateDbUsage forks payer
      (buffer.length + keyValueObjectSize)).countKeyValue forks made.1
  .ok (counted.rememberKeyValue made.1 created.1)

def dbStoreI64 (scope table payer : Name) (id : UInt64)
    (buffer : List UInt8) : Except Fault (Int × ApplyContext) := do
  let payer ← context.checkPayerPermission forks payer
  context.dbStoreI64For forks context.receiver scope table payer id buffer

/-- The row and the table an iterator of a cache stands for, the table only when
the receiver is its code. -/
def ownRow {ρ : Type} [TableRow ρ] (cache : IteratorCache) (rows : List ρ)
    (iterator : Int) : Except Fault (ρ × TableIdObject) := do
  let pointer ← cache.get iterator
  let obj ← deref rows pointer
  let table ← cache.getTable (TableRow.tId obj)
  let tableObj ← derefTable context.store.tables table
  fcAssert (tableObj.code = context.receiver) "db access violation"
  .ok (obj, tableObj)

def chargeUpdate (obj : KeyValueObject) (payer : Name)
    (oldSize newSize : Int) : ApplyContext :=
  if obj.payer ≠ payer then
    -- refund the existing payer, charge the new payer
    (context.updateRamStatistics obj.payer (-oldSize)).updateRamStatistics
      payer newSize
  else if oldSize ≠ newSize then
    -- charge/refund the existing payer the difference
    context.updateRamStatistics obj.payer (newSize - oldSize)
  else context

def payUpdate (obj : KeyValueObject) (payer : Name)
    (buffer : List UInt8) : ApplyContext :=
  if context.afterHardfork1016 forks then
    context.chargeUpdate obj payer (obj.value.length + keyValueObjectSize)
      (buffer.length + keyValueObjectSize)
  else
    context.updateRamUsage (buffer.length - obj.value.length)

def dbUpdateI64 (iterator : Int) (payer : Name) (buffer : List UInt8) :
    Except Fault ApplyContext := do
  let payer ← context.checkPayerPermission forks payer
  let found ←
    context.ownRow context.keyvalCache context.store.keyValues iterator
  .ok
    ((context.payUpdate forks found.1 payer buffer).replaceKeyValue
      { found.1 with value := buffer, payer := payer })

/-- The table loses a row; between the two hard forks it goes with its last
one. -/
def countDown (tableObj : TableIdObject) : ApplyContext :=
  if tableObj.count - 1 = 0 ∧
      context.store.headBlockTime ≤ forks.hardfork1020Time then
    (context.setCount tableObj (tableObj.count - 1)).removeTable tableObj
  else
    context.setCount tableObj (tableObj.count - 1)

/-- The row is counted off since the hard fork only. -/
def discountKeyValue (tableObj : TableIdObject) : ApplyContext :=
  if context.afterHardfork1016 forks then context.countDown forks tableObj
  else context

def dbRemoveI64 (iterator : Int) : Except Fault ApplyContext := do
  let found ←
    context.ownRow context.keyvalCache context.store.keyValues iterator
  let discounted :=
    (context.updateDbUsage forks found.1.payer
      (-(found.1.value.length + keyValueObjectSize))).discountKeyValue
        forks found.2
  let cache ← context.keyvalCache.remove iterator
  .ok ((discounted.eraseKeyValue found.1).setKeyvalCache cache)

/-- `db_get_i64`: the size when the buffer is empty, else the number of bytes
copied, and the bytes -/
def dbGetI64 (iterator : Int) (bufferSize : Nat) :
    Except Fault (Nat × List UInt8) := do
  let pointer ← context.keyvalCache.get iterator
  let obj ← deref context.store.keyValues pointer
  if bufferSize = 0 then .ok (obj.value.length, [])
  else
    let copySize := min bufferSize obj.value.length
    .ok (copySize, obj.value.take copySize)

def dbNextI64 (iterator : Int) : Except Fault (Answer KeyValueObject) :=
  next KeyValueObject.key context.store.keyValues context.keyvalCache iterator

def dbPreviousI64 (iterator : Int) : Except Fault (Answer KeyValueObject) :=
  previous KeyValueObject.key context.store.tables context.store.keyValues
    context.keyvalCache iterator

/-- The key-value row with a key, and the first one from it on or behind it, in
`by_scope_primary` -/
def keyValueAt (id : UInt64) (table : Nat) : Option KeyValueObject :=
  firstWhere (compositeKey KeyValueObject.key)
    (fun row => compositeKey KeyValueObject.key row = toLex (table, id.toNat))
    context.store.keyValues

def keyValueFrom (id : UInt64) (table : Nat) : Option KeyValueObject :=
  firstWhere (compositeKey KeyValueObject.key)
    (fun row => toLex (table, id.toNat) ≤ compositeKey KeyValueObject.key row)
    context.store.keyValues

def keyValueBehind (id : UInt64) (table : Nat) : Option KeyValueObject :=
  firstWhere (compositeKey KeyValueObject.key)
    (fun row => toLex (table, id.toNat) < compositeKey KeyValueObject.key row)
    context.store.keyValues

def dbFindI64 (code scope table : Name) (id : UInt64) :
    Answer KeyValueObject :=
  lookup context.store.tables context.keyvalCache code scope table
    (context.keyValueAt id)

def dbLowerboundI64 (code scope table : Name) (id : UInt64) :
    Answer KeyValueObject :=
  lookup context.store.tables context.keyvalCache code scope table
    (fun tab => inTable tab (context.keyValueFrom id tab))

def dbUpperboundI64 (code scope table : Name) (id : UInt64) :
    Answer KeyValueObject :=
  lookup context.store.tables context.keyvalCache code scope table
    (fun tab => inTable tab (context.keyValueBehind id tab))

def dbEndI64 (code scope table : Name) : Int × IteratorCache :=
  endOf context.store.tables context.keyvalCache code scope table

end KeyValues

section Index64

def idx64Store (scope table payer : Name) (id secondary : UInt64) :
    Except Fault (Int × ApplyContext) := do
  let payer ← context.checkPayerPermission forks payer
  let made :=
    context.findOrCreateTable forks context.receiver scope table payer
  let created ← made.2.createIndex64 made.1.id payer id secondary
  let charged :=
    (created.2.setCount made.1 (made.1.count + 1)).updateDbUsage forks payer
      index64ObjectSize
  .ok (charged.rememberIndex64 made.1 created.1)

/-- The table goes with its last row. -/
def dropEmptyTable (tableObj : TableIdObject) : ApplyContext :=
  if tableObj.count - 1 = 0 then context.removeTable tableObj else context

def idx64Remove (iterator : Int) : Except Fault ApplyContext := do
  let found ←
    context.ownRow context.itrCache context.store.index64s iterator
  let refunded :=
    context.updateDbUsage forks found.1.payer (-index64ObjectSize)
  let erased :=
    (refunded.setCount found.2 (found.2.count - 1)).eraseIndex64 found.1
  let cache ← context.itrCache.remove iterator
  .ok ((erased.dropEmptyTable found.2).setItrCache cache)

/-- The payer check of `update`, made since the hard fork. -/
def checkUpdatePayer (payer : Name) : Except Fault Name :=
  if forks.hardfork1021Time < context.store.headBlockTime then
    context.checkPayerPermission forks payer
  else
    .ok payer

/-- The payer an update leaves: the new one up to the hard fork. -/
def updatedPayer (obj : Index64Object) (payer : Name) : Name :=
  if context.store.headBlockTime ≤ forks.hardfork1021Time then payer
  else obj.payer

def idx64Update (iterator : Int) (payer : Name) (secondary : UInt64) :
    Except Fault ApplyContext := do
  let payer ← context.checkUpdatePayer forks payer
  let found ←
    context.ownRow context.itrCache context.store.index64s iterator
  .ok
    (context.replaceIndex64
      { found.1 with
        secondaryKey := secondary
        payer := context.updatedPayer forks found.1 payer })

/-- A bound of `by_secondary` names the table and the secondary key only. -/
def secondaryBound (row : Index64Object) : Nat ×ₗ Nat :=
  toLex (row.tId, row.secondaryKey.toNat)

def secondaryAt (secondary : UInt64) (table : Nat) : Option Index64Object :=
  firstWhere (compositeKey Index64Object.bySecondary)
    (fun row => secondaryBound row = toLex (table, secondary.toNat))
    context.store.index64s

def secondaryFrom (secondary : UInt64) (table : Nat) : Option Index64Object :=
  firstWhere (compositeKey Index64Object.bySecondary)
    (fun row => toLex (table, secondary.toNat) ≤ secondaryBound row)
    context.store.index64s

def secondaryBehind (secondary : UInt64) (table : Nat) :
    Option Index64Object :=
  firstWhere (compositeKey Index64Object.bySecondary)
    (fun row => toLex (table, secondary.toNat) < secondaryBound row)
    context.store.index64s

def idx64FindSecondary (code scope table : Name) (secondary : UInt64) :
    Answer Index64Object :=
  lookup context.store.tables context.itrCache code scope table
    (context.secondaryAt secondary)

def idx64LowerboundSecondary (code scope table : Name) (secondary : UInt64) :
    Answer Index64Object :=
  lookup context.store.tables context.itrCache code scope table
    (fun tab => inTable tab (context.secondaryFrom secondary tab))

def idx64UpperboundSecondary (code scope table : Name) (secondary : UInt64) :
    Answer Index64Object :=
  lookup context.store.tables context.itrCache code scope table
    (fun tab => inTable tab (context.secondaryBehind secondary tab))

def idx64EndSecondary (code scope table : Name) : Int × IteratorCache :=
  endOf context.store.tables context.itrCache code scope table

def idx64NextSecondary (iterator : Int) : Except Fault (Answer Index64Object) :=
  next Index64Object.bySecondary context.store.index64s context.itrCache
    iterator

def idx64PreviousSecondary (iterator : Int) :
    Except Fault (Answer Index64Object) :=
  previous Index64Object.bySecondary context.store.tables
    context.store.index64s context.itrCache iterator

def primaryAt (primary : UInt64) (table : Nat) : Option Index64Object :=
  firstWhere (compositeKey Index64Object.byPrimary)
    (fun row =>
      compositeKey Index64Object.byPrimary row = toLex (table, primary.toNat))
    context.store.index64s

def primaryFrom (primary : UInt64) (table : Nat) : Option Index64Object :=
  firstWhere (compositeKey Index64Object.byPrimary)
    (fun row =>
      toLex (table, primary.toNat) ≤ compositeKey Index64Object.byPrimary row)
    context.store.index64s

def primaryBehind (primary : UInt64) (table : Nat) : Option Index64Object :=
  firstWhere (compositeKey Index64Object.byPrimary)
    (fun row =>
      toLex (table, primary.toNat) < compositeKey Index64Object.byPrimary row)
    context.store.index64s

def idx64FindPrimary (code scope table : Name) (primary : UInt64) :
    Answer Index64Object :=
  lookup context.store.tables context.itrCache code scope table
    (context.primaryAt primary)

def idx64LowerboundPrimary (code scope table : Name) (primary : UInt64) :
    Answer Index64Object :=
  lookup context.store.tables context.itrCache code scope table
    (fun tab => inTable tab (context.primaryFrom primary tab))

def idx64UpperboundPrimary (code scope table : Name) (primary : UInt64) :
    Answer Index64Object :=
  lookup context.store.tables context.itrCache code scope table
    (fun tab => inTable tab (context.primaryBehind primary tab))

def idx64NextPrimary (iterator : Int) : Except Fault (Answer Index64Object) :=
  next Index64Object.byPrimary context.store.index64s context.itrCache iterator

def idx64PreviousPrimary (iterator : Int) :
    Except Fault (Answer Index64Object) :=
  previous Index64Object.byPrimary context.store.tables
    context.store.index64s context.itrCache iterator

/-- `get`: the primary and the secondary key -/
def idx64Get (iterator : Int) : Except Fault (UInt64 × UInt64) := do
  let pointer ← context.itrCache.get iterator
  let obj ← deref context.store.index64s pointer
  .ok (obj.primaryKey, obj.secondaryKey)

end Index64

end ApplyContext

section Calls

/-- A table call with its arguments. -/
inductive Call where
  | dbStoreI64 (scope table payer : Name) (id : UInt64) (buffer : List UInt8)
  | dbUpdateI64 (iterator : Int) (payer : Name) (buffer : List UInt8)
  | dbRemoveI64 (iterator : Int)
  | dbGetI64 (iterator : Int) (bufferSize : Nat)
  | dbNextI64 (iterator : Int)
  | dbPreviousI64 (iterator : Int)
  | dbFindI64 (code scope table : Name) (id : UInt64)
  | dbLowerboundI64 (code scope table : Name) (id : UInt64)
  | dbUpperboundI64 (code scope table : Name) (id : UInt64)
  | dbEndI64 (code scope table : Name)
  | idx64Store (scope table payer : Name) (id secondary : UInt64)
  | idx64Update (iterator : Int) (payer : Name) (secondary : UInt64)
  | idx64Remove (iterator : Int)
  | idx64FindSecondary (code scope table : Name) (secondary : UInt64)
  | idx64LowerboundSecondary (code scope table : Name) (secondary : UInt64)
  | idx64UpperboundSecondary (code scope table : Name) (secondary : UInt64)
  | idx64EndSecondary (code scope table : Name)
  | idx64NextSecondary (iterator : Int)
  | idx64PreviousSecondary (iterator : Int)
  | idx64FindPrimary (code scope table : Name) (primary : UInt64)
  | idx64LowerboundPrimary (code scope table : Name) (primary : UInt64)
  | idx64UpperboundPrimary (code scope table : Name) (primary : UInt64)
  | idx64NextPrimary (iterator : Int)
  | idx64PreviousPrimary (iterator : Int)
  | idx64Get (iterator : Int)
  deriving DecidableEq, Repr

namespace ApplyContext

def withKeyval (context : ApplyContext) (answer : Answer KeyValueObject) :
    ApplyContext :=
  context.setKeyvalCache answer.cache

/-- A call that leaves the index cache of its answer behind. -/
def withItr (context : ApplyContext) (answer : Answer Index64Object) :
    ApplyContext :=
  context.setItrCache answer.cache

/-- The context after a call. -/
def perform (forks : HardForks) (context : ApplyContext) :
    Call → Except Fault ApplyContext
  | .dbStoreI64 scope table payer id buffer =>
      (context.dbStoreI64 forks scope table payer id buffer).map Prod.snd
  | .dbUpdateI64 iterator payer buffer =>
      context.dbUpdateI64 forks iterator payer buffer
  | .dbRemoveI64 iterator => context.dbRemoveI64 forks iterator
  | .dbGetI64 iterator bufferSize =>
      (context.dbGetI64 iterator bufferSize).map fun _ => context
  | .dbNextI64 iterator =>
      (context.dbNextI64 iterator).map context.withKeyval
  | .dbPreviousI64 iterator =>
      (context.dbPreviousI64 iterator).map context.withKeyval
  | .dbFindI64 code scope table id =>
      .ok (context.withKeyval (context.dbFindI64 code scope table id))
  | .dbLowerboundI64 code scope table id =>
      .ok (context.withKeyval (context.dbLowerboundI64 code scope table id))
  | .dbUpperboundI64 code scope table id =>
      .ok (context.withKeyval (context.dbUpperboundI64 code scope table id))
  | .dbEndI64 code scope table =>
      .ok (context.setKeyvalCache (context.dbEndI64 code scope table).2)
  | .idx64Store scope table payer id secondary =>
      (context.idx64Store forks scope table payer id secondary).map Prod.snd
  | .idx64Update iterator payer secondary =>
      context.idx64Update forks iterator payer secondary
  | .idx64Remove iterator => context.idx64Remove forks iterator
  | .idx64FindSecondary code scope table secondary =>
      .ok
        (context.withItr
          (context.idx64FindSecondary code scope table secondary))
  | .idx64LowerboundSecondary code scope table secondary =>
      .ok
        (context.withItr
          (context.idx64LowerboundSecondary code scope table secondary))
  | .idx64UpperboundSecondary code scope table secondary =>
      .ok
        (context.withItr
          (context.idx64UpperboundSecondary code scope table secondary))
  | .idx64EndSecondary code scope table =>
      .ok (context.setItrCache (context.idx64EndSecondary code scope table).2)
  | .idx64NextSecondary iterator =>
      (context.idx64NextSecondary iterator).map context.withItr
  | .idx64PreviousSecondary iterator =>
      (context.idx64PreviousSecondary iterator).map context.withItr
  | .idx64FindPrimary code scope table primary =>
      .ok (context.withItr (context.idx64FindPrimary code scope table primary))
  | .idx64LowerboundPrimary code scope table primary =>
      .ok
        (context.withItr
          (context.idx64LowerboundPrimary code scope table primary))
  | .idx64UpperboundPrimary code scope table primary =>
      .ok
        (context.withItr
          (context.idx64UpperboundPrimary code scope table primary))
  | .idx64NextPrimary iterator =>
      (context.idx64NextPrimary iterator).map context.withItr
  | .idx64PreviousPrimary iterator =>
      (context.idx64PreviousPrimary iterator).map context.withItr
  | .idx64Get iterator => (context.idx64Get iterator).map fun _ => context

/-- The context after a sequence of calls, all of which return. -/
def performAll (forks : HardForks) (context : ApplyContext)
    (calls : List Call) : Except Fault ApplyContext :=
  calls.foldlM (fun current call => current.perform forks call) context

end ApplyContext

end Calls

end GxbCore.Contract
