import GxbCore.Contract.ApplyContext

/-!
# What a table call does

Every call that returns does one of seven things to the tables and to the
recorded memory: nothing, or it stores, updates or removes a row of one of the
two kinds.  What holds along every execution is proved from these seven.
-/

namespace GxbCore.Contract

namespace ApplyContext

section Fields

variable {forks : HardForks} {context : ApplyContext} {ramDelta : Int}
  {tab : TableIdObject} {tableObj : TableIdObject}

@[simp]
theorem updateRamStatistics_store {account : Name} :
    (context.updateRamStatistics account ramDelta).store = context.store := by
  unfold updateRamStatistics
  split <;> rfl

@[simp]
theorem updateRamUsage_store :
    (context.updateRamUsage ramDelta).store = context.store := by
  unfold updateRamUsage
  split <;> rfl

@[simp]
theorem updateDbUsage_store {payer : Name} :
    (context.updateDbUsage forks payer ramDelta).store = context.store := by
  unfold updateDbUsage
  split
  · exact updateRamStatistics_store
  · exact updateRamUsage_store

@[simp]
theorem chargeUpdate_store
    {obj : KeyValueObject} {payer : Name} {oldSize newSize : Int} :
    (context.chargeUpdate obj payer oldSize newSize).store =
      context.store := by
  unfold chargeUpdate
  split
  · simp
  · split
    · exact updateRamStatistics_store
    · rfl

@[simp]
theorem payUpdate_store
    {obj : KeyValueObject} {payer : Name} {buffer : List UInt8} :
    (context.payUpdate forks obj payer buffer).store = context.store := by
  unfold payUpdate
  split
  · exact chargeUpdate_store
  · exact updateRamUsage_store

@[simp]
theorem removeTable_keyValues :
    (context.removeTable tab).store.keyValues = context.store.keyValues := by
  simp [removeTable]

@[simp]
theorem removeTable_index64s :
    (context.removeTable tab).store.index64s = context.store.index64s := by
  simp [removeTable]

@[simp]
theorem removeTable_nextTableId :
    (context.removeTable tab).store.nextTableId =
      context.store.nextTableId := by
  simp [removeTable]

@[simp]
theorem discountKeyValue_nextTableId :
    (context.discountKeyValue forks tableObj).store.nextTableId =
      context.store.nextTableId := by
  unfold discountKeyValue countDown
  split
  · split
    · exact removeTable_nextTableId
    · rfl
  · rfl

@[simp]
theorem discountKeyValue_keyValues :
    (context.discountKeyValue forks tableObj).store.keyValues =
      context.store.keyValues := by
  unfold discountKeyValue countDown
  split
  · split
    · exact removeTable_keyValues
    · rfl
  · rfl

@[simp]
theorem discountKeyValue_index64s :
    (context.discountKeyValue forks tableObj).store.index64s =
      context.store.index64s := by
  unfold discountKeyValue countDown
  split
  · split
    · exact removeTable_index64s
    · rfl
  · rfl

theorem afterHardfork1016_congr {other : ApplyContext}
    (sameTime : other.store.headBlockTime = context.store.headBlockTime) :
    other.afterHardfork1016 forks ↔ context.afterHardfork1016 forks := by
  unfold afterHardfork1016
  rw [sameTime]

end Fields

section Own

variable {ρ : Type} [TableRow ρ]

/-- The row an iterator of a cache stands for, and its table, which belongs to
the receiver. -/
structure OwnRow (context : ApplyContext) (cache : IteratorCache)
    (rows : List ρ) (iterator : Int) (obj : ρ) (tableObj : TableIdObject) :
    Prop where
  pointer : cache.get iterator = .ok (TableRow.id obj)
  row : rows.find? (isRow (TableRow.id obj)) = some obj
  cached : (cache.tableCache (TableRow.tId obj)).isSome
  table :
    context.store.tables.find? (isTable (TableRow.tId obj)) = some tableObj
  code : tableObj.code = context.receiver

theorem id_of_find_isRow {rows : List ρ} {pointer : Nat} {row : ρ}
    (found : rows.find? (isRow pointer) = some row) :
    TableRow.id row = pointer := by
  have isTheRow := List.find?_some found
  simpa [isRow] using isTheRow

theorem id_of_find_isTable {tables : List TableIdObject} {pointer : Nat}
    {tab : TableIdObject} (found : tables.find? (isTable pointer) = some tab) :
    tab.id = pointer := by
  have isTheTable := List.find?_some found
  simpa [isTable] using isTheTable

theorem deref_eq_ok {rows : List ρ} {pointer : Nat} {row : ρ}
    (reads : deref rows pointer = .ok row) :
    TableRow.id row = pointer ∧
      rows.find? (isRow (TableRow.id row)) = some row := by
  have found := orThrow_eq_ok.mp reads
  have same := id_of_find_isRow found
  exact ⟨same, same ▸ found⟩

theorem getTable_eq_ok {cache : IteratorCache} {table pointer : Nat}
    (reads : cache.getTable table = .ok pointer) :
    pointer = table ∧ (cache.tableCache table).isSome := by
  unfold IteratorCache.getTable at reads
  cases cached : cache.tableCache table with
  | none => simp [cached] at reads
  | some endIterator =>
      simp only [cached, Except.ok.injEq] at reads
      exact ⟨reads.symm, rfl⟩

theorem ownRow_eq_ok {context : ApplyContext} {cache : IteratorCache}
    {rows : List ρ} {iterator : Int} {found : ρ × TableIdObject}
    (reads : context.ownRow cache rows iterator = .ok found) :
    OwnRow context cache rows iterator found.1 found.2 := by
  unfold ownRow at reads
  obtain ⟨pointer, gets, reads⟩ := bind_eq_ok.mp reads
  obtain ⟨obj, derefs, reads⟩ := bind_eq_ok.mp reads
  obtain ⟨table, cached, reads⟩ := bind_eq_ok.mp reads
  obtain ⟨tableObj, derefsTable, reads⟩ := bind_eq_ok.mp reads
  obtain ⟨_, code, reads⟩ := bind_eq_ok.mp reads
  cases reads
  obtain ⟨rfl, row⟩ := deref_eq_ok derefs
  obtain ⟨rfl, isCached⟩ := getTable_eq_ok cached
  exact
    { pointer := gets
      row := row
      cached := isCached
      table := orThrow_eq_ok.mp derefsTable
      code := fcAssert_eq_ok.mp code }

end Own

section Effect

def Reads : Call → Prop
  | .dbStoreI64 .. | .dbUpdateI64 .. | .dbRemoveI64 .. => False
  | .idx64Store .. | .idx64Update .. | .idx64Remove .. => False
  | _ => True

def storedKeyValue (forks : HardForks) (context : ApplyContext)
    (scope table payer : Name) (buffer : List UInt8)
    (created : KeyValueObject × ApplyContext) : ApplyContext :=
  (created.2.updateDbUsage forks payer
    (buffer.length + keyValueObjectSize)).countKeyValue forks
      (context.findOrCreateTable forks context.receiver scope table payer).1

def storedIndex64 (forks : HardForks) (context : ApplyContext)
    (scope table payer : Name)
    (created : Index64Object × ApplyContext) : ApplyContext :=
  (created.2.setCount
    (context.findOrCreateTable forks context.receiver scope table payer).1
    ((context.findOrCreateTable forks context.receiver scope table
      payer).1.count + 1)).updateDbUsage forks payer index64ObjectSize

def removedKeyValue (forks : HardForks) (context : ApplyContext)
    (obj : KeyValueObject) (tableObj : TableIdObject) : ApplyContext :=
  ((context.updateDbUsage forks obj.payer
    (-(obj.value.length + keyValueObjectSize))).discountKeyValue
      forks tableObj).eraseKeyValue obj

def removedIndex64 (forks : HardForks) (context : ApplyContext)
    (obj : Index64Object) (tableObj : TableIdObject) : ApplyContext :=
  (((context.updateDbUsage forks obj.payer
    (-index64ObjectSize)).setCount tableObj
      (tableObj.count - 1)).eraseIndex64 obj).dropEmptyTable tableObj

/-- What a call that returns does to all but the caches. -/
inductive Effect (forks : HardForks) (context : ApplyContext) :
    Call → ApplyContext → Prop where
  | looked {call : Call} (reads : Reads call) :
      Effect forks context call context
  | storedKeyValue
      {scope table asked payer : Name} {id : UInt64} {buffer : List UInt8}
      {created : KeyValueObject × ApplyContext}
      (allowed : context.checkPayerPermission forks asked = .ok payer)
      (creates :
        (context.findOrCreateTable forks context.receiver scope table
          payer).2.createKeyValue
            (context.findOrCreateTable forks context.receiver scope table
              payer).1.id payer id buffer = .ok created) :
      Effect forks context (.dbStoreI64 scope table asked id buffer)
        (context.storedKeyValue forks scope table payer buffer created)
  | updatedKeyValue
      {iterator : Int} {asked payer : Name} {buffer : List UInt8}
      {obj : KeyValueObject} {tableObj : TableIdObject}
      (allowed : context.checkPayerPermission forks asked = .ok payer)
      (own :
        OwnRow context context.keyvalCache context.store.keyValues iterator
          obj tableObj) :
      Effect forks context (.dbUpdateI64 iterator asked buffer)
        ((context.payUpdate forks obj payer buffer).replaceKeyValue
          { obj with value := buffer, payer := payer })
  | removedKeyValue
      {iterator : Int} {obj : KeyValueObject} {tableObj : TableIdObject}
      (own :
        OwnRow context context.keyvalCache context.store.keyValues iterator
          obj tableObj) :
      Effect forks context (.dbRemoveI64 iterator)
        (context.removedKeyValue forks obj tableObj)
  | storedIndex64
      {scope table asked payer : Name} {id secondary : UInt64}
      {created : Index64Object × ApplyContext}
      (allowed : context.checkPayerPermission forks asked = .ok payer)
      (creates :
        (context.findOrCreateTable forks context.receiver scope table
          payer).2.createIndex64
            (context.findOrCreateTable forks context.receiver scope table
              payer).1.id payer id secondary = .ok created) :
      Effect forks context (.idx64Store scope table asked id secondary)
        (context.storedIndex64 forks scope table payer created)
  | updatedIndex64
      {iterator : Int} {asked payer : Name} {secondary : UInt64}
      {obj : Index64Object} {tableObj : TableIdObject}
      (allowed : context.checkUpdatePayer forks asked = .ok payer)
      (own :
        OwnRow context context.itrCache context.store.index64s iterator
          obj tableObj) :
      Effect forks context (.idx64Update iterator asked secondary)
        (context.replaceIndex64
          { obj with
            secondaryKey := secondary
            payer := context.updatedPayer forks obj payer })
  | removedIndex64
      {iterator : Int} {obj : Index64Object} {tableObj : TableIdObject}
      (own :
        OwnRow context context.itrCache context.store.index64s iterator
          obj tableObj) :
      Effect forks context (.idx64Remove iterator)
        (context.removedIndex64 forks obj tableObj)

/-- Two contexts that differ in their caches only. -/
structure SameTables (middle after : ApplyContext) : Prop where
  store : after.store = middle.store
  ramStatistics : after.ramStatistics = middle.ramStatistics
  receiver : after.receiver = middle.receiver

variable {forks : HardForks} {context after : ApplyContext}

theorem sameTables_setKeyvalCache {cache : IteratorCache} :
    SameTables context (context.setKeyvalCache cache) :=
  ⟨rfl, rfl, rfl⟩

theorem sameTables_setItrCache {cache : IteratorCache} :
    SameTables context (context.setItrCache cache) :=
  ⟨rfl, rfl, rfl⟩

theorem checkPayerPermission_again {asked payer : Name}
    (allowed : context.checkPayerPermission forks asked = .ok payer)
    {again : Name}
    (allowedAgain : context.checkPayerPermission forks payer = .ok again) :
    again = payer := by
  unfold checkPayerPermission at allowed allowedAgain
  by_cases late : context.afterHardfork1016 forks
  · simp only [late, if_true] at allowed allowedAgain
    obtain ⟨_, _, allowed⟩ := bind_eq_ok.mp allowed
    obtain ⟨_, _, allowedAgain⟩ := bind_eq_ok.mp allowedAgain
    cases allowedAgain
    cases allowed
    by_cases zero : asked = 0
    · simp [zero]
    · simp [zero]
  · simp only [late, if_false, Except.ok.injEq] at allowed allowedAgain
    exact allowedAgain.symm

variable {buffer : List UInt8} {result : Int × ApplyContext}
  {scope table asked : Name} {id secondary : UInt64} {iterator : Int}
  {call : Call}

theorem dbStoreI64_eq_ok {id : UInt64}
    (returns :
      context.dbStoreI64 forks scope table asked id buffer = .ok result) :
    ∃ payer created,
      context.checkPayerPermission forks asked = .ok payer ∧
        (context.findOrCreateTable forks context.receiver scope table
          payer).2.createKeyValue
            (context.findOrCreateTable forks context.receiver scope table
              payer).1.id payer id buffer = .ok created ∧
          result =
            (context.storedKeyValue forks scope table payer buffer
              created).rememberKeyValue
                (context.findOrCreateTable forks context.receiver scope
                  table payer).1 created.1 := by
  unfold dbStoreI64 at returns
  obtain ⟨payer, allowed, stores⟩ := bind_eq_ok.mp returns
  unfold dbStoreI64For at stores
  obtain ⟨again, allowedAgain, storesRow⟩ := bind_eq_ok.mp stores
  rw [checkPayerPermission_again allowed allowedAgain] at storesRow
  obtain ⟨created, creates, last⟩ := bind_eq_ok.mp storesRow
  exact ⟨payer, created, allowed, creates, (Except.ok.inj last).symm⟩

theorem idx64Store_eq_ok
    (returns :
      context.idx64Store forks scope table asked id secondary =
        .ok result) :
    ∃ payer created,
      context.checkPayerPermission forks asked = .ok payer ∧
        (context.findOrCreateTable forks context.receiver scope table
          payer).2.createIndex64
            (context.findOrCreateTable forks context.receiver scope table
              payer).1.id payer id secondary = .ok created ∧
          result =
            (context.storedIndex64 forks scope table payer
              created).rememberIndex64
                (context.findOrCreateTable forks context.receiver scope
                  table payer).1 created.1 := by
  unfold idx64Store at returns
  obtain ⟨payer, allowed, stores⟩ := bind_eq_ok.mp returns
  obtain ⟨created, creates, last⟩ := bind_eq_ok.mp stores
  exact ⟨payer, created, allowed, creates, (Except.ok.inj last).symm⟩

theorem dbRemoveI64_eq_ok
    (returns : context.dbRemoveI64 forks iterator = .ok after) :
    ∃ found cache,
      context.ownRow context.keyvalCache context.store.keyValues iterator =
          .ok found ∧
        context.keyvalCache.remove iterator = .ok cache ∧
          after =
            (context.removedKeyValue forks found.1 found.2).setKeyvalCache
              cache := by
  unfold dbRemoveI64 at returns
  obtain ⟨found, owns, removes⟩ := bind_eq_ok.mp returns
  obtain ⟨cache, forgets, last⟩ := bind_eq_ok.mp removes
  exact ⟨found, cache, owns, forgets, (Except.ok.inj last).symm⟩

theorem idx64Remove_eq_ok
    (returns : context.idx64Remove forks iterator = .ok after) :
    ∃ found cache,
      context.ownRow context.itrCache context.store.index64s iterator =
          .ok found ∧
        context.itrCache.remove iterator = .ok cache ∧
          after =
            (context.removedIndex64 forks found.1 found.2).setItrCache
              cache := by
  unfold idx64Remove at returns
  obtain ⟨found, owns, removes⟩ := bind_eq_ok.mp returns
  obtain ⟨cache, forgets, last⟩ := bind_eq_ok.mp removes
  exact ⟨found, cache, owns, forgets, (Except.ok.inj last).symm⟩

theorem dbStoreI64_effect {id : UInt64}
    (returns :
      context.dbStoreI64 forks scope table asked id buffer = .ok result) :
    ∃ middle,
      Effect forks context (.dbStoreI64 scope table asked id buffer) middle ∧
        SameTables middle result.2 := by
  obtain ⟨payer, created, allowed, creates, rfl⟩ := dbStoreI64_eq_ok returns
  exact ⟨_, .storedKeyValue allowed creates, sameTables_setKeyvalCache⟩

theorem dbUpdateI64_effect {asked : Name}
    (returns : context.dbUpdateI64 forks iterator asked buffer = .ok after) :
    Effect forks context (.dbUpdateI64 iterator asked buffer) after := by
  unfold dbUpdateI64 at returns
  obtain ⟨payer, allowed, updates⟩ := bind_eq_ok.mp returns
  obtain ⟨found, owns, last⟩ := bind_eq_ok.mp updates
  cases last
  exact .updatedKeyValue allowed (ownRow_eq_ok owns)

theorem dbRemoveI64_effect
    (returns : context.dbRemoveI64 forks iterator = .ok after) :
    ∃ middle,
      Effect forks context (.dbRemoveI64 iterator) middle ∧
        SameTables middle after := by
  obtain ⟨found, cache, owns, _, rfl⟩ := dbRemoveI64_eq_ok returns
  exact
    ⟨_, .removedKeyValue (ownRow_eq_ok owns), sameTables_setKeyvalCache⟩

theorem idx64Store_effect
    (returns :
      context.idx64Store forks scope table asked id secondary =
        .ok result) :
    ∃ middle,
      Effect forks context (.idx64Store scope table asked id secondary)
          middle ∧
        SameTables middle result.2 := by
  obtain ⟨payer, created, allowed, creates, rfl⟩ := idx64Store_eq_ok returns
  exact ⟨_, .storedIndex64 allowed creates, sameTables_setItrCache⟩

theorem idx64Update_effect {asked : Name} {secondary : UInt64}
    (returns : context.idx64Update forks iterator asked secondary = .ok after) :
    Effect forks context (.idx64Update iterator asked secondary) after := by
  unfold idx64Update at returns
  obtain ⟨payer, allowed, updates⟩ := bind_eq_ok.mp returns
  obtain ⟨found, owns, last⟩ := bind_eq_ok.mp updates
  cases last
  exact .updatedIndex64 allowed (ownRow_eq_ok owns)

theorem idx64Remove_effect
    (returns : context.idx64Remove forks iterator = .ok after) :
    ∃ middle,
      Effect forks context (.idx64Remove iterator) middle ∧
        SameTables middle after := by
  obtain ⟨found, cache, owns, _, rfl⟩ := idx64Remove_eq_ok returns
  exact ⟨_, .removedIndex64 (ownRow_eq_ok owns), sameTables_setItrCache⟩

theorem map_eq_ok {α β : Type} {call : Except Fault α} {f : α → β} {result : β}
    (returns : call.map f = .ok result) :
    ∃ value, call = .ok value ∧ f value = result := by
  cases call with
  | error thrown => cases returns
  | ok value =>
      cases returns
      exact ⟨value, rfl, rfl⟩

theorem looked_effect (reads : Reads call) (same : SameTables context after) :
    ∃ middle,
      Effect forks context call middle ∧ SameTables middle after :=
  ⟨context, .looked reads, same⟩

theorem perform_effect (returns : context.perform forks call = .ok after) :
    ∃ middle,
      Effect forks context call middle ∧ SameTables middle after := by
  cases call with
  | dbStoreI64 scope table payer id buffer =>
      obtain ⟨result, stores, rfl⟩ := map_eq_ok returns
      exact dbStoreI64_effect stores
  | dbUpdateI64 iterator payer buffer =>
      exact ⟨after, dbUpdateI64_effect returns, ⟨rfl, rfl, rfl⟩⟩
  | dbRemoveI64 iterator => exact dbRemoveI64_effect returns
  | idx64Store scope table payer id secondary =>
      obtain ⟨result, stores, rfl⟩ := map_eq_ok returns
      exact idx64Store_effect stores
  | idx64Update iterator payer secondary =>
      exact ⟨after, idx64Update_effect returns, ⟨rfl, rfl, rfl⟩⟩
  | idx64Remove iterator => exact idx64Remove_effect returns
  | dbGetI64 _ _ | idx64Get _ =>
      obtain ⟨value, _, rfl⟩ := map_eq_ok returns
      exact looked_effect trivial ⟨rfl, rfl, rfl⟩
  | dbNextI64 _ | dbPreviousI64 _ =>
      obtain ⟨answer, _, rfl⟩ := map_eq_ok returns
      exact looked_effect trivial sameTables_setKeyvalCache
  | idx64NextSecondary _ | idx64PreviousSecondary _ | idx64NextPrimary _
  | idx64PreviousPrimary _ =>
      obtain ⟨answer, _, rfl⟩ := map_eq_ok returns
      exact looked_effect trivial sameTables_setItrCache
  | dbFindI64 _ _ _ _ | dbLowerboundI64 _ _ _ _ | dbUpperboundI64 _ _ _ _
  | dbEndI64 _ _ _ =>
      cases returns
      exact looked_effect trivial sameTables_setKeyvalCache
  | idx64FindSecondary _ _ _ _ | idx64LowerboundSecondary _ _ _ _
  | idx64UpperboundSecondary _ _ _ _ | idx64EndSecondary _ _ _
  | idx64FindPrimary _ _ _ _ | idx64LowerboundPrimary _ _ _ _
  | idx64UpperboundPrimary _ _ _ _ =>
      cases returns
      exact looked_effect trivial sameTables_setItrCache

structure SameCaches (context after : ApplyContext) : Prop where
  keyval : after.keyvalCache = context.keyvalCache
  itr : after.itrCache = context.itrCache

/-- Two contexts with the same caches, the same time and the same contract. -/
structure Steady (context after : ApplyContext) : Prop
    extends SameCaches context after where
  headBlockTime : after.store.headBlockTime = context.store.headBlockTime
  receiver : after.receiver = context.receiver

theorem Steady.trans {middle : ApplyContext} (first : Steady context middle)
    (second : Steady middle after) : Steady context after :=
  ⟨⟨second.keyval.trans first.keyval, second.itr.trans first.itr⟩,
    second.headBlockTime.trans first.headBlockTime,
    second.receiver.trans first.receiver⟩

theorem updateRamStatistics_steady
    (context : ApplyContext) (account : Name) (ramDelta : Int) :
    Steady context (context.updateRamStatistics account ramDelta) := by
  unfold updateRamStatistics
  split
  · exact ⟨⟨rfl, rfl⟩, rfl, rfl⟩
  · exact ⟨⟨rfl, rfl⟩, rfl, rfl⟩

theorem updateRamUsage_steady (context : ApplyContext) (ramDelta : Int) :
    Steady context (context.updateRamUsage ramDelta) := by
  unfold updateRamUsage
  split
  · exact ⟨⟨rfl, rfl⟩, rfl, rfl⟩
  · exact ⟨⟨rfl, rfl⟩, rfl, rfl⟩

theorem updateDbUsage_steady (forks : HardForks) (context : ApplyContext)
    (payer : Name) (ramDelta : Int) :
    Steady context (context.updateDbUsage forks payer ramDelta) := by
  unfold updateDbUsage
  split
  · exact updateRamStatistics_steady context payer ramDelta
  · exact updateRamUsage_steady context ramDelta

theorem setCount_steady
    (context : ApplyContext) (tab : TableIdObject) (count : UInt32) :
    Steady context (context.setCount tab count) :=
  ⟨⟨rfl, rfl⟩, rfl, rfl⟩

theorem findOrCreateTable_steady (forks : HardForks) (context : ApplyContext)
    (code scope table payer : Name) :
    Steady context
      (context.findOrCreateTable forks code scope table payer).2 := by
  unfold findOrCreateTable
  split
  · exact ⟨⟨rfl, rfl⟩, rfl, rfl⟩
  · dsimp only
    split
    · have charged :=
        updateRamStatistics_steady context payer tableIdObjectSize
      exact ⟨⟨charged.keyval, charged.itr⟩, charged.headBlockTime,
        charged.receiver⟩
    · exact ⟨⟨rfl, rfl⟩, rfl, rfl⟩

theorem createKeyValue_steady {tId : Nat} {payer : Name} {id : UInt64}
    {created : KeyValueObject × ApplyContext}
    (creates : context.createKeyValue tId payer id buffer = .ok created) :
    Steady context created.2 := by
  obtain ⟨_, _, last⟩ := bind_eq_ok.mp creates
  cases last
  exact ⟨⟨rfl, rfl⟩, rfl, rfl⟩

theorem createIndex64_steady {tId : Nat} {payer : Name}
    {created : Index64Object × ApplyContext}
    (creates : context.createIndex64 tId payer id secondary = .ok created) :
    Steady context created.2 := by
  obtain ⟨_, _, last⟩ := bind_eq_ok.mp creates
  cases last
  exact ⟨⟨rfl, rfl⟩, rfl, rfl⟩

theorem chargeUpdate_steady (context : ApplyContext) (obj : KeyValueObject)
    (payer : Name) (oldSize newSize : Int) :
    Steady context
      (context.chargeUpdate obj payer oldSize newSize) := by
  unfold chargeUpdate
  split
  · exact
      (updateRamStatistics_steady context obj.payer (-oldSize)).trans
        (updateRamStatistics_steady _ payer newSize)
  · split
    · exact
        updateRamStatistics_steady context obj.payer (newSize - oldSize)
    · exact ⟨⟨rfl, rfl⟩, rfl, rfl⟩

theorem payUpdate_steady (forks : HardForks) (context : ApplyContext)
    (obj : KeyValueObject) (payer : Name) (buffer : List UInt8) :
    Steady context (context.payUpdate forks obj payer buffer) := by
  unfold payUpdate
  split
  · exact chargeUpdate_steady context obj payer _ _
  · exact updateRamUsage_steady context _

theorem removeTable_steady (context : ApplyContext) (tab : TableIdObject) :
    Steady context (context.removeTable tab) := by
  have refunded :=
    updateRamStatistics_steady context tab.payer (-tableIdObjectSize)
  exact ⟨⟨refunded.keyval, refunded.itr⟩, refunded.headBlockTime,
    refunded.receiver⟩

theorem discountKeyValue_steady (forks : HardForks) (context : ApplyContext)
    (tableObj : TableIdObject) :
    Steady context (context.discountKeyValue forks tableObj) := by
  unfold discountKeyValue countDown
  split
  · split
    · exact
        (setCount_steady context tableObj _).trans
          (removeTable_steady _ tableObj)
    · exact setCount_steady context tableObj _
  · exact ⟨⟨rfl, rfl⟩, rfl, rfl⟩

/-- No call moves the time or changes the contract, and the caches change in its
last step only. -/
theorem effect_steady (effect : Effect forks context call after) :
    Steady context after := by
  cases effect with
  | looked _ => exact ⟨⟨rfl, rfl⟩, rfl, rfl⟩
  | @storedKeyValue scope table _ payer _ buffer created _ creates =>
      have made :=
        findOrCreateTable_steady forks context context.receiver scope table
          payer
      have used :=
        (made.trans (createKeyValue_steady creates)).trans
          (updateDbUsage_steady forks created.2 payer
            (buffer.length + keyValueObjectSize))
      unfold ApplyContext.storedKeyValue countKeyValue
      split
      · exact used.trans (setCount_steady _ _ _)
      · exact used
  | @updatedKeyValue _ _ payer buffer obj _ _ _ =>
      have paid := payUpdate_steady forks context obj payer buffer
      exact ⟨⟨paid.keyval, paid.itr⟩, paid.headBlockTime,
        paid.receiver⟩
  | @removedKeyValue _ obj tableObj _ =>
      have discounted :=
        (updateDbUsage_steady forks context obj.payer
          (-(obj.value.length + keyValueObjectSize))).trans
            (discountKeyValue_steady forks _ tableObj)
      exact ⟨⟨discounted.keyval, discounted.itr⟩, discounted.headBlockTime,
        discounted.receiver⟩
  | @storedIndex64 scope table _ payer _ _ created _ creates =>
      have made :=
        findOrCreateTable_steady forks context context.receiver scope table
          payer
      exact
        ((made.trans (createIndex64_steady creates)).trans
          (setCount_steady created.2 _ _)).trans
            (updateDbUsage_steady forks _ payer _)
  | updatedIndex64 _ _ => exact ⟨⟨rfl, rfl⟩, rfl, rfl⟩
  | @removedIndex64 _ obj tableObj _ =>
      have counted :=
        (updateDbUsage_steady forks context obj.payer
          (-index64ObjectSize)).trans
            (setCount_steady _ tableObj (tableObj.count - 1))
      have erased :
          Steady context
            (((context.updateDbUsage forks obj.payer
              (-index64ObjectSize)).setCount tableObj
                (tableObj.count - 1)).eraseIndex64 obj) :=
        ⟨⟨counted.keyval, counted.itr⟩, counted.headBlockTime,
          counted.receiver⟩
      unfold ApplyContext.removedIndex64 dropEmptyTable
      split
      · exact erased.trans (removeTable_steady _ tableObj)
      · exact erased

theorem perform_headBlockTime
    (returns : context.perform forks call = .ok after) :
    after.store.headBlockTime = context.store.headBlockTime := by
  obtain ⟨middle, effect, same⟩ := perform_effect returns
  rw [same.store]
  exact (effect_steady effect).headBlockTime

end Effect

end ApplyContext

end GxbCore.Contract
