import GxbCore.Contract.Stores

/-!
# Memory charged to payers

The transaction context records, for every payer, the bytes that were charged
and refunded.  After the hard fork every call keeps the difference between what
is recorded for a payer and the billable bytes of the objects the payer pays
for.
-/

namespace GxbCore.Contract

section Billable

def tableBytes (payer : Name) (tab : TableIdObject) : ℤ :=
  if tab.payer = payer then tableIdObjectSize else 0

def keyValueBytes (payer : Name) (row : KeyValueObject) : ℤ :=
  if row.payer = payer then row.value.length + keyValueObjectSize else 0

def index64Bytes (payer : Name) (row : Index64Object) : ℤ :=
  if row.payer = payer then index64ObjectSize else 0

def Store.billable (store : Store) (payer : Name) : ℤ :=
  total (tableBytes payer) store.tables +
    total (keyValueBytes payer) store.keyValues +
      total (index64Bytes payer) store.index64s

end Billable

namespace ApplyContext

variable {forks : HardForks} {context after : ApplyContext} {payer : Name}

def drift (context : ApplyContext) (payer : Name) : ℤ :=
  context.ramStatistics payer - context.store.billable payer

def chargedTo (account payer : Name) (bytes : ℤ) : ℤ :=
  if account = payer then bytes else 0

theorem chargedTo_neg (account payer : Name) (bytes : ℤ) :
    chargedTo account payer (-bytes) = -chargedTo account payer bytes := by
  unfold chargedTo
  split
  · rfl
  · rfl

theorem chargedTo_sub (account payer : Name) (bytes less : ℤ) :
    chargedTo account payer (bytes - less) =
      chargedTo account payer bytes - chargedTo account payer less := by
  unfold chargedTo
  split
  · rfl
  · rfl

theorem updateRamStatistics_drift
    (nonzero : payer ≠ 0) (account : Name) (ramDelta : ℤ) :
    (context.updateRamStatistics account ramDelta).drift payer =
      context.drift payer + chargedTo account payer ramDelta := by
  unfold updateRamStatistics
  by_cases zero : 0 = account
  · have other : ¬account = payer := by
      rintro rfl
      exact nonzero zero.symm
    simp [zero, chargedTo, other]
  · simp only [zero, if_false, drift, chargedTo]
    by_cases same : account = payer
    · subst same
      simp only [Function.update_self, if_true]
      omega
    · simp [same, Function.update_of_ne (Ne.symm same)]

theorem updateDbUsage_drift (nonzero : payer ≠ 0)
    (late : context.afterHardfork1016 forks) (account : Name) (ramDelta : ℤ) :
    (context.updateDbUsage forks account ramDelta).drift payer =
      context.drift payer + chargedTo account payer ramDelta := by
  rw [updateDbUsage, if_pos late]
  exact updateRamStatistics_drift nonzero account ramDelta

theorem setCount_drift {tab : TableIdObject} {count : UInt32}
    (found : context.store.tables.find? (isTable tab.id) = some tab) :
    (context.setCount tab count).drift payer = context.drift payer := by
  simp only [setCount, drift, Store.billable, total_replaceFirst found]
  simp only [tableBytes]
  omega

theorem removeTable_drift (nonzero : payer ≠ 0) {tab found : TableIdObject}
    (isFound : context.store.tables.find? (isTable tab.id) = some found)
    (samePayer : found.payer = tab.payer) :
    (context.removeTable tab).drift payer = context.drift payer := by
  have refunded :
      (context.updateRamStatistics tab.payer (-tableIdObjectSize)).drift
          payer =
        context.drift payer +
          chargedTo tab.payer payer (-tableIdObjectSize) :=
    updateRamStatistics_drift nonzero _ _
  simp only [drift, Store.billable, updateRamStatistics_store, removeTable,
    total_eraseP isFound, chargedTo_neg] at refunded ⊢
  simp only [tableBytes, samePayer, chargedTo] at refunded ⊢
  omega

theorem findOrCreateTable_drift (nonzero : payer ≠ 0)
    (late : context.afterHardfork1016 forks) (code scope table account : Name) :
    (context.findOrCreateTable forks code scope table account).2.drift payer =
      context.drift payer := by
  unfold findOrCreateTable
  cases findTable context.store.tables code scope table with
  | some tab => rfl
  | none =>
      have charged :
          (context.updateRamStatistics account tableIdObjectSize).drift
              payer =
            context.drift payer +
              chargedTo account payer tableIdObjectSize :=
        updateRamStatistics_drift nonzero _ _
      simp only [late, if_true, drift, Store.billable, total_append,
        total_cons, total_nil, updateRamStatistics_store] at charged ⊢
      simp only [tableBytes, chargedTo] at charged ⊢
      omega

theorem createKeyValue_drift {tId : Nat} {account : Name} {id : UInt64}
    {buffer : List UInt8} {created : KeyValueObject × ApplyContext}
    (creates : context.createKeyValue tId account id buffer = .ok created) :
    created.2.drift payer =
      context.drift payer -
        chargedTo account payer (buffer.length + keyValueObjectSize) := by
  obtain ⟨_, row, store⟩ := createKeyValue_eq_ok creates
  rw [store, row]
  simp only [drift, Store.billable, total_append, total_cons, total_nil,
    keyValueBytes, chargedTo]
  omega

theorem createIndex64_drift {tId : Nat} {account : Name} {id secondary : UInt64}
    {created : Index64Object × ApplyContext}
    (creates : context.createIndex64 tId account id secondary = .ok created) :
    created.2.drift payer =
      context.drift payer - chargedTo account payer index64ObjectSize := by
  obtain ⟨_, row, store⟩ := createIndex64_eq_ok creates
  rw [store, row]
  simp only [drift, Store.billable, total_append, total_cons, total_nil,
    index64Bytes, chargedTo]
  omega

theorem replaceKeyValue_drift {old row : KeyValueObject}
    (found : context.store.keyValues.find? (isRow row.id) = some old) :
    (context.replaceKeyValue row).drift payer =
      context.drift payer + keyValueBytes payer old -
        keyValueBytes payer row := by
  simp only [replaceKeyValue, drift, Store.billable,
    total_replaceFirst found]
  omega

theorem replaceIndex64_drift {old row : Index64Object}
    (found : context.store.index64s.find? (isRow row.id) = some old) :
    (context.replaceIndex64 row).drift payer =
      context.drift payer + index64Bytes payer old -
        index64Bytes payer row := by
  simp only [replaceIndex64, drift, Store.billable,
    total_replaceFirst found]
  omega

theorem eraseKeyValue_drift {row : KeyValueObject}
    (found : context.store.keyValues.find? (isRow row.id) = some row) :
    (context.eraseKeyValue row).drift payer =
      context.drift payer + keyValueBytes payer row := by
  simp only [eraseKeyValue, drift, Store.billable, total_eraseP found]
  omega

theorem eraseIndex64_drift {row : Index64Object}
    (found : context.store.index64s.find? (isRow row.id) = some row) :
    (context.eraseIndex64 row).drift payer =
      context.drift payer + index64Bytes payer row := by
  simp only [eraseIndex64, drift, Store.billable, total_eraseP found]
  omega

/-- An update records the new bytes for the new payer and takes the old bytes
off the old one. -/
theorem chargeUpdate_drift (nonzero : payer ≠ 0) (obj : KeyValueObject)
    (account : Name) (oldSize newSize : ℤ) :
    (context.chargeUpdate obj account oldSize newSize).drift payer =
      context.drift payer - chargedTo obj.payer payer oldSize +
        chargedTo account payer newSize := by
  unfold chargeUpdate
  split
  next changed =>
      rw [updateRamStatistics_drift nonzero,
        updateRamStatistics_drift nonzero, chargedTo_neg]
      omega
  next same =>
      have samePayer : obj.payer = account := not_ne_iff.mp same
      subst samePayer
      split
      · rw [updateRamStatistics_drift nonzero, chargedTo_sub]
        omega
      next sameSize =>
        rw [not_ne_iff.mp sameSize]
        omega

section Effects

variable {store : Store}

theorem storedKeyValue_drift (nonzero : payer ≠ 0)
    (late : context.afterHardfork1016 forks) (formed : context.store.Formed)
    {scope table account : Name} {id : UInt64} {buffer : List UInt8}
    {created : KeyValueObject × ApplyContext}
    (creates :
      (context.findOrCreateTable forks context.receiver scope table
        account).2.createKeyValue
          (context.findOrCreateTable forks context.receiver scope table
            account).1.id account id buffer = .ok created) :
    (context.storedKeyValue forks scope table account buffer created).drift
        payer =
      context.drift payer := by
  have found := createdKeyValue_found formed creates
  have sameTime :
      created.2.store.headBlockTime = context.store.headBlockTime := by
    rw [(createKeyValue_steady creates).headBlockTime,
      (findOrCreateTable_steady forks context _ _ _ _).headBlockTime]
  have createdLate : created.2.afterHardfork1016 forks :=
    (afterHardfork1016_congr sameTime).mpr late
  unfold storedKeyValue countKeyValue
  rw [if_pos (by simpa [afterHardfork1016] using createdLate),
    setCount_drift (by simpa using found),
    updateDbUsage_drift nonzero createdLate, createKeyValue_drift creates,
    findOrCreateTable_drift nonzero late]
  omega

theorem storedIndex64_drift (nonzero : payer ≠ 0)
    (late : context.afterHardfork1016 forks) (formed : context.store.Formed)
    {scope table account : Name} {id secondary : UInt64}
    {created : Index64Object × ApplyContext}
    (creates :
      (context.findOrCreateTable forks context.receiver scope table
        account).2.createIndex64
          (context.findOrCreateTable forks context.receiver scope table
            account).1.id account id secondary = .ok created) :
    (context.storedIndex64 forks scope table account created).drift payer =
      context.drift payer := by
  have found := createdIndex64_found formed creates
  have sameTime :
      created.2.store.headBlockTime = context.store.headBlockTime := by
    rw [(createIndex64_steady creates).headBlockTime,
      (findOrCreateTable_steady forks context _ _ _ _).headBlockTime]
  have createdLate : created.2.afterHardfork1016 forks :=
    (afterHardfork1016_congr sameTime).mpr late
  unfold storedIndex64
  rw [updateDbUsage_drift nonzero (by exact createdLate),
    setCount_drift found, createIndex64_drift creates, findOrCreateTable_drift nonzero late]
  omega

variable {tableObj : TableIdObject}

theorem countDown_drift (nonzero : payer ≠ 0)
    (found : context.store.tables.find? (isTable tableObj.id) = some tableObj) :
    (context.countDown forks tableObj).drift payer =
      context.drift payer := by
  unfold countDown
  split
  · have counted := find_setCount (tableObj.count - 1) found
    rw [removeTable_drift nonzero counted rfl, setCount_drift found]
  · exact setCount_drift found

theorem removedKeyValue_drift (nonzero : payer ≠ 0)
    (late : context.afterHardfork1016 forks) {obj : KeyValueObject}
    (row : context.store.keyValues.find? (isRow obj.id) = some obj)
    (found : context.store.tables.find? (isTable tableObj.id) = some tableObj) :
    (context.removedKeyValue forks obj tableObj).drift payer =
      context.drift payer := by
  unfold removedKeyValue
  rw [eraseKeyValue_drift (by simpa using row), discountKeyValue,
    if_pos (by simpa [afterHardfork1016] using late),
    countDown_drift nonzero (by simpa using found),
    updateDbUsage_drift nonzero late, chargedTo_neg]
  simp only [chargedTo, keyValueBytes]
  omega

theorem dropEmptyTable_drift
    (nonzero : payer ≠ 0) {tableObj found : TableIdObject}
    (isFound : context.store.tables.find? (isTable tableObj.id) = some found)
    (samePayer : found.payer = tableObj.payer) :
    (context.dropEmptyTable tableObj).drift payer = context.drift payer := by
  unfold dropEmptyTable
  split
  · exact removeTable_drift nonzero isFound samePayer
  · rfl

theorem removedIndex64_drift (nonzero : payer ≠ 0)
    (late : context.afterHardfork1016 forks) {obj : Index64Object}
    (row : context.store.index64s.find? (isRow obj.id) = some obj)
    (found : context.store.tables.find? (isTable tableObj.id) = some tableObj) :
    (context.removedIndex64 forks obj tableObj).drift payer =
      context.drift payer := by
  have refunded :
      (context.updateDbUsage forks obj.payer
        (-index64ObjectSize)).store.tables.find? (isTable tableObj.id) =
          some tableObj := by
    simpa using found
  have erased :
      (((context.updateDbUsage forks obj.payer
        (-index64ObjectSize)).setCount tableObj
          (tableObj.count - 1)).eraseIndex64 obj).store.tables.find?
            (isTable tableObj.id) =
        some { tableObj with count := tableObj.count - 1 } :=
    find_setCount (tableObj.count - 1) refunded
  unfold removedIndex64
  rw [dropEmptyTable_drift nonzero erased rfl,
    eraseIndex64_drift (by simpa [setCount] using row),
    setCount_drift refunded, updateDbUsage_drift nonzero late,
    chargedTo_neg]
  simp only [chargedTo, index64Bytes]
  omega

/-- After the hard fork a call keeps what is recorded for a payer in step with
what the payer pays for. -/
theorem effect_drift {call : Call} (nonzero : payer ≠ 0)
    (late : forks.hardfork1021Time < context.store.headBlockTime)
    (formed : context.store.Formed) (effect : Effect forks context call after) :
    after.drift payer = context.drift payer := by
  have late1016 : context.afterHardfork1016 forks :=
    UInt32.lt_of_le_of_lt forks.ordered late
  cases effect with
  | looked _ => rfl
  | storedKeyValue _ creates =>
      exact storedKeyValue_drift nonzero late1016 formed creates
  | @updatedKeyValue _ _ account buffer obj _ _ own =>
      rw [replaceKeyValue_drift (by simpa using own.row), payUpdate,
        if_pos late1016, chargeUpdate_drift nonzero]
      simp only [chargedTo, keyValueBytes]
      omega
  | removedKeyValue own =>
      exact removedKeyValue_drift nonzero late1016 own.row own.found
  | storedIndex64 _ creates =>
      exact storedIndex64_drift nonzero late1016 formed creates
  | @updatedIndex64 _ _ account _ obj _ _ own =>
      have samePayer : context.updatedPayer forks obj account = obj.payer :=
        if_neg (UInt32.not_le.mpr late)
      rw [replaceIndex64_drift (by exact own.row)]
      simp only [index64Bytes, samePayer]
      omega
  | removedIndex64 own =>
      exact removedIndex64_drift nonzero late1016 own.row own.found

end Effects

section Runs

theorem perform_drift {call : Call} (nonzero : payer ≠ 0)
    (late : forks.hardfork1021Time < context.store.headBlockTime)
    (formed : context.store.Formed)
    (returns : context.perform forks call = .ok after) :
    after.drift payer = context.drift payer := by
  obtain ⟨middle, effect, same⟩ := perform_effect returns
  have step := effect_drift nonzero late formed effect
  unfold drift at step ⊢
  rw [same.store, same.ramStatistics]
  exact step

/-- What every call keeps from the start of an execution on. -/
structure Settled (forks : HardForks) (payer : Name)
    (start current : ApplyContext) : Prop where
  formed : current.store.Formed
  late : forks.hardfork1021Time < current.store.headBlockTime
  drift : current.drift payer = start.drift payer

theorem performAll_settled {calls : List Call} (nonzero : payer ≠ 0)
    (formed : context.store.Formed)
    (late : forks.hardfork1021Time < context.store.headBlockTime)
    (returns : context.performAll forks calls = .ok after) :
    Settled forks payer context after := by
  refine foldlM_keeps ?_ ⟨formed, late, rfl⟩ returns
  rintro call _ before later settled performs
  refine ⟨perform_formed settled.formed performs, ?_, ?_⟩
  · rw [perform_headBlockTime performs]
    exact settled.late
  · rw [perform_drift nonzero settled.late settled.formed performs]
    exact settled.drift

/-- After the hard fork, whatever tables a contract finds and whatever calls it
makes, what is recorded for an account is the change of the bytes the account
pays for. -/
theorem ram_statistics_exact
    {calls : List Call}
    (formed : context.store.Formed)
    (late : forks.hardfork1021Time < context.store.headBlockTime)
    (returns : context.performAll forks calls = .ok after)
    (payer : Name) (nonzero : payer ≠ 0) :
    after.ramStatistics payer - context.ramStatistics payer =
      after.store.billable payer - context.store.billable payer := by
  have settled := performAll_settled nonzero formed late returns
  have equal := settled.drift
  unfold drift at equal
  omega

/-- A row is stored for the caller and an index row for the contract, the row
moves to the contract, and the index row is removed. -/
def movingCalls : List Call :=
  [.dbStoreI64 1 2 5 1 [1, 2, 3], .idx64Store 1 2 0 1 9,
    .dbUpdateI64 0 0 [4], .idx64Remove 0]

theorem ram_statistics_exact_movingCalls :
    ∃ after,
      (first 1600000000).performAll .mainnet movingCalls = .ok after ∧
        after.ramStatistics 7 - (first 1600000000).ramStatistics 7 =
          after.store.billable 7 - (first 1600000000).store.billable 7 := by
  have late :
      HardForks.mainnet.hardfork1021Time <
        (first 1600000000).store.headBlockTime := by
    decide
  have returns :
      ∃ after, (first 1600000000).performAll .mainnet movingCalls = .ok after :=
    ⟨_, rfl⟩
  obtain ⟨after, returns⟩ := returns
  exact
    ⟨after, returns,
      ram_statistics_exact (Store.formed_empty _) late returns 7 (by decide)⟩

end Runs

end ApplyContext

end GxbCore.Contract
