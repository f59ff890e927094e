import GxbCore.Contract.Stores

/-!
# Contracts write their own tables only

Whatever calls a contract makes in one execution, the tables of all other
contracts and the rows in them are left as they were, and no table is made in
the name of another contract.
-/

namespace GxbCore.Contract

def rowsOf {ρ : Type} [TableRow ρ] (table : Nat) (rows : List ρ) : List ρ :=
  rows.filter fun row => TableRow.tId row == table

def Store.othersOf (receiver : Name) (store : Store) : List TableIdObject :=
  store.tables.filter fun tab => tab.code != receiver

/-- The tables of other contracts are the same, with the same rows. -/
structure LeavesOthers (receiver : Name) (before after : Store) : Prop where
  tables : after.othersOf receiver = before.othersOf receiver
  keyValues :
    ∀ tab ∈ before.othersOf receiver,
      rowsOf tab.id after.keyValues = rowsOf tab.id before.keyValues
  index64s :
    ∀ tab ∈ before.othersOf receiver,
      rowsOf tab.id after.index64s = rowsOf tab.id before.index64s

theorem LeavesOthers.trans {receiver : Name} {before middle after : Store}
    (first : LeavesOthers receiver before middle)
    (second : LeavesOthers receiver middle after) :
    LeavesOthers receiver before after where
  tables := second.tables.trans first.tables
  keyValues := by
    intro tab member
    rw [second.keyValues tab (first.tables ▸ member),
      first.keyValues tab member]
  index64s := by
    intro tab member
    rw [second.index64s tab (first.tables ▸ member),
      first.index64s tab member]

theorem Store.mem_othersOf {receiver : Name} {store : Store}
    {tab : TableIdObject} :
    tab ∈ store.othersOf receiver ↔
      tab ∈ store.tables ∧ tab.code ≠ receiver := by
  simp [Store.othersOf]

section Rows

variable {ρ : Type} [TableRow ρ] {rows : List ρ} {row : ρ} {table : Nat}

theorem rowsOf_concat (elsewhere : TableRow.tId row ≠ table) :
    rowsOf table (rows ++ [row]) = rowsOf table rows := by
  simp [rowsOf, elsewhere]

theorem rowsOf_replaceFirst {fresh : ρ} {pointer : Nat}
    (found : rows.find? (isRow pointer) = some row)
    (same : TableRow.tId fresh = TableRow.tId row)
    (elsewhere : TableRow.tId row ≠ table) :
    rowsOf table (replaceFirst (isRow pointer) fresh rows) =
      rowsOf table rows :=
  filter_replaceFirst_of_not found (by simpa using elsewhere)
    (by simpa [same] using elsewhere)

theorem rowsOf_eraseP {pointer : Nat}
    (found : rows.find? (isRow pointer) = some row)
    (elsewhere : TableRow.tId row ≠ table) :
    rowsOf table (rows.eraseP (isRow pointer)) = rowsOf table rows :=
  filter_eraseP_of_not found (by simpa using elsewhere)

end Rows

namespace ApplyContext

variable {forks : HardForks} {context after : ApplyContext}
  {receiver : Name} {tab tableObj : TableIdObject}

section Tables

variable (code : tableObj.code = receiver)
  (found : context.store.tables.find? (isTable tableObj.id) = some tableObj)

include code found

theorem setCount_othersOf (count : UInt32) :
    (context.setCount tableObj count).store.othersOf receiver =
      context.store.othersOf receiver :=
  filter_replaceFirst_of_not found (by simp [code]) (by simp [code])

theorem removeTable_othersOf :
    (context.removeTable tableObj).store.othersOf receiver =
      context.store.othersOf receiver := by
  simp only [removeTable, updateRamStatistics_store]
  exact filter_eraseP_of_not found (by simp [code])

theorem removeTable_setCount_othersOf (count : UInt32) :
    ((context.setCount tableObj count).removeTable tableObj).store.othersOf
        receiver =
      context.store.othersOf receiver := by
  have foundAfter := find_setCount count found
  rw [← setCount_othersOf code found count]
  exact @removeTable_othersOf (context.setCount tableObj count) _
    { tableObj with count := count } code foundAfter

theorem discountKeyValue_othersOf :
    (context.discountKeyValue forks tableObj).store.othersOf receiver =
      context.store.othersOf receiver := by
  unfold discountKeyValue countDown
  split
  · split
    · exact removeTable_setCount_othersOf code found _
    · exact setCount_othersOf code found _
  · rfl

end Tables

/-- The table of a new row belongs to the contract. -/
theorem findOrCreateTable_code (forks : HardForks) (context : ApplyContext)
    (scope table payer : Name) :
    (context.findOrCreateTable forks context.receiver scope table
      payer).1.code = context.receiver := by
  rcases
      findOrCreateTable_cases forks context context.receiver scope table
        payer with
    ⟨tab, found, made⟩ | ⟨_, made, _⟩
  · have isTheTable := List.find?_some found
    rw [made]
    simp only [Bool.and_eq_true, beq_iff_eq] at isTheTable
    exact isTheTable.1.1
  · rw [made]

theorem findOrCreateTable_othersOf (forks : HardForks) (context : ApplyContext)
    (scope table payer : Name) :
    (context.findOrCreateTable forks context.receiver scope table
        payer).2.store.othersOf context.receiver =
      context.store.othersOf context.receiver := by
  rcases
      findOrCreateTable_cases forks context context.receiver scope table
        payer with
    ⟨_, _, made⟩ | ⟨_, _, store⟩
  · rw [made]
  · rw [store]
    simp [Store.othersOf, withNewTable]

section Call

variable (formed : context.store.Formed)

include formed

theorem OwnRow.elsewhere {ρ : Type} [TableRow ρ] {cache : IteratorCache}
    {rows : List ρ} {iterator : Int} {obj : ρ}
    (own : OwnRow context cache rows iterator obj tableObj)
    (other : tab ∈ context.store.othersOf context.receiver) :
    TableRow.tId obj ≠ tab.id := by
  obtain ⟨member, code⟩ := Store.mem_othersOf.mp other
  intro same
  have found := own.table
  rw [same, formed.tables.find member, Option.some.injEq] at found
  exact code (found ▸ own.code)

theorem made_elsewhere (scope table payer : Name)
    (other : tab ∈ context.store.othersOf context.receiver) :
    (context.findOrCreateTable forks context.receiver scope table
      payer).1.id ≠ tab.id := by
  obtain ⟨member, code⟩ := Store.mem_othersOf.mp other
  have made :=
    findOrCreateTable_made forks formed context.receiver scope table payer
  have still := made_tables forks member scope table payer
  intro same
  have found := made.found
  rw [same, made.formed.tables.find still, Option.some.injEq] at found
  exact code (found ▸ findOrCreateTable_code forks context scope table payer)

/-- Each of the seven effects leaves the tables of other contracts alone. -/
theorem effect_leavesOthers
    {call : Call} (effect : Effect forks context call after) :
    LeavesOthers context.receiver context.store after.store := by
  cases effect with
  | looked _ => exact ⟨rfl, fun _ _ => rfl, fun _ _ => rfl⟩
  | @storedKeyValue scope table _ payer _ buffer created _ creates =>
      obtain ⟨keyValues, index64s⟩ :=
        @storedKeyValue_rows forks context scope table payer _ buffer created
          formed creates
      have code :=
        findOrCreateTable_code forks context scope table payer
      refine ⟨?_, ?_, fun _ _ => by rw [index64s]⟩
      · rw [← findOrCreateTable_othersOf forks context scope table payer]
        have tables := createKeyValue_tables creates
        have found := createdKeyValue_found formed creates
        unfold storedKeyValue countKeyValue
        split
        · rw [setCount_othersOf code (by simpa using found)]
          simp [Store.othersOf, tables]
        · simp [Store.othersOf, tables]
      · intro tab other
        rw [keyValues]
        refine rowsOf_concat ?_
        rw [(createKeyValue_eq_ok creates).2.1]
        exact made_elsewhere formed scope table payer other
  | updatedKeyValue _ own =>
      refine ⟨?_, ?_, ?_⟩
      · simp [replaceKeyValue, Store.othersOf]
      · intro tab other
        simp only [replaceKeyValue, payUpdate_store]
        exact rowsOf_replaceFirst own.row rfl (own.elsewhere formed other)
      · intro tab _
        simp [replaceKeyValue]
  | @removedKeyValue _ obj tableObj own =>
      refine ⟨?_, ?_, ?_⟩
      · have others :=
          @discountKeyValue_othersOf forks
            (context.updateDbUsage forks obj.payer
              (-(obj.value.length + keyValueObjectSize))) _ _ own.code
            (by simpa using own.found)
        simpa [removedKeyValue, eraseKeyValue, Store.othersOf] using others
      · intro tab other
        simp only [removedKeyValue, eraseKeyValue,
          discountKeyValue_keyValues, updateDbUsage_store]
        exact rowsOf_eraseP own.row (own.elsewhere formed other)
      · intro tab _
        simp [removedKeyValue, eraseKeyValue]
  | @storedIndex64 scope table _ payer _ _ created _ creates =>
      obtain ⟨keyValues, index64s⟩ := storedIndex64_rows formed creates
      have code :=
        findOrCreateTable_code forks context scope table payer
      refine ⟨?_, fun _ _ => by rw [keyValues], ?_⟩
      · rw [← findOrCreateTable_othersOf forks context scope table payer]
        have tables := createIndex64_tables creates
        have found := createdIndex64_found formed creates
        unfold storedIndex64
        rw [updateDbUsage_store, setCount_othersOf code found]
        simp [Store.othersOf, tables]
      · intro tab other
        rw [index64s]
        refine rowsOf_concat ?_
        rw [(createIndex64_eq_ok creates).2.1]
        exact made_elsewhere formed scope table payer other
  | updatedIndex64 _ own =>
      refine ⟨rfl, fun _ _ => rfl, ?_⟩
      intro tab other
      exact rowsOf_replaceFirst own.row rfl (own.elsewhere formed other)
  | @removedIndex64 _ obj tableObj own =>
      obtain ⟨keyValues, index64s⟩ :=
        @removedIndex64_rows forks context tableObj obj
      refine ⟨?_, fun _ _ => by rw [keyValues], ?_⟩
      · have found :
            (context.updateDbUsage forks obj.payer
              (-index64ObjectSize)).store.tables.find?
                (isTable tableObj.id) = some tableObj := by
          simpa using own.found
        unfold removedIndex64 dropEmptyTable
        split
        · have others :=
            removeTable_setCount_othersOf own.code found (tableObj.count - 1)
          simpa [removeTable, eraseIndex64, Store.othersOf] using others
        · have others :=
            setCount_othersOf own.code found (tableObj.count - 1)
          simpa [eraseIndex64, Store.othersOf] using others
      · intro tab other
        rw [index64s]
        exact rowsOf_eraseP own.row (own.elsewhere formed other)

end Call

/-- What every call of an execution keeps. -/
structure Isolated (start current : ApplyContext) : Prop where
  formed : current.store.Formed
  receiver : current.receiver = start.receiver
  leaves : LeavesOthers start.receiver start.store current.store

/-- Whatever tables a contract finds and whatever calls it makes, the tables of
other contracts stay as they are. -/
theorem calls_leave_others {calls : List Call} (formed : context.store.Formed)
    (returns : context.performAll forks calls = .ok after) :
    LeavesOthers context.receiver context.store after.store := by
  have begins : Isolated context context :=
    ⟨formed, rfl, rfl, fun _ _ => rfl, fun _ _ => rfl⟩
  refine (foldlM_keeps ?_ begins returns : Isolated context after).leaves
  intro call _ before later isolated performs
  obtain ⟨middle, effect, same⟩ := perform_effect performs
  refine ⟨perform_formed isolated.formed performs, ?_, ?_⟩
  · rw [same.receiver, (effect_steady effect).receiver, isolated.receiver]
  · have left := effect_leavesOthers isolated.formed effect
    rw [← same.store, isolated.receiver] at left
    exact isolated.leaves.trans left

/-- Contract 7 makes its calls where contract 9 has a table with a row. -/
theorem calls_leave_others_movingCalls :
    ∃ context after : ApplyContext,
      context.performAll .mainnet
          [.dbStoreI64 1 2 5 1 [1, 2, 3], .dbRemoveI64 0] = .ok after ∧
        context.store.othersOf 7 ≠ [] ∧
        LeavesOthers 7 context.store after.store := by
  let store : Store :=
    { Store.empty 1600000000 with
      tables := [⟨0, 9, 1, 2, 9, 1⟩]
      keyValues := [⟨0, 0, 1, 9, [4]⟩]
      nextTableId := 1
      nextKeyValueId := 1 }
  have formed : store.Formed :=
    ⟨⟨by decide, by decide⟩, ⟨by decide, by decide, by decide⟩,
      ⟨by decide, by decide, by decide⟩⟩
  have returns :
      ∃ after, (start store 5 7 5 fun _ => 0).performAll .mainnet
        [.dbStoreI64 1 2 5 1 [1, 2, 3], .dbRemoveI64 0] = .ok after :=
    ⟨_, rfl⟩
  obtain ⟨after, returns⟩ := returns
  exact
    ⟨start store 5 7 5 fun _ => 0, after, returns, by decide,
      calls_leave_others formed returns⟩

end ApplyContext

end GxbCore.Contract
