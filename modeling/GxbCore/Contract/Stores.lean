import GxbCore.Contract.Effects

/-!
# Well-formed tables

What the unique indices of the object database enforce: one object for an id,
ids that were not given out yet above all others, and one row for a primary key
of a table.  Every table call keeps this.
-/

namespace GxbCore.Contract

section Rows

variable {ρ : Type} [TableRow ρ]

/-- The unique keys of the rows of one kind. -/
structure RowsFormed (rows : List ρ) (next : Nat) : Prop where
  ids : (rows.map TableRow.id).Nodup
  fresh : ∀ row ∈ rows, TableRow.id row < next
  keys : (rows.map fun row => (TableRow.tId row, TableRow.primaryKey row)).Nodup

variable {rows : List ρ} {next : Nat}

theorem RowsFormed.concat (formed : RowsFormed rows next) {row : ρ}
    (id : TableRow.id row = next)
    (newKey :
      ∀ other ∈ rows,
        ¬(TableRow.tId other = TableRow.tId row ∧
          TableRow.primaryKey other = TableRow.primaryKey row)) :
    RowsFormed (rows ++ [row]) (next + 1) where
  ids := by
    apply nodup_map_concat formed.ids
    intro other member
    have smaller := formed.fresh other member
    omega
  fresh := by
    apply forall_concat
    · intro other member
      have smaller := formed.fresh other member
      omega
    · omega
  keys := by
    apply nodup_map_concat formed.keys
    intro other member same
    exact newKey other member (Prod.mk.inj same)

theorem RowsFormed.replace (formed : RowsFormed rows next) {row old : ρ}
    {pointer : Nat} (found : rows.find? (isRow pointer) = some old)
    (id : TableRow.id row = TableRow.id old)
    (tId : TableRow.tId row = TableRow.tId old)
    (primaryKey : TableRow.primaryKey row = TableRow.primaryKey old) :
    RowsFormed (replaceFirst (isRow pointer) row rows) next where
  ids := by
    rw [map_replaceFirst found id]
    exact formed.ids
  fresh := by
    apply forall_replaceFirst formed.fresh
    rw [id]
    exact formed.fresh old (List.mem_of_find?_eq_some found)
  keys := by
    rw [map_replaceFirst found (by rw [tId, primaryKey])]
    exact formed.keys

theorem RowsFormed.erase (formed : RowsFormed rows next) (pointer : Nat) :
    RowsFormed (rows.eraseP (isRow pointer)) next where
  ids := nodup_map_eraseP formed.ids _
  fresh := forall_eraseP formed.fresh
  keys := nodup_map_eraseP formed.keys _

theorem RowsFormed.find
    (formed : RowsFormed rows next) {row : ρ} (member : row ∈ rows) :
    rows.find? (isRow (TableRow.id row)) = some row :=
  find_key_of_nodup formed.ids member

end Rows

section Tables

structure TablesFormed (tables : List TableIdObject) (next : Nat) : Prop where
  ids : (tables.map TableIdObject.id).Nodup
  fresh : ∀ tab ∈ tables, tab.id < next

variable {tables : List TableIdObject} {next : Nat} {tab : TableIdObject}

theorem TablesFormed.concat (formed : TablesFormed tables next)
    (id : tab.id = next) : TablesFormed (tables ++ [tab]) (next + 1) where
  ids := by
    apply nodup_map_concat formed.ids
    intro other member
    have smaller := formed.fresh other member
    omega
  fresh := by
    apply forall_concat
    · intro other member
      have smaller := formed.fresh other member
      omega
    · omega

theorem TablesFormed.find (formed : TablesFormed tables next)
    (member : tab ∈ tables) : tables.find? (isTable tab.id) = some tab :=
  find_key_of_nodup formed.ids member

theorem TablesFormed.recount (formed : TablesFormed tables next)
    (found : tables.find? (isTable tab.id) = some tab) (count : UInt32) :
    TablesFormed
      (replaceFirst (isTable tab.id) { tab with count := count } tables)
      next where
  ids := by
    rw [map_replaceFirst found]
    · exact formed.ids
    · rfl
  fresh := by
    apply forall_replaceFirst formed.fresh
    exact formed.fresh tab (List.mem_of_find?_eq_some found)

theorem TablesFormed.erase (formed : TablesFormed tables next) (pointer : Nat) :
    TablesFormed (tables.eraseP (isTable pointer)) next where
  ids := nodup_map_eraseP formed.ids _
  fresh := forall_eraseP formed.fresh

theorem mem_of_findTable {code scope table : Name}
    (found : findTable tables code scope table = some tab) : tab ∈ tables :=
  List.mem_of_find?_eq_some found

end Tables

/-- The unique keys of a store. -/
structure Store.Formed (store : Store) : Prop where
  tables : TablesFormed store.tables store.nextTableId
  keyValues : RowsFormed store.keyValues store.nextKeyValueId
  index64s : RowsFormed store.index64s store.nextIndex64Id

/-- The store of the genesis state. -/
def Store.empty (headBlockTime : Time) : Store :=
  { tables := []
    keyValues := []
    index64s := []
    nextTableId := 0
    nextKeyValueId := 0
    nextIndex64Id := 0
    headBlockTime := headBlockTime }

theorem Store.formed_empty (headBlockTime : Time) :
    (Store.empty headBlockTime).Formed where
  tables := ⟨List.nodup_nil, fun _ member => by cases member⟩
  keyValues :=
    ⟨List.nodup_nil, fun _ member => (by cases member), List.nodup_nil⟩
  index64s :=
    ⟨List.nodup_nil, fun _ member => (by cases member), List.nodup_nil⟩

/-- Contract 7, called by account 5 at some time on an empty store. -/
def ApplyContext.first (headBlockTime : Time) : ApplyContext :=
  .start (.empty headBlockTime) 5 7 5 (fun _ => 0)

namespace ApplyContext

variable {forks : HardForks} {context after : ApplyContext}
  {tab : TableIdObject} {tableObj : TableIdObject}

theorem find_setCount (count : UInt32)
    (found : context.store.tables.find? (isTable tab.id) = some tab) :
    (context.setCount tab count).store.tables.find? (isTable tab.id) =
      some { tab with count := count } :=
  find_replaceFirst found (by simp [isTable])

theorem setCount_store_congr {other : ApplyContext}
    (same : other.store = context.store) {count : UInt32} :
    (other.setCount tab count).store =
      (context.setCount tab count).store := by
  simp [setCount, same]

theorem setCount_formed (formed : context.store.Formed)
    (found : context.store.tables.find? (isTable tab.id) = some tab)
    (count : UInt32) :
    (context.setCount tab count).store.Formed where
  tables := formed.tables.recount found count
  keyValues := formed.keyValues
  index64s := formed.index64s

theorem removeTable_formed
    (formed : context.store.Formed) (tab : TableIdObject) :
    (context.removeTable tab).store.Formed where
  tables := by
    simpa [removeTable] using formed.tables.erase tab.id
  keyValues := by
    simpa [removeTable] using formed.keyValues
  index64s := by
    simpa [removeTable] using formed.index64s

/-- What `find_or_create_table` leaves: the rows as they were, and the table
object it answers with. -/
structure TableMade (context : ApplyContext)
    (made : TableIdObject × ApplyContext) : Prop where
  formed : made.2.store.Formed
  found : made.2.store.tables.find? (isTable made.1.id) = some made.1
  keyValues : made.2.store.keyValues = context.store.keyValues
  index64s : made.2.store.index64s = context.store.index64s

def withNewTable (store : Store) (code scope table payer : Name) : Store :=
  { store with
    tables :=
      store.tables ++
        [{ id := store.nextTableId
           code, scope, table, payer
           count := 0 }]
    nextTableId := store.nextTableId + 1 }

/-- The table is there already, or it is created without rows. -/
theorem findOrCreateTable_cases (forks : HardForks) (context : ApplyContext)
    (code scope table payer : Name) :
    (∃ tab,
      findTable context.store.tables code scope table = some tab ∧
        context.findOrCreateTable forks code scope table payer =
          (tab, context)) ∨
      findTable context.store.tables code scope table = none ∧
        (context.findOrCreateTable forks code scope table payer).1 =
          { id := context.store.nextTableId
            code, scope, table, payer
            count := 0 } ∧
        (context.findOrCreateTable forks code scope table payer).2.store =
          withNewTable context.store code scope table payer := by
  unfold findOrCreateTable
  cases found : findTable context.store.tables code scope table with
  | some tab => exact .inl ⟨tab, rfl, rfl⟩
  | none =>
      refine .inr ⟨rfl, rfl, ?_⟩
      dsimp only
      split
      · simp only [updateRamStatistics_store, withNewTable]
      · rfl

theorem findOrCreateTable_made (forks : HardForks)
    (formed : context.store.Formed) (code scope table payer : Name) :
    TableMade context
      (context.findOrCreateTable forks code scope table payer) := by
  rcases findOrCreateTable_cases forks context code scope table payer with
    ⟨tab, found, made⟩ | ⟨_, made, store⟩
  · rw [made]
    exact
      { formed := formed
        found := formed.tables.find (mem_of_findTable found)
        keyValues := rfl
        index64s := rfl }
  · have newFormed :
        (withNewTable context.store code scope table payer).Formed :=
      ⟨formed.tables.concat rfl, formed.keyValues, formed.index64s⟩
    refine ⟨?_, ?_, ?_, ?_⟩
    · rw [store]
      exact newFormed
    · rw [store, made]
      exact
        newFormed.tables.find (List.mem_append_right _ List.mem_cons_self)
    · rw [store]
      rfl
    · rw [store]
      rfl

section CreatedKeyValue

variable {tId : Nat} {payer : Name} {id : UInt64} {buffer : List UInt8}
  {created : KeyValueObject × ApplyContext}
  (creates : context.createKeyValue tId payer id buffer = .ok created)

include creates

theorem createKeyValue_eq_ok :
    (∀ row ∈ context.store.keyValues,
        ¬(row.tId = tId ∧ row.primaryKey = id)) ∧
      created.1 =
        { id := context.store.nextKeyValueId
          tId, payer
          primaryKey := id
          value := buffer } ∧
      created.2 =
        { context with
          store.keyValues := context.store.keyValues ++ [created.1]
          store.nextKeyValueId := context.store.nextKeyValueId + 1 } := by
  unfold createKeyValue at creates
  obtain ⟨_, newKey, creates⟩ := bind_eq_ok.mp creates
  cases creates
  exact ⟨fcAssert_eq_ok.mp newKey, rfl, rfl⟩

theorem createKeyValue_formed (formed : context.store.Formed) :
    created.2.store.Formed := by
  obtain ⟨newKey, row, store⟩ := createKeyValue_eq_ok creates
  rw [store]
  refine ⟨formed.tables, ?_, formed.index64s⟩
  apply formed.keyValues.concat
  · rw [row]
    rfl
  · rw [row]
    exact newKey

theorem createKeyValue_tables :
    created.2.store.tables = context.store.tables := by
  rw [(createKeyValue_eq_ok creates).2.2]

end CreatedKeyValue

section CreatedIndex64

variable {tId : Nat} {payer : Name} {id secondary : UInt64}
  {created : Index64Object × ApplyContext}
  (creates : context.createIndex64 tId payer id secondary = .ok created)

include creates

theorem createIndex64_eq_ok :
    (∀ row ∈ context.store.index64s,
        ¬(row.tId = tId ∧ row.primaryKey = id)) ∧
      created.1 =
        { id := context.store.nextIndex64Id
          tId, payer
          primaryKey := id
          secondaryKey := secondary } ∧
      created.2 =
        { context with
          store.index64s := context.store.index64s ++ [created.1]
          store.nextIndex64Id := context.store.nextIndex64Id + 1 } := by
  unfold createIndex64 at creates
  obtain ⟨_, newKey, creates⟩ := bind_eq_ok.mp creates
  cases creates
  exact ⟨fcAssert_eq_ok.mp newKey, rfl, rfl⟩

theorem createIndex64_formed (formed : context.store.Formed) :
    created.2.store.Formed := by
  obtain ⟨newKey, row, store⟩ := createIndex64_eq_ok creates
  rw [store]
  refine ⟨formed.tables, formed.keyValues, ?_⟩
  apply formed.index64s.concat
  · rw [row]
    rfl
  · rw [row]
    exact newKey

theorem createIndex64_tables :
    created.2.store.tables = context.store.tables := by
  rw [(createIndex64_eq_ok creates).2.2]

end CreatedIndex64

theorem eraseKeyValue_formed
    (formed : context.store.Formed) (row : KeyValueObject) :
    (context.eraseKeyValue row).store.Formed :=
  ⟨formed.tables, formed.keyValues.erase row.id, formed.index64s⟩

theorem eraseIndex64_formed
    (formed : context.store.Formed) (row : Index64Object) :
    (context.eraseIndex64 row).store.Formed :=
  ⟨formed.tables, formed.keyValues, formed.index64s.erase row.id⟩

theorem dropEmptyTable_formed
    (formed : context.store.Formed) (tableObj : TableIdObject) :
    (context.dropEmptyTable tableObj).store.Formed := by
  unfold dropEmptyTable
  split
  · exact removeTable_formed formed tableObj
  · exact formed

theorem countDown_formed (formed : context.store.Formed)
    (found : context.store.tables.find? (isTable tableObj.id) = some tableObj) :
    (context.countDown forks tableObj).store.Formed := by
  unfold countDown
  split
  · exact removeTable_formed (setCount_formed formed found _) tableObj
  · exact setCount_formed formed found _

theorem OwnRow.found {ρ : Type} [TableRow ρ] {cache : IteratorCache}
    {rows : List ρ} {iterator : Int} {obj : ρ} {tableObj : TableIdObject}
    (own : OwnRow context cache rows iterator obj tableObj) :
    context.store.tables.find? (isTable tableObj.id) = some tableObj := by
  rw [id_of_find_isTable own.table]
  exact own.table

section StoredKeyValue

variable {scope table payer : Name} {id : UInt64} {buffer : List UInt8}
  {created : KeyValueObject × ApplyContext}
  (formed : context.store.Formed)
  (creates :
    (context.findOrCreateTable forks context.receiver scope table
      payer).2.createKeyValue
        (context.findOrCreateTable forks context.receiver scope table
          payer).1.id payer id buffer = .ok created)

include formed creates

theorem createdKeyValue_found :
    created.2.store.tables.find?
        (isTable
          (context.findOrCreateTable forks context.receiver scope table
            payer).1.id) =
      some
        (context.findOrCreateTable forks context.receiver scope table
          payer).1 := by
  rw [createKeyValue_tables creates]
  exact
    (findOrCreateTable_made forks formed context.receiver scope table
      payer).found

theorem storedKeyValue_rows :
    (context.storedKeyValue forks scope table payer buffer
        created).store.keyValues =
      context.store.keyValues ++ [created.1] ∧
    (context.storedKeyValue forks scope table payer buffer
        created).store.index64s =
      context.store.index64s := by
  have made :=
    findOrCreateTable_made forks formed context.receiver scope table payer
  have keyValues :
      created.2.store.keyValues = context.store.keyValues ++ [created.1] := by
    rw [(createKeyValue_eq_ok creates).2.2, ← made.keyValues]
  have index64s : created.2.store.index64s = context.store.index64s := by
    rw [(createKeyValue_eq_ok creates).2.2, ← made.index64s]
  unfold storedKeyValue countKeyValue
  split
  · simpa [setCount] using ⟨keyValues, index64s⟩
  · simpa using ⟨keyValues, index64s⟩

theorem storedKeyValue_table :
    ∃ tab ∈
        (context.storedKeyValue forks scope table payer buffer
          created).store.tables,
      tab.id =
        (context.findOrCreateTable forks context.receiver scope table
          payer).1.id := by
  have found := createdKeyValue_found formed creates
  unfold storedKeyValue countKeyValue
  split
  · rw [setCount_store_congr updateDbUsage_store]
    exact
      ⟨_, List.mem_of_find?_eq_some (find_setCount _ found), rfl⟩
  · rw [updateDbUsage_store]
    exact ⟨_, List.mem_of_find?_eq_some found, rfl⟩

theorem createdKeyValue_formed : created.2.store.Formed :=
  createKeyValue_formed creates
    (findOrCreateTable_made forks formed context.receiver scope table
      payer).formed

theorem storedKeyValue_formed :
    (context.storedKeyValue forks scope table payer buffer
      created).store.Formed := by
  have createdFormed := createdKeyValue_formed formed creates
  have found := createdKeyValue_found formed creates
  unfold storedKeyValue countKeyValue
  split
  · apply setCount_formed
    · simpa using createdFormed
    · simpa using found
  · simpa using createdFormed

end StoredKeyValue

section StoredIndex64

variable {scope table payer : Name} {id secondary : UInt64}
  {created : Index64Object × ApplyContext}
  (formed : context.store.Formed)
  (creates :
    (context.findOrCreateTable forks context.receiver scope table
      payer).2.createIndex64
        (context.findOrCreateTable forks context.receiver scope table
          payer).1.id payer id secondary = .ok created)

include formed creates

theorem createdIndex64_found :
    created.2.store.tables.find?
        (isTable
          (context.findOrCreateTable forks context.receiver scope table
            payer).1.id) =
      some
        (context.findOrCreateTable forks context.receiver scope table
          payer).1 := by
  rw [createIndex64_tables creates]
  exact
    (findOrCreateTable_made forks formed context.receiver scope table
      payer).found

theorem storedIndex64_rows :
    (context.storedIndex64 forks scope table payer
        created).store.keyValues =
      context.store.keyValues ∧
    (context.storedIndex64 forks scope table payer
        created).store.index64s =
      context.store.index64s ++ [created.1] := by
  have made :=
    findOrCreateTable_made forks formed context.receiver scope table payer
  have keyValues : created.2.store.keyValues = context.store.keyValues := by
    rw [(createIndex64_eq_ok creates).2.2, ← made.keyValues]
  have index64s :
      created.2.store.index64s = context.store.index64s ++ [created.1] := by
    rw [(createIndex64_eq_ok creates).2.2, ← made.index64s]
  unfold storedIndex64
  simpa [setCount] using ⟨keyValues, index64s⟩

theorem storedIndex64_table :
    ∃ tab ∈
        (context.storedIndex64 forks scope table payer
          created).store.tables,
      tab.id =
        (context.findOrCreateTable forks context.receiver scope table
          payer).1.id := by
  have found := createdIndex64_found formed creates
  unfold storedIndex64
  rw [updateDbUsage_store]
  exact ⟨_, List.mem_of_find?_eq_some (find_setCount _ found), rfl⟩

theorem createdIndex64_formed : created.2.store.Formed :=
  createIndex64_formed creates
    (findOrCreateTable_made forks formed context.receiver scope table
      payer).formed

theorem storedIndex64_formed :
    (context.storedIndex64 forks scope table payer
      created).store.Formed := by
  unfold storedIndex64
  rw [updateDbUsage_store]
  exact
    setCount_formed (createdIndex64_formed formed creates)
      (createdIndex64_found formed creates) _

end StoredIndex64

theorem removedIndex64_rows {obj : Index64Object} :
    (context.removedIndex64 forks obj tableObj).store.keyValues =
      context.store.keyValues ∧
    (context.removedIndex64 forks obj tableObj).store.index64s =
      context.store.index64s.eraseP (isRow obj.id) := by
  unfold removedIndex64 dropEmptyTable
  split
  · simp [setCount, eraseIndex64]
  · simp [setCount, eraseIndex64]

theorem removedKeyValue_formed (formed : context.store.Formed)
    {obj : KeyValueObject}
    (found : context.store.tables.find? (isTable tableObj.id) = some tableObj) :
    (context.removedKeyValue forks obj tableObj).store.Formed := by
  unfold removedKeyValue discountKeyValue
  apply eraseKeyValue_formed
  split
  · apply countDown_formed
    · simpa using formed
    · simpa using found
  · simpa using formed

theorem removedIndex64_formed (formed : context.store.Formed)
    {obj : Index64Object}
    (found : context.store.tables.find? (isTable tableObj.id) = some tableObj) :
    (context.removedIndex64 forks obj tableObj).store.Formed := by
  unfold removedIndex64
  apply dropEmptyTable_formed
  apply eraseIndex64_formed
  apply setCount_formed
  · simpa using formed
  · simpa using found

theorem setCount_keeps_id {tab other : TableIdObject} (count : UInt32)
    (found : context.store.tables.find? (isTable tab.id) = some tab)
    (member : other ∈ context.store.tables) :
    ∃ left ∈ (context.setCount tab count).store.tables,
      left.id = other.id := by
  have ids :
      (context.setCount tab count).store.tables.map TableIdObject.id =
        context.store.tables.map TableIdObject.id :=
    map_replaceFirst found rfl
  have kept := List.mem_map_of_mem (f := TableIdObject.id) member
  rw [← ids] at kept
  exact List.mem_map.mp kept

theorem removeTable_keeps_others {tab other : TableIdObject}
    (member : other ∈ context.store.tables) (different : other.id ≠ tab.id) :
    other ∈ (context.removeTable tab).store.tables := by
  simp only [removeTable, updateRamStatistics_store]
  exact mem_eraseP_of_key_ne member different

theorem made_tables (forks : HardForks) (member : tab ∈ context.store.tables)
    (scope table payer : Name) :
    tab ∈
      (context.findOrCreateTable forks context.receiver scope table
        payer).2.store.tables := by
  rcases
      findOrCreateTable_cases forks context context.receiver scope table
        payer with
    ⟨_, _, made⟩ | ⟨_, _, store⟩
  · rw [made]
    exact member
  · rw [store]
    exact List.mem_append_left _ member

theorem countDown_tables (forks : HardForks) {tableObj tab : TableIdObject}
    (found : context.store.tables.find? (isTable tableObj.id) = some tableObj)
    (member : tab ∈ context.store.tables) :
    (∃ left ∈ (context.countDown forks tableObj).store.tables,
      left.id = tab.id) ∨
        tab.id = tableObj.id ∧ tableObj.count - 1 = 0 ∧
          context.store.headBlockTime ≤ forks.hardfork1020Time := by
  obtain ⟨left, leftMember, sameId⟩ :=
    setCount_keeps_id (tableObj.count - 1) found member
  unfold countDown
  split
  next last =>
      by_cases here : tab.id = tableObj.id
      · exact .inr ⟨here, last⟩
      · have different : left.id ≠ tableObj.id := by
          rw [sameId]
          exact here
        exact
          .inl ⟨left, removeTable_keeps_others leftMember different, sameId⟩
  next => exact .inl ⟨left, leftMember, sameId⟩

theorem dropEmptyTable_tables {tableObj left : TableIdObject}
    (member : left ∈ context.store.tables) :
    left ∈ (context.dropEmptyTable tableObj).store.tables ∨
      left.id = tableObj.id ∧ tableObj.count - 1 = 0 := by
  unfold dropEmptyTable
  split
  next last =>
      by_cases here : left.id = tableObj.id
      · exact .inr ⟨here, last⟩
      · exact .inl (removeTable_keeps_others member here)
  next => exact .inl member

theorem OwnRow.unique
    {ρ : Type} [TableRow ρ] {cache : IteratorCache} {rows : List ρ}
    {iterator : Int} {obj other : ρ} {tableObj otherTable : TableIdObject}
    (own : OwnRow context cache rows iterator obj tableObj)
    (ownOther : OwnRow context cache rows iterator other otherTable) :
    obj = other ∧ tableObj = otherTable := by
  have pointers := own.pointer.symm.trans ownOther.pointer
  have row := own.row
  rw [Except.ok.inj pointers, ownOther.row] at row
  obtain rfl := Option.some.inj row
  have table := own.table
  rw [ownOther.table] at table
  exact ⟨rfl, (Option.some.inj table).symm⟩

/-- The call takes the row that a table counts last, and the table with it. -/
def TakesLast (forks : HardForks) (context : ApplyContext) :
    Call → TableIdObject → Prop
  | .dbRemoveI64 iterator, tableObj =>
      (∃ obj,
        OwnRow context context.keyvalCache context.store.keyValues iterator
          obj tableObj) ∧
        tableObj.count - 1 = 0 ∧
          context.afterHardfork1016 forks ∧
            context.store.headBlockTime ≤ forks.hardfork1020Time
  | .idx64Remove iterator, tableObj =>
      (∃ obj,
        OwnRow context context.itrCache context.store.index64s iterator obj
          tableObj) ∧
        tableObj.count - 1 = 0
  | _, _ => False

/-- The tables a store call finds, among those it leaves. -/
theorem storedTables_keep (formed : context.store.Formed)
    (member : tab ∈ context.store.tables) (scope table payer : Name)
    {created : ApplyContext}
    (tables :
      created.store.tables =
        (context.findOrCreateTable forks context.receiver scope table
          payer).2.store.tables)
    (count : UInt32) :
    tab ∈ created.store.tables ∧
      ∃ left ∈
          (created.setCount
            (context.findOrCreateTable forks context.receiver scope table
              payer).1 count).store.tables,
        left.id = tab.id := by
  have made :=
    findOrCreateTable_made forks formed context.receiver scope table payer
  have still := made_tables forks member scope table payer
  have found := made.found
  rw [← tables] at still found
  exact ⟨still, setCount_keeps_id count found still⟩

theorem effect_tables {call : Call} (formed : context.store.Formed)
    (effect : Effect forks context call after)
    (member : tab ∈ context.store.tables) :
    (∃ left ∈ after.store.tables, left.id = tab.id) ∨
      ∃ tableObj,
        TakesLast forks context call tableObj ∧ tab.id = tableObj.id := by
  cases effect with
  | looked _ => exact .inl ⟨tab, member, rfl⟩
  | @storedKeyValue scope table _ payer _ _ created _ creates =>
      left
      have kept :=
        storedTables_keep formed member scope table payer
          (createKeyValue_tables creates)
      unfold ApplyContext.storedKeyValue countKeyValue
      split
      · rw [setCount_store_congr updateDbUsage_store]
        exact (kept _).2
      · rw [updateDbUsage_store]
        exact ⟨tab, (kept 0).1, rfl⟩
  | updatedKeyValue _ _ =>
      refine .inl ⟨tab, ?_, rfl⟩
      simpa [replaceKeyValue] using member
  | @removedKeyValue iterator obj tableObj own =>
      by_cases late : context.afterHardfork1016 forks
      · have kept :
            (∃ left ∈
                (context.removedKeyValue forks obj tableObj).store.tables,
              left.id = tab.id) ∨
              tab.id = tableObj.id ∧ tableObj.count - 1 = 0 ∧
                (context.updateDbUsage forks obj.payer
                  (-(obj.value.length +
                    keyValueObjectSize))).store.headBlockTime ≤
                  forks.hardfork1020Time := by
          unfold ApplyContext.removedKeyValue
          rw [discountKeyValue,
            if_pos (by simpa [afterHardfork1016] using late)]
          apply countDown_tables
          · simpa using own.found
          · simpa using member
        rw [updateDbUsage_store] at kept
        rcases kept with kept | ⟨here, last, early⟩
        · exact .inl kept
        · exact .inr ⟨tableObj, ⟨⟨obj, own⟩, last, late, early⟩, here⟩
      · refine .inl ⟨tab, ?_, rfl⟩
        unfold ApplyContext.removedKeyValue
        rw [discountKeyValue,
          if_neg (by simpa [afterHardfork1016] using late)]
        simpa [eraseKeyValue] using member
  | @storedIndex64 scope table _ payer _ _ created _ creates =>
      left
      have kept :=
        storedTables_keep formed member scope table payer
          (createIndex64_tables creates)
      unfold ApplyContext.storedIndex64
      rw [updateDbUsage_store]
      exact (kept _).2
  | updatedIndex64 _ _ => exact .inl ⟨tab, member, rfl⟩
  | @removedIndex64 iterator obj tableObj own =>
      obtain ⟨left, leftMember, sameId⟩ :=
        setCount_keeps_id (tableObj.count - 1) own.found member
      rw [← setCount_store_congr updateDbUsage_store] at leftMember
      have kept :
          left ∈
              (context.removedIndex64 forks obj tableObj).store.tables ∨
            left.id = tableObj.id ∧ tableObj.count - 1 = 0 :=
        dropEmptyTable_tables leftMember
      rcases kept with kept | ⟨here, last⟩
      · exact .inl ⟨left, kept, sameId⟩
      · rw [sameId] at here
        exact .inr ⟨tableObj, ⟨⟨obj, own⟩, last⟩, here⟩

theorem effect_formed {call : Call} (formed : context.store.Formed)
    (effect : Effect forks context call after) : after.store.Formed := by
  cases effect with
  | looked _ => exact formed
  | storedKeyValue _ creates => exact storedKeyValue_formed formed creates
  | updatedKeyValue _ own =>
      refine ⟨?_, ?_, ?_⟩
      · simpa [replaceKeyValue] using formed.tables
      · simp only [replaceKeyValue, payUpdate_store]
        exact formed.keyValues.replace own.row rfl rfl rfl
      · simpa [replaceKeyValue] using formed.index64s
  | removedKeyValue own => exact removedKeyValue_formed formed own.found
  | storedIndex64 _ creates => exact storedIndex64_formed formed creates
  | updatedIndex64 _ own =>
      refine ⟨formed.tables, formed.keyValues, ?_⟩
      exact formed.index64s.replace own.row rfl rfl rfl
  | removedIndex64 own => exact removedIndex64_formed formed own.found

theorem perform_formed {call : Call} (formed : context.store.Formed)
    (returns : context.perform forks call = .ok after) :
    after.store.Formed := by
  obtain ⟨middle, effect, same⟩ := perform_effect returns
  rw [same.store]
  exact effect_formed formed effect

end ApplyContext

end GxbCore.Contract
