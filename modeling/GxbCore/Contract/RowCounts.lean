import GxbCore.Contract.Stores

/-!
# The counts of the tables

A table object counts its elements.  Up to the hard fork key-value rows are
stored without being counted; their removal after it is counted all the same.
Where no key-value row was stored so early, the counts are right in every state
the chain reaches.
-/

namespace GxbCore.Contract

section Rows

def Store.rowsReferring (store : Store) (table : Nat) : Nat :=
  store.keyValues.countP (fun row => row.tId == table) +
    store.index64s.countP (fun row => row.tId == table)

def belongs {ρ : Type} [TableRow ρ] (table : Nat) (row : ρ) : ℤ :=
  if TableRow.tId row = table then 1 else 0

theorem countP_eq_total {ρ : Type} [TableRow ρ] (table : Nat) (rows : List ρ) :
    (rows.countP (fun row => TableRow.tId row == table) : ℤ) =
      total (belongs table) rows := by
  induction rows with
  | nil => rfl
  | cons row rest ih =>
      rw [total_cons, List.countP_cons, ← ih]
      by_cases here : TableRow.tId row = table
      · simp [belongs, here]
        omega
      · simp [belongs, here]

theorem Store.rowsReferring_eq (store : Store) (table : Nat) :
    (store.rowsReferring table : ℤ) =
      total (belongs table) store.keyValues +
        total (belongs table) store.index64s := by
  rw [← countP_eq_total, ← countP_eq_total]
  simp [Store.rowsReferring]

/-- The counts, each off by what `skew` says of its table. -/
def Store.Skewed (store : Store) (skew : Nat → ℤ) : Prop :=
  ∀ tab ∈ store.tables,
    (tab.count.toNat : ℤ) = store.rowsReferring tab.id + skew tab.id

/-- Every count is the number of rows that refer to its table. -/
def Store.Counted (store : Store) : Prop :=
  ∀ tab ∈ store.tables, tab.count.toNat = store.rowsReferring tab.id

/-- Rows refer to tables that exist or existed. -/
structure Store.Anchored (store : Store) : Prop where
  keyValues : ∀ row ∈ store.keyValues, row.tId < store.nextTableId
  index64s : ∀ row ∈ store.index64s, row.tId < store.nextTableId

theorem Store.counted_iff_skewed (store : Store) :
    store.Counted ↔ store.Skewed fun _ => 0 := by
  unfold Store.Counted Store.Skewed
  simp

def shifted (skew : Nat → ℤ) (table : Nat) (change : ℤ) : Nat → ℤ :=
  fun other => skew other + if other = table then change else 0

end Rows

namespace ApplyContext

variable {forks : HardForks} {context after : ApplyContext}
variable {skew : Nat → ℤ} {tab : TableIdObject}

theorem mem_setCount (formed : context.store.Formed) {count : UInt32}
    (found : context.store.tables.find? (isTable tab.id) = some tab)
    {other : TableIdObject}
    (member : other ∈ (context.setCount tab count).store.tables) :
    other = { tab with count := count } ∨
      other ∈ context.store.tables ∧ other.id ≠ tab.id := by
  by_cases same : other.id = tab.id
  · left
    have counted := setCount_formed formed found count
    have here := counted.tables.find member
    rw [same, find_setCount count found] at here
    exact (Option.some.inj here).symm
  · rcases mem_replaceFirst member with isNew | old
    · exact .inl isNew
    · exact .inr ⟨old, same⟩

theorem setCount_skewed (formed : context.store.Formed) {count : UInt32}
    (found : context.store.tables.find? (isTable tab.id) = some tab)
    {change : ℤ} (changes : (count.toNat : ℤ) = tab.count.toNat + change)
    (skewed : context.store.Skewed skew) :
    (context.setCount tab count).store.Skewed
      (shifted skew tab.id change) := by
  intro other member
  have sameRows :
      (context.setCount tab count).store.rowsReferring other.id =
        context.store.rowsReferring other.id :=
    rfl
  rw [sameRows]
  rcases mem_setCount formed found member with rfl | ⟨old, different⟩
  · have before := skewed tab (List.mem_of_find?_eq_some found)
    simp only [shifted, if_true]
    omega
  · have before := skewed other old
    simp only [shifted, different, if_false]
    omega

theorem skewed_of_sublist {store fewer : Store}
    (tables : ∀ tab ∈ fewer.tables, tab ∈ store.tables)
    (keyValues : fewer.keyValues = store.keyValues)
    (index64s : fewer.index64s = store.index64s) (skewed : store.Skewed skew) :
    fewer.Skewed skew := by
  intro tab member
  have before := skewed tab (tables tab member)
  unfold Store.rowsReferring at before ⊢
  rw [keyValues, index64s]
  exact before

theorem removeTable_skewed (skewed : context.store.Skewed skew) :
    (context.removeTable tab).store.Skewed skew := by
  refine skewed_of_sublist ?_ removeTable_keyValues removeTable_index64s skewed
  intro other member
  simp only [removeTable, updateRamStatistics_store] at member
  exact List.mem_of_mem_eraseP member

/-- The rows change under fixed tables, and with them what each count is off
by. -/
theorem skewed_of_rows {store changed : Store} {table : Nat} {change : ℤ}
    (tables : changed.tables = store.tables)
    (rows :
      ∀ other,
        (changed.rowsReferring other : ℤ) =
          store.rowsReferring other + if other = table then change else 0)
    (skewed : store.Skewed skew) :
    changed.Skewed (shifted skew table (-change)) := by
  intro tab member
  rw [tables] at member
  have before := skewed tab member
  rw [rows tab.id]
  unfold shifted
  by_cases here : tab.id = table
  · simp only [here, if_true] at before ⊢
    omega
  · simp only [here, if_false]
    omega

theorem rowsReferring_createKeyValue {tId : Nat} {payer : Name} {id : UInt64}
    {buffer : List UInt8} {created : KeyValueObject × ApplyContext}
    (creates : context.createKeyValue tId payer id buffer = .ok created)
    (table : Nat) :
    (created.2.store.rowsReferring table : ℤ) =
      context.store.rowsReferring table + if table = tId then 1 else 0 := by
  obtain ⟨_, row, store⟩ := createKeyValue_eq_ok creates
  rw [Store.rowsReferring_eq, Store.rowsReferring_eq, store, row]
  simp only [total_append, total_cons, total_nil, belongs, keyValue_tId,
    eq_comm (a := table)]
  omega

theorem rowsReferring_createIndex64 {tId : Nat} {payer : Name}
    {id secondary : UInt64} {created : Index64Object × ApplyContext}
    (creates : context.createIndex64 tId payer id secondary = .ok created)
    (table : Nat) :
    (created.2.store.rowsReferring table : ℤ) =
      context.store.rowsReferring table + if table = tId then 1 else 0 := by
  obtain ⟨_, row, store⟩ := createIndex64_eq_ok creates
  rw [Store.rowsReferring_eq, Store.rowsReferring_eq, store, row]
  simp only [total_append, total_cons, total_nil, belongs, index64_tId,
    eq_comm (a := table)]
  omega

theorem rowsReferring_eraseKeyValue {row : KeyValueObject}
    (found : context.store.keyValues.find? (isRow row.id) = some row)
    (table : Nat) :
    ((context.eraseKeyValue row).store.rowsReferring table : ℤ) =
      context.store.rowsReferring table +
        if table = row.tId then -1 else 0 := by
  rw [Store.rowsReferring_eq, Store.rowsReferring_eq]
  simp only [eraseKeyValue, total_eraseP found, belongs, keyValue_tId,
    eq_comm (a := table)]
  split
  · omega
  · omega

theorem rowsReferring_eraseIndex64 {row : Index64Object}
    (found : context.store.index64s.find? (isRow row.id) = some row)
    (table : Nat) :
    ((context.eraseIndex64 row).store.rowsReferring table : ℤ) =
      context.store.rowsReferring table +
        if table = row.tId then -1 else 0 := by
  rw [Store.rowsReferring_eq, Store.rowsReferring_eq]
  simp only [eraseIndex64, total_eraseP found, belongs, index64_tId,
    eq_comm (a := table)]
  split
  · omega
  · omega

theorem eraseKeyValue_skewed {row : KeyValueObject}
    (found : context.store.keyValues.find? (isRow row.id) = some row)
    (skewed : context.store.Skewed skew) :
    (context.eraseKeyValue row).store.Skewed (shifted skew row.tId 1) := by
  refine skewed_of_rows ?_ (rowsReferring_eraseKeyValue found) skewed
  rfl

theorem eraseIndex64_skewed {row : Index64Object}
    (found : context.store.index64s.find? (isRow row.id) = some row)
    (skewed : context.store.Skewed skew) :
    (context.eraseIndex64 row).store.Skewed (shifted skew row.tId 1) := by
  refine skewed_of_rows ?_ (rowsReferring_eraseIndex64 found) skewed
  rfl

theorem rowsReferring_replaceKeyValue {old row : KeyValueObject}
    (found : context.store.keyValues.find? (isRow old.id) = some old)
    (sameId : row.id = old.id) (sameTable : row.tId = old.tId) (table : Nat) :
    (context.replaceKeyValue row).store.rowsReferring table =
      context.store.rowsReferring table := by
  have same :
      ((context.replaceKeyValue row).store.rowsReferring table : ℤ) =
        context.store.rowsReferring table := by
    rw [← sameId] at found
    rw [Store.rowsReferring_eq, Store.rowsReferring_eq]
    simp only [replaceKeyValue, total_replaceFirst found, belongs,
      keyValue_tId, sameTable]
    omega
  exact_mod_cast same

theorem rowsReferring_replaceIndex64 {old row : Index64Object}
    (found : context.store.index64s.find? (isRow old.id) = some old)
    (sameId : row.id = old.id) (sameTable : row.tId = old.tId) (table : Nat) :
    (context.replaceIndex64 row).store.rowsReferring table =
      context.store.rowsReferring table := by
  have same :
      ((context.replaceIndex64 row).store.rowsReferring table : ℤ) =
        context.store.rowsReferring table := by
    rw [← sameId] at found
    rw [Store.rowsReferring_eq, Store.rowsReferring_eq]
    simp only [replaceIndex64, total_replaceFirst found, belongs,
      index64_tId, sameTable]
    omega
  exact_mod_cast same

/-- No row refers to a table that was not created yet. -/
theorem rowsReferring_fresh (anchored : context.store.Anchored) :
    context.store.rowsReferring context.store.nextTableId = 0 := by
  unfold Store.rowsReferring
  have keyValues :
      context.store.keyValues.countP
        (fun row => row.tId == context.store.nextTableId) = 0 := by
    rw [List.countP_eq_zero]
    intro row member
    have smaller := anchored.keyValues row member
    simp
    omega
  have index64s :
      context.store.index64s.countP
        (fun row => row.tId == context.store.nextTableId) = 0 := by
    rw [List.countP_eq_zero]
    intro row member
    have smaller := anchored.index64s row member
    simp
    omega
  rw [keyValues, index64s]

/-- A table that is made has no rows, and counts none. -/
theorem findOrCreateTable_counted
    (forks : HardForks) (anchored : context.store.Anchored) (counted : context.store.Counted)
    (code scope table payer : Name) :
    (context.findOrCreateTable forks code scope table
      payer).2.store.Counted := by
  rcases findOrCreateTable_cases forks context code scope table payer with
    ⟨tab, _, made⟩ | ⟨_, _, store⟩
  · rw [made]
    exact counted
  · rw [store]
    intro tab member
    have sameRows :
        (withNewTable context.store code scope table payer).rowsReferring
            tab.id =
          context.store.rowsReferring tab.id :=
      rfl
    rw [sameRows]
    rcases List.mem_append.mp member with old | isNew
    · exact counted tab old
    · rw [List.mem_singleton.mp isNew, rowsReferring_fresh anchored]
      rfl

theorem findOrCreateTable_anchored (forks : HardForks)
    (anchored : context.store.Anchored) (code scope table payer : Name) :
    (context.findOrCreateTable forks code scope table
      payer).2.store.Anchored := by
  rcases findOrCreateTable_cases forks context code scope table payer with
    ⟨tab, _, made⟩ | ⟨_, _, store⟩
  · rw [made]
    exact anchored
  · rw [store]
    constructor
    · intro row member
      exact Nat.lt_succ_of_lt (anchored.keyValues row member)
    · intro row member
      exact Nat.lt_succ_of_lt (anchored.index64s row member)

section Condition

/-- The table a store call would put its row in can count one more row. -/
def HasRoom (context : ApplyContext) (scope table : Name) : Prop :=
  ∀ tab,
    findTable context.store.tables context.receiver scope table = some tab →
      tab.count.toNat + 1 < 2 ^ 32

/-- A call that the counts can follow: a key-value row is not stored up to the
hard fork, and no row is stored in a table whose count is at its end. -/
def Countable (forks : HardForks) (context : ApplyContext) : Call → Prop
  | .dbStoreI64 scope table _ _ _ =>
      context.afterHardfork1016 forks ∧ context.HasRoom scope table
  | .idx64Store scope table _ _ _ => context.HasRoom scope table
  | _ => True

end Condition

section Steps

/-- What every countable call keeps. -/
structure Exact (forks : HardForks) (store : Store) : Prop where
  formed : store.Formed
  anchored : store.Anchored
  counted : store.Counted
  noEarlyRows :
    store.headBlockTime ≤ forks.hardfork1016Time → store.keyValues = []

theorem rowsReferring_pos_of_keyValue
    {store : Store} {row : KeyValueObject} (member : row ∈ store.keyValues) :
    0 < store.rowsReferring row.tId := by
  have counted :
      0 < store.keyValues.countP (fun other => other.tId == row.tId) :=
    List.countP_pos_iff.mpr ⟨row, member, by simp⟩
  unfold Store.rowsReferring
  omega

theorem rowsReferring_pos_of_index64
    {store : Store} {row : Index64Object} (member : row ∈ store.index64s) :
    0 < store.rowsReferring row.tId := by
  have counted :
      0 < store.index64s.countP (fun other => other.tId == row.tId) :=
    List.countP_pos_iff.mpr ⟨row, member, by simp⟩
  unfold Store.rowsReferring
  omega

variable {tableObj : TableIdObject} {iterator : Int} {call : Call}

theorem count_sub_one (counted : context.store.Counted)
    (member : tableObj ∈ context.store.tables)
    (refers : 0 < context.store.rowsReferring tableObj.id) :
    ((tableObj.count - 1).toNat : ℤ) = tableObj.count.toNat + -1 := by
  have exactly := counted tableObj member
  have positive : 1 ≤ tableObj.count := by
    rw [UInt32.le_iff_toNat_le, UInt32.toNat_one]
    omega
  rw [UInt32.toNat_sub_of_le _ _ positive, UInt32.toNat_one]
  omega

theorem count_add_one
    {scope table payer : Name} (room : context.HasRoom scope table) :
    ((((context.findOrCreateTable forks context.receiver scope table
        payer).1.count + 1).toNat : ℕ) : ℤ) =
      (context.findOrCreateTable forks context.receiver scope table
        payer).1.count.toNat + 1 := by
  rcases
      findOrCreateTable_cases forks context context.receiver scope table
        payer with
    ⟨tab, found, made⟩ | ⟨_, made, _⟩
  · rw [made]
    have small := room tab found
    rw [UInt32.toNat_add, UInt32.toNat_one, Nat.mod_eq_of_lt small]
    rfl
  · rw [made]
    rfl

theorem counted_of_cancelled {store : Store} {table : Nat} {change back : ℤ}
    (skewed :
      store.Skewed
        (shifted (shifted (fun _ => 0) table change) table back))
    (cancels : change + back = 0) : store.Counted := by
  rw [Store.counted_iff_skewed]
  intro tab member
  have exactly := skewed tab member
  unfold shifted at exactly
  split at exactly
  · omega
  · omega

theorem countDown_skewed
    (formed : context.store.Formed) (skewed : context.store.Skewed skew)
    (found : context.store.tables.find? (isTable tableObj.id) = some tableObj)
    (counts : ((tableObj.count - 1).toNat : ℤ) = tableObj.count.toNat + -1) :
    (context.countDown forks tableObj).store.Skewed
      (shifted skew tableObj.id (-1)) := by
  have counted := setCount_skewed formed found counts skewed
  unfold countDown
  split
  · exact removeTable_skewed counted
  · exact counted

theorem dropEmptyTable_skewed (skewed : context.store.Skewed skew) :
    (context.dropEmptyTable tableObj).store.Skewed skew := by
  unfold dropEmptyTable
  split
  · exact removeTable_skewed skewed
  · exact skewed

theorem made_lt_nextTableId
    (forks : HardForks) (formed : context.store.Formed) (scope table payer : Name) :
    (context.findOrCreateTable forks context.receiver scope table
        payer).1.id <
      (context.findOrCreateTable forks context.receiver scope table
        payer).2.store.nextTableId := by
  have made :=
    findOrCreateTable_made forks formed context.receiver scope table payer
  exact
    made.formed.tables.fresh _ (List.mem_of_find?_eq_some made.found)

section StoredKeyValue

variable {scope table payer : Name} {id : UInt64} {buffer : List UInt8}
  {created : KeyValueObject × ApplyContext}
  (creates :
    (context.findOrCreateTable forks context.receiver scope table
      payer).2.createKeyValue
        (context.findOrCreateTable forks context.receiver scope table
          payer).1.id payer id buffer = .ok created)

include creates

theorem storedKeyValue_counted (late : context.afterHardfork1016 forks)
    (sound : Exact forks context.store) (room : context.HasRoom scope table) :
    (context.storedKeyValue forks scope table payer buffer
      created).store.Counted := by
  have madeCounted :=
    findOrCreateTable_counted forks sound.anchored sound.counted
      context.receiver scope table payer
  have createdSkewed :=
    skewed_of_rows (createKeyValue_tables creates)
      (rowsReferring_createKeyValue creates)
      ((Store.counted_iff_skewed _).mp madeCounted)
  have sameTime :
      created.2.store.headBlockTime = context.store.headBlockTime := by
    rw [(createKeyValue_steady creates).headBlockTime,
      (findOrCreateTable_steady forks context _ _ _ _).headBlockTime]
  unfold storedKeyValue countKeyValue
  rw [if_pos (by simpa [afterHardfork1016, sameTime] using late)]
  rw [setCount_store_congr updateDbUsage_store]
  exact
    counted_of_cancelled
      (setCount_skewed (createdKeyValue_formed sound.formed creates)
        (createdKeyValue_found sound.formed creates) (count_add_one room)
        createdSkewed)
      (by omega)

theorem storedKeyValue_anchored
    (formed : context.store.Formed) (anchored : context.store.Anchored) :
    (context.storedKeyValue forks scope table payer buffer
      created).store.Anchored := by
  have made :=
    findOrCreateTable_anchored forks anchored context.receiver scope table
      payer
  have small := made_lt_nextTableId forks formed scope table payer
  obtain ⟨_, row, store⟩ := createKeyValue_eq_ok creates
  have stored : created.2.store.Anchored := by
    rw [store, row]
    exact ⟨forall_concat made.keyValues small, made.index64s⟩
  unfold storedKeyValue countKeyValue
  split
  · rw [setCount_store_congr updateDbUsage_store]
    exact ⟨stored.keyValues, stored.index64s⟩
  · simpa using stored

end StoredKeyValue

section StoredIndex64

variable {scope table payer : Name} {id secondary : UInt64}
  {created : Index64Object × ApplyContext}
  (creates :
    (context.findOrCreateTable forks context.receiver scope table
      payer).2.createIndex64
        (context.findOrCreateTable forks context.receiver scope table
          payer).1.id payer id secondary = .ok created)

include creates

theorem storedIndex64_counted (sound : Exact forks context.store)
    (room : context.HasRoom scope table) :
    (context.storedIndex64 forks scope table payer
      created).store.Counted := by
  have madeCounted :=
    findOrCreateTable_counted forks sound.anchored sound.counted
      context.receiver scope table payer
  have createdSkewed :=
    skewed_of_rows (createIndex64_tables creates)
      (rowsReferring_createIndex64 creates)
      ((Store.counted_iff_skewed _).mp madeCounted)
  unfold storedIndex64
  rw [updateDbUsage_store]
  exact
    counted_of_cancelled
      (setCount_skewed (createdIndex64_formed sound.formed creates)
        (createdIndex64_found sound.formed creates) (count_add_one room)
        createdSkewed)
      (by omega)

theorem storedIndex64_anchored
    (formed : context.store.Formed) (anchored : context.store.Anchored) :
    (context.storedIndex64 forks scope table payer
      created).store.Anchored := by
  have made :=
    findOrCreateTable_anchored forks anchored context.receiver scope table
      payer
  have small := made_lt_nextTableId forks formed scope table payer
  obtain ⟨_, row, store⟩ := createIndex64_eq_ok creates
  have stored : created.2.store.Anchored := by
    rw [store, row]
    exact ⟨made.keyValues, forall_concat made.index64s small⟩
  unfold storedIndex64
  rw [updateDbUsage_store]
  exact ⟨stored.keyValues, stored.index64s⟩

end StoredIndex64

/-- The time at which a key-value row is removed lies behind the hard fork. -/
theorem late_of_keyValue (sound : Exact forks context.store)
    {obj : KeyValueObject} (member : obj ∈ context.store.keyValues) :
    context.afterHardfork1016 forks := by
  by_contra early
  have none := sound.noEarlyRows (UInt32.not_lt.mp early)
  rw [none] at member
  cases member

theorem OwnRow.count_sub_one {ρ : Type} [TableRow ρ] {cache : IteratorCache}
    {rows : List ρ} (counted : context.store.Counted) {obj : ρ}
    (own : OwnRow context cache rows iterator obj tableObj)
    (refers : obj ∈ rows → 0 < context.store.rowsReferring (TableRow.tId obj)) :
    ((tableObj.count - 1).toNat : ℤ) = tableObj.count.toNat + -1 := by
  have isTheTable : tableObj.id = TableRow.tId obj :=
    id_of_find_isTable own.table
  apply ApplyContext.count_sub_one counted
    (List.mem_of_find?_eq_some own.found)
  rw [isTheTable]
  exact refers (List.mem_of_find?_eq_some own.row)

theorem removedKeyValue_counted (sound : Exact forks context.store)
    {obj : KeyValueObject}
    (own :
      OwnRow context context.keyvalCache context.store.keyValues iterator
        obj tableObj) :
    (context.removedKeyValue forks obj tableObj).store.Counted := by
  have late :=
    late_of_keyValue sound (List.mem_of_find?_eq_some own.row)
  have isTheTable : tableObj.id = obj.tId := id_of_find_isTable own.table
  have discounted :
      ((context.updateDbUsage forks obj.payer
        (-(obj.value.length + keyValueObjectSize))).discountKeyValue forks
          tableObj).store.Skewed
        (shifted (fun _ => 0) tableObj.id (-1)) := by
    rw [discountKeyValue,
      if_pos (by simpa [afterHardfork1016] using late)]
    apply countDown_skewed
    · simpa using sound.formed
    · simpa using (Store.counted_iff_skewed _).mp sound.counted
    · simpa using own.found
    · exact own.count_sub_one sound.counted rowsReferring_pos_of_keyValue
  have erased := eraseKeyValue_skewed (by simpa using own.row) discounted
  rw [← isTheTable] at erased
  exact counted_of_cancelled erased (by omega)

theorem removedIndex64_counted (sound : Exact forks context.store)
    {obj : Index64Object}
    (own :
      OwnRow context context.itrCache context.store.index64s iterator
        obj tableObj) :
    (context.removedIndex64 forks obj tableObj).store.Counted := by
  have isTheTable : tableObj.id = obj.tId := id_of_find_isTable own.table
  have discounted :
      ((context.updateDbUsage forks obj.payer
        (-index64ObjectSize)).setCount tableObj
          (tableObj.count - 1)).store.Skewed
        (shifted (fun _ => 0) tableObj.id (-1)) := by
    rw [setCount_store_congr updateDbUsage_store]
    exact
      setCount_skewed sound.formed own.found
        (own.count_sub_one sound.counted rowsReferring_pos_of_index64)
        ((Store.counted_iff_skewed _).mp sound.counted)
  have erased :=
    eraseIndex64_skewed (by simpa [setCount] using own.row) discounted
  rw [← isTheTable] at erased
  exact counted_of_cancelled (dropEmptyTable_skewed erased) (by omega)

theorem removedIndex64_anchored (anchored : context.store.Anchored)
    {obj : Index64Object} :
    (context.removedIndex64 forks obj tableObj).store.Anchored := by
  have erased :
      (((context.updateDbUsage forks obj.payer
        (-index64ObjectSize)).setCount tableObj
          (tableObj.count - 1)).eraseIndex64 obj).store.Anchored := by
    refine ⟨?_, forall_eraseP ?_⟩
    · simpa [eraseIndex64, setCount] using anchored.keyValues
    · simpa [eraseIndex64, setCount] using anchored.index64s
  unfold removedIndex64 dropEmptyTable
  split
  · refine ⟨?_, ?_⟩
    · simpa using erased.keyValues
    · simpa using erased.index64s
  · exact erased

theorem effect_anchored (formed : context.store.Formed)
    (anchored : context.store.Anchored)
    (effect : Effect forks context call after) : after.store.Anchored := by
  cases effect with
  | looked _ => exact anchored
  | storedKeyValue _ creates =>
      exact storedKeyValue_anchored creates formed anchored
  | updatedKeyValue _ own =>
      have row :=
        anchored.keyValues _ (List.mem_of_find?_eq_some own.row)
      refine ⟨?_, ?_⟩
      · simp only [replaceKeyValue, payUpdate_store]
        exact forall_replaceFirst anchored.keyValues row
      · simpa [replaceKeyValue] using anchored.index64s
  | removedKeyValue own =>
      refine ⟨?_, ?_⟩
      · simp only [ApplyContext.removedKeyValue, eraseKeyValue,
          discountKeyValue_keyValues, discountKeyValue_nextTableId,
          updateDbUsage_store]
        exact forall_eraseP anchored.keyValues
      · simpa [ApplyContext.removedKeyValue, eraseKeyValue] using
          anchored.index64s
  | storedIndex64 _ creates =>
      exact storedIndex64_anchored creates formed anchored
  | updatedIndex64 _ own =>
      have row :=
        anchored.index64s _ (List.mem_of_find?_eq_some own.row)
      exact
        ⟨anchored.keyValues, forall_replaceFirst anchored.index64s row⟩
  | removedIndex64 own => exact removedIndex64_anchored anchored

theorem effect_counted (sound : Exact forks context.store)
    (countable : Countable forks context call)
    (effect : Effect forks context call after) : after.store.Counted := by
  cases effect with
  | looked _ => exact sound.counted
  | storedKeyValue _ creates =>
      exact storedKeyValue_counted creates countable.1 sound countable.2
  | @updatedKeyValue _ _ payer buffer obj _ _ own =>
      have found :
          (context.payUpdate forks obj payer buffer).store.keyValues.find?
            (isRow obj.id) = some obj := by
        simpa using own.row
      intro tab member
      rw [rowsReferring_replaceKeyValue found]
      · simp only [replaceKeyValue, payUpdate_store] at member ⊢
        exact sound.counted tab member
      · rfl
      · rfl
  | removedKeyValue own => exact removedKeyValue_counted sound own
  | storedIndex64 _ creates =>
      exact storedIndex64_counted creates sound countable
  | updatedIndex64 _ own =>
      have found := own.row
      rw [index64_id] at found
      intro tab member
      rw [rowsReferring_replaceIndex64 found]
      · exact sound.counted tab member
      · rfl
      · rfl
  | removedIndex64 own => exact removedIndex64_counted sound own

theorem effect_noEarlyRows (sound : Exact forks context.store)
    (countable : Countable forks context call)
    (effect : Effect forks context call after)
    (early : context.store.headBlockTime ≤ forks.hardfork1016Time) :
    after.store.keyValues = [] := by
  have none := sound.noEarlyRows early
  have notLate : ¬context.afterHardfork1016 forks :=
    UInt32.not_lt.mpr early
  cases effect with
  | looked _ => exact none
  | storedKeyValue _ _ => exact absurd countable.1 notLate
  | updatedKeyValue _ own =>
      exact
        absurd
          (late_of_keyValue sound (List.mem_of_find?_eq_some own.row))
          notLate
  | removedKeyValue own =>
      exact
        absurd
          (late_of_keyValue sound (List.mem_of_find?_eq_some own.row))
          notLate
  | @storedIndex64 scope table _ payer _ _ created _ creates =>
      obtain ⟨_, _, store⟩ := createIndex64_eq_ok creates
      have made :=
        findOrCreateTable_made forks sound.formed context.receiver scope
          table payer
      unfold ApplyContext.storedIndex64
      rw [updateDbUsage_store, store]
      exact made.keyValues.trans none
  | updatedIndex64 _ _ => exact none
  | removedIndex64 _ =>
      unfold ApplyContext.removedIndex64 dropEmptyTable
      split
      · simpa [eraseIndex64, setCount] using none
      · simpa [eraseIndex64, setCount] using none

theorem perform_exact (sound : Exact forks context.store)
    (countable : Countable forks context call)
    (returns : context.perform forks call = .ok after) :
    Exact forks after.store := by
  obtain ⟨middle, effect, same⟩ := perform_effect returns
  rw [same.store]
  refine
    ⟨effect_formed sound.formed effect,
      effect_anchored sound.formed sound.anchored effect,
      effect_counted sound countable effect, ?_⟩
  intro early
  rw [(effect_steady effect).headBlockTime] at early
  exact effect_noEarlyRows sound countable effect early

end Steps

section Removal

/-- A table of the store before is there still, or no row refers to it. -/
def KeptOrEmpty (before after : Store) : Prop :=
  ∀ tab ∈ before.tables,
    (∃ left ∈ after.tables, left.id = tab.id) ∨
      after.rowsReferring tab.id = 0

theorem rowsReferring_congr
    {store other : Store} (keyValues : other.keyValues = store.keyValues)
    (index64s : other.index64s = store.index64s) (table : Nat) :
    other.rowsReferring table = store.rowsReferring table := by
  unfold Store.rowsReferring
  rw [keyValues, index64s]

theorem rowsReferring_of_last (counted : context.store.Counted)
    {tableObj : TableIdObject} (member : tableObj ∈ context.store.tables)
    (counts : ((tableObj.count - 1).toNat : ℤ) = tableObj.count.toNat + -1)
    (last : tableObj.count - 1 = 0) :
    context.store.rowsReferring tableObj.id = 1 := by
  have exactly := counted tableObj member
  rw [last, UInt32.toNat_zero] at counts
  omega

theorem rowsReferring_removedKeyValue
    {obj : KeyValueObject} (tableObj : TableIdObject)
    (row : context.store.keyValues.find? (isRow obj.id) = some obj)
    (table : Nat) :
    ((context.removedKeyValue forks obj tableObj).store.rowsReferring
        table : ℤ) =
      context.store.rowsReferring table +
        if table = obj.tId then -1 else 0 := by
  have same :
      ((context.updateDbUsage forks obj.payer
        (-(obj.value.length + keyValueObjectSize))).discountKeyValue forks
          tableObj).store.rowsReferring table =
        context.store.rowsReferring table :=
    rowsReferring_congr (by simp) (by simp) table
  unfold removedKeyValue
  rw [rowsReferring_eraseKeyValue (by simpa using row), same]

theorem rowsReferring_removedIndex64
    {obj : Index64Object} (tableObj : TableIdObject)
    (row : context.store.index64s.find? (isRow obj.id) = some obj)
    (table : Nat) :
    ((context.removedIndex64 forks obj tableObj).store.rowsReferring
        table : ℤ) =
      context.store.rowsReferring table +
        if table = obj.tId then -1 else 0 := by
  have same :
      ((context.updateDbUsage forks obj.payer
        (-index64ObjectSize)).setCount tableObj
          (tableObj.count - 1)).store.rowsReferring table =
        context.store.rowsReferring table :=
    rowsReferring_congr (by simp [setCount]) (by simp [setCount]) table
  have dropped :
      (context.removedIndex64 forks obj tableObj).store.rowsReferring table =
        (((context.updateDbUsage forks obj.payer
          (-index64ObjectSize)).setCount tableObj
            (tableObj.count - 1)).eraseIndex64 obj).store.rowsReferring
              table := by
    unfold removedIndex64 dropEmptyTable
    split
    · exact rowsReferring_congr (by simp) (by simp) table
    · rfl
  rw [dropped, rowsReferring_eraseIndex64 (by simpa [setCount] using row),
    same]

theorem rowsReferring_eq_zero
    {rows : ℕ} {tab tableObj : TableIdObject} {tId : Nat}
    (left :
      (rows : ℤ) =
        context.store.rowsReferring tab.id + if tab.id = tId then -1 else 0)
    (isTheTable : tableObj.id = tId) (here : tab.id = tableObj.id)
    (one : context.store.rowsReferring tableObj.id = 1) : rows = 0 := by
  rw [here, one, isTheTable] at left
  simpa using left

/-- A table object goes only when no row refers to it any more. -/
theorem effect_keptOrEmpty {call : Call} (sound : Exact forks context.store)
    (effect : Effect forks context call after) :
    KeptOrEmpty context.store after.store := by
  intro tab member
  rcases effect_tables sound.formed effect member with
    kept | ⟨tableObj, takes, here⟩
  · exact .inl kept
  · right
    cases effect with
    | looked reads =>
        cases call <;> first | exact takes.elim | exact reads.elim
    | storedKeyValue _ _ => exact takes.elim
    | updatedKeyValue _ _ => exact takes.elim
    | removedKeyValue own =>
        obtain ⟨⟨_, ownToo⟩, last, _⟩ := takes
        obtain ⟨rfl, rfl⟩ := own.unique ownToo
        exact
          rowsReferring_eq_zero
            (rowsReferring_removedKeyValue _ own.row tab.id)
            (id_of_find_isTable own.table) here
            (rowsReferring_of_last sound.counted
              (List.mem_of_find?_eq_some own.found)
              (own.count_sub_one sound.counted rowsReferring_pos_of_keyValue) last)
    | storedIndex64 _ _ => exact takes.elim
    | updatedIndex64 _ _ => exact takes.elim
    | removedIndex64 own =>
        obtain ⟨⟨_, ownToo⟩, last⟩ := takes
        obtain ⟨rfl, rfl⟩ := own.unique ownToo
        exact
          rowsReferring_eq_zero
            (rowsReferring_removedIndex64 _ own.row tab.id)
            (id_of_find_isTable own.table) here
            (rowsReferring_of_last sound.counted
              (List.mem_of_find?_eq_some own.found)
              (own.count_sub_one sound.counted rowsReferring_pos_of_index64) last)

end Removal

section Life

/-- The states of the chain's life: contracts are executed one after another,
at times that do not go back, and make calls that are allowed and return.  An
execution that fails is undone, which is the state before it again. -/
inductive Reached (forks : HardForks)
    (allowed : ApplyContext → Call → Prop) : ApplyContext → Prop where
  | genesis (time : Time) (sender receiver trxOrigin : Name)
      (ramStatistics : Name → Int) :
      Reached forks allowed
        (.start (.empty time) sender receiver trxOrigin ramStatistics)
  | call {context after : ApplyContext} {call : Call}
      (reached : Reached forks allowed context)
      (isAllowed : allowed context call)
      (returns : context.perform forks call = .ok after) :
      Reached forks allowed after
  | execute {context : ApplyContext}
      (reached : Reached forks allowed context)
      (time : Time) (later : context.store.headBlockTime ≤ time)
      (sender receiver trxOrigin : Name) (ramStatistics : Name → Int) :
      Reached forks allowed
        (.start { context.store with headBlockTime := time } sender receiver
          trxOrigin ramStatistics)

/-- The counts of a state are right: each is the number of rows of its table, a
removal does not find it at zero, and a table goes only without rows. -/
structure CountsRight (forks : HardForks)
    (allowed : ApplyContext → Call → Prop) (context : ApplyContext) :
    Prop where
  counted : context.store.Counted
  keyValuesAboveZero :
    ∀ iterator found,
      context.ownRow context.keyvalCache context.store.keyValues iterator =
        .ok found → found.2.count ≠ 0
  index64sAboveZero :
    ∀ iterator found,
      context.ownRow context.itrCache context.store.index64s iterator =
        .ok found → found.2.count ≠ 0
  removals :
    ∀ call after, allowed context call →
      context.perform forks call = .ok after →
        KeptOrEmpty context.store after.store

theorem exact_empty (forks : HardForks) (time : Time) :
    Exact forks (Store.empty time) where
  formed := Store.formed_empty time
  anchored :=
    ⟨fun _ member => (by cases member), fun _ member => (by cases member)⟩
  counted := fun _ member => by cases member
  noEarlyRows := fun _ => rfl

theorem reached_exact (reached : Reached forks (Countable forks) context) :
    Exact forks context.store := by
  induction reached with
  | genesis time _ _ _ _ => exact exact_empty forks time
  | call _ countable returns ih =>
      exact perform_exact ih countable returns
  | execute _ time later _ _ _ _ ih =>
      refine
        ⟨⟨ih.formed.tables,
            ih.formed.keyValues,
            ih.formed.index64s⟩,
          ⟨ih.anchored.keyValues,
            ih.anchored.index64s⟩,
          ih.counted, ?_⟩
      intro early
      exact
        ih.noEarlyRows (UInt32.le_trans later early)

theorem count_ne_zero {tableObj : TableIdObject}
    (counts : ((tableObj.count - 1).toNat : ℤ) = tableObj.count.toNat + -1) :
    tableObj.count ≠ 0 := by
  intro zero
  rw [zero, UInt32.toNat_zero] at counts
  omega

/-- As long as no key-value row is stored up to the hard fork and no count runs
over, the counts are right in every state of the chain's life. -/
theorem row_counts_right
    (reached : Reached forks (Countable forks) context) :
    CountsRight forks (Countable forks) context := by
  have sound := reached_exact reached
  refine ⟨sound.counted, ?_, ?_, ?_⟩
  · intro iterator found owns
    exact
      count_ne_zero
        ((ownRow_eq_ok owns).count_sub_one sound.counted
          rowsReferring_pos_of_keyValue)
  · intro iterator found owns
    exact
      count_ne_zero
        ((ownRow_eq_ok owns).count_sub_one sound.counted
          rowsReferring_pos_of_index64)
  · intro call after _ returns
    obtain ⟨middle, effect, same⟩ := perform_effect returns
    rw [same.store]
    exact effect_keptOrEmpty sound effect

theorem row_counts_right_index64 :
    ∃ context,
      (first 1600000000).perform .mainnet (.idx64Store 1 2 0 1 9) = .ok context ∧
        CountsRight .mainnet (Countable .mainnet) context := by
  have returns :
      ∃ context,
        (first 1600000000).perform .mainnet (.idx64Store 1 2 0 1 9) =
          .ok context :=
    ⟨_, rfl⟩
  obtain ⟨context, returns⟩ := returns
  have starts : Reached .mainnet (Countable .mainnet) (first 1600000000) :=
    .genesis _ _ _ _ _
  have room : Countable .mainnet (first 1600000000) (.idx64Store 1 2 0 1 9) := by
    intro tab found
    cases found
  exact
    ⟨context, returns, row_counts_right (.call starts room returns)⟩

/-- A key-value row stored up to the hard fork is not counted, and counted off
when it is removed after it: the count runs below zero. -/
theorem row_count_below_zero :
    ¬∀ context,
      Reached .mainnet (fun _ _ => True) context →
        CountsRight .mainnet (fun _ _ => True) context := by
  intro right
  have stores :
      ∃ stored,
        (first 1553832000).perform .mainnet (.dbStoreI64 1 2 5 1 [4]) =
            .ok stored ∧
          ∃ found removed,
            (start { stored.store with headBlockTime := 1553832003 } 5 7 5
              (fun _ => 0)).perform .mainnet (.dbFindI64 7 1 2 1) =
                .ok found ∧
            found.perform .mainnet (.dbRemoveI64 0) = .ok removed ∧
              removed.store.tables =
                [{ id := 0, code := 7, scope := 1, table := 2, payer := 5,
                   count := 4294967295 }] ∧
              removed.store.rowsReferring 0 = 0 := by
    exact ⟨_, rfl, _, _, rfl, rfl, rfl, rfl⟩
  obtain ⟨stored, stores, found, removed, finds, removes, table, rows⟩ :=
    stores
  have starts : Reached .mainnet (fun _ _ => True) (first 1553832000) :=
    .genesis _ _ _ _ _
  have storedReached := Reached.call starts trivial stores
  have laterReached :=
    Reached.execute storedReached 1553832003
      (by rw [perform_headBlockTime stores]; decide) 5 7 5 (fun _ => 0)
  have removedReached :=
    Reached.call (Reached.call laterReached trivial finds) trivial removes
  have exactly :=
    (right removed removedReached).counted
      { id := 0, code := 7, scope := 1, table := 2, payer := 5,
        count := 4294967295 }
      (by rw [table]; exact List.mem_cons_self)
  rw [rows] at exactly
  exact absurd exactly (by decide)

end Life

end ApplyContext

end GxbCore.Contract
