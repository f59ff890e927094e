import Mathlib.Data.List.Nodup
import Mathlib.Logic.Function.Basic
import GxbCore.Contract.RowCounts

/-!
# The key-value tables are a map

What `db_find_i64` finds is a map from a code, a scope, a table and a primary
key to bytes.  A store inserts a key, an update replaces the bytes of one and a
removal erases one, all under the code of the contract; no other call changes
the map.  The table objects underneath come and go: one that goes takes no rows
along, as the counts are right.
-/

namespace GxbCore.Contract

/-! ## Maps and what is written to them -/

structure RowKey where
  code : Name
  scope : Name
  table : Name
  id : UInt64
  deriving DecidableEq, Repr

abbrev RowMap :=
  RowKey → Option (List UInt8)

inductive Write where
  | insert (key : RowKey) (value : List UInt8)
  | replace (key : RowKey) (value : List UInt8)
  | erase (key : RowKey)
  | nothing
  deriving DecidableEq, Repr

/-- A key that is there is not inserted, and one that is not is neither replaced
nor erased. -/
def Write.run (map : RowMap) : Write → Option RowMap
  | insert key value =>
      if map key = none then some (Function.update map key (some value))
      else none
  | replace key value =>
      if map key = none then none
      else some (Function.update map key (some value))
  | erase key =>
      if map key = none then none
      else some (Function.update map key none)
  | nothing => some map

/-! ## The map of a store -/

def TableIdObject.named (tab : TableIdObject) : Nat × Name × Name × Name :=
  (tab.id, tab.code, tab.scope, tab.table)

/-- The tables with what they are found by, without their counts. -/
def Store.names (store : Store) : List (Nat × Name × Name × Name) :=
  store.tables.map TableIdObject.named

/-- No two tables have the same code, scope and table. -/
def Store.Distinct (store : Store) : Prop :=
  (store.names.map Prod.snd).Nodup

/-- The row is filed under the key. -/
structure Store.Files (store : Store) (row : KeyValueObject) (key : RowKey) :
    Prop where
  named : (row.tId, key.code, key.scope, key.table) ∈ store.names
  primaryKey : row.primaryKey = key.id

/-- What `db_find_i64` finds. -/
def ApplyContext.contents (context : ApplyContext) : RowMap := fun key =>
  (context.dbFindI64 key.code key.scope key.table key.id).row.map (·.value)

section Store

variable {store : Store} {row other : KeyValueObject}
  {key first second : RowKey}

theorem Store.mem_names {name : Nat × Name × Name × Name} :
    name ∈ store.names ↔ ∃ tab ∈ store.tables, tab.named = name :=
  List.mem_map

theorem findTable_eq_none {code scope table : Name}
    (missing : findTable store.tables code scope table = none) :
    (code, scope, table) ∉ store.names.map Prod.snd := by
  intro member
  obtain ⟨name, inNames, same⟩ := List.mem_map.mp member
  obtain ⟨tab, inTables, rfl⟩ := Store.mem_names.mp inNames
  have apart := List.find?_eq_none.mp missing tab inTables
  simp only [TableIdObject.named, Prod.mk.injEq] at same
  simp [same] at apart

theorem named_of_findTable {code scope table : Name} {tab : TableIdObject}
    (found : findTable store.tables code scope table = some tab) :
    (tab.id, code, scope, table) ∈ store.names := by
  have isTheTable := List.find?_some found
  simp only [Bool.and_eq_true, beq_iff_eq] at isTheTable
  obtain ⟨⟨rfl, rfl⟩, rfl⟩ := isTheTable
  exact Store.mem_names.mpr ⟨tab, mem_of_findTable found, rfl⟩

theorem Store.Distinct.id_eq (distinct : store.Distinct) {id id' : Nat}
    {name : Name × Name × Name} (one : (id, name) ∈ store.names)
    (two : (id', name) ∈ store.names) : id = id' :=
  congrArg Prod.fst (List.inj_on_of_nodup_map distinct one two rfl)

theorem Store.Formed.name_eq (formed : store.Formed) {id : Nat}
    {name name' : Name × Name × Name} (one : (id, name) ∈ store.names)
    (two : (id, name') ∈ store.names) : name = name' := by
  obtain ⟨tab, member, isOne⟩ := Store.mem_names.mp one
  obtain ⟨tab', member', isTwo⟩ := Store.mem_names.mp two
  have sameId : tab.id = tab'.id := by
    rw [show tab.id = id from congrArg Prod.fst isOne,
      show tab'.id = id from congrArg Prod.fst isTwo]
  have same := List.inj_on_of_nodup_map formed.tables.ids member member' sameId
  rw [same] at isOne
  exact congrArg Prod.snd (isOne.symm.trans isTwo)

theorem Store.Files.key_eq (formed : store.Formed)
    (one : store.Files row first) (two : store.Files row second) :
    first = second := by
  have names := formed.name_eq one.named two.named
  have ids := one.primaryKey.symm.trans two.primaryKey
  cases first
  cases second
  simp_all

theorem Store.Files.row_eq (formed : store.Formed) (distinct : store.Distinct)
    (member : row ∈ store.keyValues) (member' : other ∈ store.keyValues)
    (one : store.Files row key) (two : store.Files other key) :
    row = other := by
  refine List.inj_on_of_nodup_map formed.keyValues.keys member member' ?_
  exact
    Prod.ext (distinct.id_eq one.named two.named)
      (one.primaryKey.trans two.primaryKey.symm)

end Store

namespace ApplyContext

variable {forks : HardForks} {context after : ApplyContext} {key : RowKey}
  {value : List UInt8} {call : Call}

theorem contents_eq :
    context.contents key =
      ((findTable context.store.tables key.code key.scope key.table).bind
        fun tab => context.keyValueAt key.id tab.id).map (·.value) := by
  unfold contents dbFindI64 lookup
  cases findTable context.store.tables key.code key.scope key.table with
  | none => rfl
  | some tab =>
      cases found : context.keyValueAt key.id tab.id with
      | none => simp [found]
      | some row => simp [found, answerRow]

theorem contents_congr (tables : after.store.tables = context.store.tables)
    (keyValues : after.store.keyValues = context.store.keyValues) :
    after.contents = context.contents := by
  funext key
  rw [contents_eq, contents_eq]
  unfold keyValueAt
  rw [tables, keyValues]

theorem keyValueAt_eq_some {id : UInt64} {table : Nat} {row : KeyValueObject}
    (formed : context.store.Formed) :
    context.keyValueAt id table = some row ↔
      row ∈ context.store.keyValues ∧ row.tId = table ∧
        row.primaryKey = id := by
  have isKey : ∀ other : KeyValueObject,
      decide (compositeKey KeyValueObject.key other =
          toLex (table, id.toNat)) = true ↔
        other.tId = table ∧ other.primaryKey = id := by
    intro other
    simp [compositeKey, KeyValueObject.key, UInt64.toNat_inj]
  constructor
  · intro found
    obtain ⟨member, meets⟩ := mem_of_firstWhere found
    exact ⟨member, (isKey row).mp meets⟩
  · rintro ⟨member, here⟩
    cases found : context.keyValueAt id table with
    | none =>
        have notHere := not_meets_of_firstWhere_none found member
        rw [(isKey row).mpr here] at notHere
        cases notHere
    | some other =>
        obtain ⟨member', meets⟩ := mem_of_firstWhere found
        obtain ⟨sameTable, sameKey⟩ := (isKey other).mp meets
        refine congrArg some
          (List.inj_on_of_nodup_map formed.keyValues.keys member' member ?_)
        exact
          Prod.ext (sameTable.trans here.1.symm) (sameKey.trans here.2.symm)

/-- What is found is what is filed. -/
theorem contents_eq_some (formed : context.store.Formed)
    (distinct : context.store.Distinct) :
    context.contents key = some value ↔
      ∃ row ∈ context.store.keyValues,
        context.store.Files row key ∧ row.value = value := by
  rw [contents_eq, Option.map_eq_some_iff]
  constructor
  · rintro ⟨row, selected, isValue⟩
    obtain ⟨tab, found, selected⟩ := Option.bind_eq_some_iff.mp selected
    obtain ⟨member, sameTable, isKey⟩ := (keyValueAt_eq_some formed).mp selected
    exact
      ⟨row, member, ⟨sameTable ▸ named_of_findTable found, isKey⟩, isValue⟩
  · rintro ⟨row, member, ⟨named, isKey⟩, isValue⟩
    refine ⟨row, Option.bind_eq_some_iff.mpr ?_, isValue⟩
    cases found :
        findTable context.store.tables key.code key.scope key.table with
    | none =>
        exact
          absurd (List.mem_map_of_mem named) (findTable_eq_none found)
    | some tab =>
        have sameTable := distinct.id_eq named (named_of_findTable found)
        exact
          ⟨tab, rfl,
            (keyValueAt_eq_some formed).mpr ⟨member, sameTable, isKey⟩⟩

section Names

variable {tableObj : TableIdObject}

/-- What a call does to the tables: some go, or one is made that was not
there. -/
def Renames (before after : Store) : Prop :=
  List.Sublist after.names before.names ∨
    ∃ code scope table,
      findTable before.tables code scope table = none ∧
        after.names =
          before.names ++ [(before.nextTableId, code, scope, table)]

theorem Renames.of_tables {before after : Store}
    (same : after.tables = before.tables) : Renames before after := by
  left
  rw [Store.names, same]
  rfl

theorem names_setCount
    (found : context.store.tables.find? (isTable tableObj.id) = some tableObj)
    (count : UInt32) :
    (context.setCount tableObj count).store.names = context.store.names :=
  map_replaceFirst found rfl

theorem names_removeTable :
    List.Sublist (context.removeTable tableObj).store.names
      context.store.names := by
  simp only [removeTable, updateRamStatistics_store, Store.names]
  exact List.eraseP_sublist.map _

theorem names_discountKeyValue
    (found : context.store.tables.find? (isTable tableObj.id) = some tableObj) :
    List.Sublist (context.discountKeyValue forks tableObj).store.names
      context.store.names := by
  unfold discountKeyValue countDown
  split
  · split
    · exact names_setCount found (tableObj.count - 1) ▸ names_removeTable
    · rw [names_setCount found]
  · rfl

theorem findOrCreateTable_renames (forks : HardForks)
    (context : ApplyContext) (code scope table payer : Name) :
    Renames context.store
      (context.findOrCreateTable forks code scope table payer).2.store := by
  rcases findOrCreateTable_cases forks context code scope table payer with
    ⟨tab, _, made⟩ | ⟨missing, _, store⟩
  · exact .of_tables (by rw [made])
  · refine .inr ⟨code, scope, table, missing, ?_⟩
    rw [store]
    simp [Store.names, withNewTable, TableIdObject.named]

/-- The table a row is stored in goes by the names asked for. -/
theorem findOrCreateTable_named (forks : HardForks) (context : ApplyContext)
    (code scope table payer : Name) :
    ((context.findOrCreateTable forks code scope table payer).1.id, code,
        scope, table) ∈
      (context.findOrCreateTable forks code scope table
        payer).2.store.names := by
  rcases findOrCreateTable_cases forks context code scope table payer with
    ⟨tab, found, made⟩ | ⟨_, made, store⟩
  · rw [made]
    exact named_of_findTable found
  · rw [made, store]
    simp [Store.names, withNewTable, TableIdObject.named]

theorem names_storedKeyValue {scope table payer : Name} {id : UInt64}
    {buffer : List UInt8} {created : KeyValueObject × ApplyContext}
    (formed : context.store.Formed)
    (creates :
      (context.findOrCreateTable forks context.receiver scope table
        payer).2.createKeyValue
          (context.findOrCreateTable forks context.receiver scope table
            payer).1.id payer id buffer = .ok created) :
    (context.storedKeyValue forks scope table payer buffer
        created).store.names =
      (context.findOrCreateTable forks context.receiver scope table
        payer).2.store.names := by
  have found := createdKeyValue_found formed creates
  have names : created.2.store.names = _ :=
    congrArg (List.map TableIdObject.named) (createKeyValue_tables creates)
  rw [← show _ = Store.names _ from names]
  unfold storedKeyValue countKeyValue
  split
  · rw [names_setCount (by simpa using found), updateDbUsage_store]
  · rw [updateDbUsage_store]

theorem effect_renames (formed : context.store.Formed)
    (effect : Effect forks context call after) :
    Renames context.store after.store := by
  cases effect with
  | looked _ => exact .of_tables rfl
  | storedKeyValue _ creates =>
      unfold Renames
      rw [names_storedKeyValue formed creates]
      exact findOrCreateTable_renames forks context _ _ _ _
  | updatedKeyValue _ _ => exact .of_tables (by simp [replaceKeyValue])
  | @removedKeyValue _ obj tableObj own =>
      refine .inl ?_
      have fewer :=
        @names_discountKeyValue forks
          (context.updateDbUsage forks obj.payer
            (-(obj.value.length + keyValueObjectSize))) _
          (by simpa using own.found)
      rwa [updateDbUsage_store] at fewer
  | @storedIndex64 scope table _ payer _ _ created _ creates =>
      have found := createdIndex64_found formed creates
      have names :
          (context.storedIndex64 forks scope table payer created).store.names =
            created.2.store.names := by
        unfold storedIndex64
        rw [updateDbUsage_store, names_setCount found]
      unfold Renames
      rw [names, Store.names, createIndex64_tables creates]
      exact findOrCreateTable_renames forks context _ _ _ _
  | updatedIndex64 _ _ => exact .of_tables rfl
  | @removedIndex64 _ obj tableObj own =>
      refine .inl ?_
      have counted :=
        @names_setCount
          (context.updateDbUsage forks obj.payer (-index64ObjectSize)) _
          (by simpa using own.found) (tableObj.count - 1)
      rw [updateDbUsage_store] at counted
      unfold removedIndex64 dropEmptyTable
      rw [← counted]
      split
      · exact names_removeTable
      · rfl

theorem Renames.distinct {before after : Store}
    (renames : Renames before after) (distinct : before.Distinct) :
    after.Distinct := by
  unfold Store.Distinct
  rcases renames with fewer | ⟨code, scope, table, missing, names⟩
  · exact distinct.sublist (fewer.map _)
  · rw [names]
    refine nodup_map_concat distinct ?_
    intro name member same
    refine findTable_eq_none missing (List.mem_map.mpr ⟨name, member, same⟩)

/-- The table of a row that stays keeps its names. -/
theorem effect_named {row left : KeyValueObject}
    {name : Name × Name × Name} (sound : Exact forks context.store)
    (effect : Effect forks context call after)
    (member : row ∈ context.store.keyValues)
    (stays : left ∈ after.store.keyValues) (same : left.tId = row.tId) :
    (row.tId, name) ∈ after.store.names ↔
      (row.tId, name) ∈ context.store.names := by
  have known : ∀ {other : Name × Name × Name},
      (row.tId, other) ∈ after.store.names →
        (row.tId, other) ∈ context.store.names := by
    intro other named
    rcases effect_renames sound.formed effect with fewer | ⟨_, _, _, _, names⟩
    · exact fewer.mem named
    · rw [names] at named
      rcases List.mem_append.mp named with old | isNew
      · exact old
      · have smaller := sound.anchored.keyValues row member
        have here := congrArg Prod.fst (List.mem_singleton.mp isNew)
        simp only at here
        omega
  refine ⟨known, fun named => ?_⟩
  obtain ⟨tab, inTables, isNamed⟩ := Store.mem_names.mp named
  have sameId : tab.id = row.tId := congrArg Prod.fst isNamed
  rcases effect_keptOrEmpty sound effect tab inTables with
    ⟨kept, inAfter, isKept⟩ | empty
  · have still : (row.tId, kept.named.2) ∈ after.store.names :=
      Store.mem_names.mpr
        ⟨kept, inAfter, Prod.ext (isKept.trans sameId) rfl⟩
    rwa [sound.formed.name_eq named (known still)]
  · have refers := rowsReferring_pos_of_keyValue stays
    rw [same, ← sameId, empty] at refers
    exact absurd refers (lt_irrefl 0)

end Names

section Writes

/-- The key of the row an iterator stands for. -/
def keyOf (context : ApplyContext) (iterator : Int) : Option RowKey :=
  match
    context.ownRow context.keyvalCache context.store.keyValues iterator with
  | .ok (obj, tableObj) =>
      some ⟨tableObj.code, tableObj.scope, tableObj.table, obj.primaryKey⟩
  | .error _ => none

/-- What a call writes. -/
def writeOf (context : ApplyContext) : Call → Write
  | .dbStoreI64 scope table _ id buffer =>
      .insert ⟨context.receiver, scope, table, id⟩ buffer
  | .dbUpdateI64 iterator _ buffer =>
      match context.keyOf iterator with
      | some key => .replace key buffer
      | none => .nothing
  | .dbRemoveI64 iterator =>
      match context.keyOf iterator with
      | some key => .erase key
      | none => .nothing
  | _ => .nothing

/-- The states of the chain's life, with what has been written to the tables. -/
inductive Traced (forks : HardForks) : ApplyContext → List Write → Prop where
  | genesis (time : Time) (sender receiver trxOrigin : Name)
      (ramStatistics : Name → Int) :
      Traced forks
        (.start (.empty time) sender receiver trxOrigin ramStatistics) []
  | call {context after : ApplyContext} {call : Call} {writes : List Write}
      (traced : Traced forks context writes)
      (countable : Countable forks context call)
      (returns : context.perform forks call = .ok after) :
      Traced forks after (writes ++ [context.writeOf call])
  | execute {context : ApplyContext} {writes : List Write}
      (traced : Traced forks context writes)
      (time : Time) (later : context.store.headBlockTime ≤ time)
      (sender receiver trxOrigin : Name) (ramStatistics : Name → Int) :
      Traced forks
        (.start { context.store with headBlockTime := time } sender receiver
          trxOrigin ramStatistics) writes

theorem effect_files {row left : KeyValueObject}
    (sound : Exact forks context.store)
    (effect : Effect forks context call after)
    (member : row ∈ context.store.keyValues)
    (stays : left ∈ after.store.keyValues) (same : left.tId = row.tId) :
    after.store.Files row key ↔ context.store.Files row key :=
  have named {name} :=
    @effect_named _ _ _ _ _ _ name sound effect member stays same
  ⟨fun filed => ⟨named.mp filed.named, filed.primaryKey⟩,
    fun filed => ⟨named.mpr filed.named, filed.primaryKey⟩⟩

section Own

variable {iterator : Int} {obj : KeyValueObject} {tableObj : TableIdObject}

def keyIn (obj : KeyValueObject) (tableObj : TableIdObject) : RowKey :=
  ⟨tableObj.code, tableObj.scope, tableObj.table, obj.primaryKey⟩

variable
  (own :
    OwnRow context context.keyvalCache context.store.keyValues iterator obj
      tableObj)

include own

theorem OwnRow.member : obj ∈ context.store.keyValues :=
  List.mem_of_find?_eq_some own.row

theorem OwnRow.files : context.store.Files obj (keyIn obj tableObj) :=
  ⟨Store.mem_names.mpr
    ⟨tableObj, List.mem_of_find?_eq_some own.table,
      Prod.ext (id_of_find_isTable own.table) rfl⟩, rfl⟩

theorem OwnRow.ownRow_eq :
    context.ownRow context.keyvalCache context.store.keyValues iterator =
      .ok (obj, tableObj) := by
  have cached :
      context.keyvalCache.getTable (TableRow.tId obj) =
        .ok (TableRow.tId obj) := by
    obtain ⟨endIterator, isCached⟩ := Option.isSome_iff_exists.mp own.cached
    unfold IteratorCache.getTable
    rw [isCached]
  exact
    bind_eq_ok.mpr ⟨_, own.pointer,
      bind_eq_ok.mpr ⟨_, orThrow_eq_ok.mpr own.row,
        bind_eq_ok.mpr ⟨_, cached,
          bind_eq_ok.mpr ⟨_, orThrow_eq_ok.mpr own.table,
            bind_eq_ok.mpr ⟨(), fcAssert_eq_ok.mpr own.code, rfl⟩⟩⟩⟩⟩

theorem OwnRow.keyOf_eq :
    context.keyOf iterator = some (keyIn obj tableObj) := by
  rw [keyOf, own.ownRow_eq]
  rfl

end Own

section Effects

variable (sound : Exact forks context.store)
  (distinct : context.store.Distinct)

include sound distinct

section Anything

variable (effect : Effect forks context call after)

include effect

theorem effect_distinct : after.store.Distinct :=
  (effect_renames sound.formed effect).distinct distinct

theorem effect_contents_eq_some :
    after.contents key = some value ↔
      ∃ row ∈ after.store.keyValues,
        after.store.Files row key ∧ row.value = value :=
  contents_eq_some (effect_formed sound.formed effect)
    (effect_distinct sound distinct effect)

/-- A key keeps its bytes when the rows filed under it stay. -/
theorem effect_contents_at
    (keeps :
      ∀ row ∈ context.store.keyValues,
        context.store.Files row key → row ∈ after.store.keyValues)
    (only :
      ∀ row ∈ after.store.keyValues,
        after.store.Files row key → row ∈ context.store.keyValues) :
    after.contents key = context.contents key := by
  refine Option.ext fun value => ?_
  rw [effect_contents_eq_some sound distinct effect,
    contents_eq_some sound.formed distinct]
  constructor
  · rintro ⟨row, member, filed, isValue⟩
    have before := only row member filed
    exact
      ⟨row, before, (effect_files sound effect before member rfl).mp filed,
        isValue⟩
  · rintro ⟨row, member, filed, isValue⟩
    have stays := keeps row member filed
    exact
      ⟨row, stays, (effect_files sound effect member stays rfl).mpr filed,
        isValue⟩

/-- The map changes at one key when the rows filed elsewhere stay. -/
theorem effect_contents_update {bytes : Option (List UInt8)}
    (here : after.contents key = bytes)
    (keeps :
      ∀ row ∈ context.store.keyValues,
        ¬context.store.Files row key → row ∈ after.store.keyValues)
    (only :
      ∀ row ∈ after.store.keyValues,
        ¬after.store.Files row key → row ∈ context.store.keyValues) :
    after.contents = Function.update context.contents key bytes := by
  funext other
  by_cases isKey : other = key
  · rw [isKey, here, Function.update_self]
  · rw [Function.update_of_ne isKey]
    refine effect_contents_at sound distinct effect ?_ ?_
    · intro row member filed
      refine keeps row member fun filedToo => isKey ?_
      exact filed.key_eq sound.formed filedToo
    · intro row member filed
      refine only row member fun filedToo => isKey ?_
      exact filed.key_eq (effect_formed sound.formed effect) filedToo

theorem effect_contents_same
    (same : after.store.keyValues = context.store.keyValues) :
    after.contents = context.contents := by
  funext key
  refine effect_contents_at sound distinct effect ?_ ?_
  · intro row member _
    rwa [same]
  · intro row member _
    rwa [← same]

end Anything

theorem insert_contents {scope table asked payer : Name} {id : UInt64}
    {buffer : List UInt8} {created : KeyValueObject × ApplyContext}
    (allowed : context.checkPayerPermission forks asked = .ok payer)
    (creates :
      (context.findOrCreateTable forks context.receiver scope table
        payer).2.createKeyValue
          (context.findOrCreateTable forks context.receiver scope table
            payer).1.id payer id buffer = .ok created) :
    Write.run context.contents
        (.insert ⟨context.receiver, scope, table, id⟩ buffer) =
      some
        (context.storedKeyValue forks scope table payer buffer
          created).contents := by
  have effect := Effect.storedKeyValue allowed creates
  obtain ⟨newKey, isRow, _⟩ := createKeyValue_eq_ok creates
  rw [(findOrCreateTable_made forks sound.formed context.receiver scope table
    payer).keyValues] at newKey
  have filed :
      (context.storedKeyValue forks scope table payer buffer
        created).store.Files created.1
          ⟨context.receiver, scope, table, id⟩ := by
    rw [isRow]
    refine ⟨?_, rfl⟩
    rw [names_storedKeyValue sound.formed creates]
    exact findOrCreateTable_named forks context _ _ _ _
  generalize isAfter :
    context.storedKeyValue forks scope table payer buffer created = after
      at effect filed ⊢
  have rows :
      after.store.keyValues = context.store.keyValues ++ [created.1] :=
    isAfter ▸ (storedKeyValue_rows sound.formed creates).1
  have isNew : created.1 ∈ after.store.keyValues := by simp [rows]
  have stays :
      ∀ row ∈ context.store.keyValues, row ∈ after.store.keyValues := by
    intro row member
    simp [rows, member]
  have missing :
      context.contents ⟨context.receiver, scope, table, id⟩ = none := by
    refine Option.eq_none_iff_forall_ne_some.mpr fun value found => ?_
    obtain ⟨row, member, isFiled, _⟩ :=
      (contents_eq_some sound.formed distinct).mp found
    have still :=
      (effect_files sound effect member (stays row member) rfl).mpr isFiled
    have same :=
      Store.Files.row_eq (effect_formed sound.formed effect)
        (effect_distinct sound distinct effect) (stays row member) isNew still
        filed
    refine newKey row member ?_
    rw [same, isRow]
    exact ⟨rfl, rfl⟩
  have here :
      after.contents ⟨context.receiver, scope, table, id⟩ = some buffer :=
    (effect_contents_eq_some sound distinct effect).mpr
      ⟨created.1, isNew, filed, by rw [isRow]⟩
  rw [effect_contents_update sound distinct effect here]
  · simp [Write.run, missing]
  · intro row member _
    exact stays row member
  · intro row member notHere
    rw [rows] at member
    rcases List.mem_append.mp member with old | isCreated
    · exact old
    · exact absurd (List.mem_singleton.mp isCreated ▸ filed) notHere

theorem replace_contents {iterator : Int} {asked payer : Name}
    {buffer : List UInt8} {obj : KeyValueObject} {tableObj : TableIdObject}
    (allowed : context.checkPayerPermission forks asked = .ok payer)
    (own :
      OwnRow context context.keyvalCache context.store.keyValues iterator obj
        tableObj) :
    Write.run context.contents (.replace (keyIn obj tableObj) buffer) =
      some
        ((context.payUpdate forks obj payer buffer).replaceKeyValue
          { obj with value := buffer, payer := payer }).contents := by
  have effect :=
    @Effect.updatedKeyValue forks context _ _ _ buffer _ _ allowed own
  have there :
      context.contents (keyIn obj tableObj) = some obj.value :=
    (contents_eq_some sound.formed distinct).mpr
      ⟨obj, own.member, own.files, rfl⟩
  generalize isFresh : { obj with value := buffer, payer := payer } = fresh
    at effect ⊢
  have filed :
      ((context.payUpdate forks obj payer buffer).replaceKeyValue
        fresh).store.Files fresh (keyIn obj tableObj) := by
    subst isFresh
    have named := own.files.named
    exact ⟨by simpa [replaceKeyValue, Store.names] using named, rfl⟩
  have sameId : fresh.id = obj.id := by rw [← isFresh]
  have isValue : fresh.value = buffer := by rw [← isFresh]
  generalize isAfter :
    (context.payUpdate forks obj payer buffer).replaceKeyValue fresh = after
      at effect filed ⊢
  have rows :
      after.store.keyValues =
        replaceFirst (isRow fresh.id) fresh context.store.keyValues := by
    rw [← isAfter]
    simp [replaceKeyValue]
  have found : context.store.keyValues.find? (isRow fresh.id) = some obj :=
    sameId ▸ own.row
  have isNew : fresh ∈ after.store.keyValues := by
    rw [rows]
    exact
      List.mem_of_find?_eq_some (find_replaceFirst found (by simp [isRow]))
  rw [effect_contents_update sound distinct effect
    ((effect_contents_eq_some sound distinct effect).mpr
      ⟨fresh, isNew, filed, isValue⟩)]
  · simp [Write.run, there]
  · intro row member notHere
    rw [rows]
    refine mem_replaceFirst_of_key_ne member ?_
    intro same
    have isObj :=
      List.inj_on_of_nodup_map sound.formed.keyValues.ids member own.member
        (same.trans sameId)
    exact notHere (isObj ▸ own.files)
  · intro row member notHere
    rw [rows] at member
    rcases mem_replaceFirst member with isFresh | old
    · exact absurd (isFresh ▸ filed) notHere
    · exact old

theorem erase_contents {iterator : Int} {obj : KeyValueObject}
    {tableObj : TableIdObject}
    (own :
      OwnRow context context.keyvalCache context.store.keyValues iterator obj
        tableObj) :
    Write.run context.contents (.erase (keyIn obj tableObj)) =
      some (context.removedKeyValue forks obj tableObj).contents := by
  have effect := @Effect.removedKeyValue forks context _ _ _ own
  have there :
      context.contents (keyIn obj tableObj) = some obj.value :=
    (contents_eq_some sound.formed distinct).mpr
      ⟨obj, own.member, own.files, rfl⟩
  generalize isAfter : context.removedKeyValue forks obj tableObj = after
    at effect ⊢
  have rows :
      after.store.keyValues =
        context.store.keyValues.eraseP (isRow obj.id) := by
    rw [← isAfter]
    simp [removedKeyValue, eraseKeyValue]
  have gone : after.contents (keyIn obj tableObj) = none := by
    refine Option.eq_none_iff_forall_ne_some.mpr fun value found => ?_
    obtain ⟨row, left, filed, _⟩ :=
      (effect_contents_eq_some sound distinct effect).mp found
    have member : row ∈ context.store.keyValues :=
      List.mem_of_mem_eraseP (rows ▸ left)
    have isObj :=
      Store.Files.row_eq sound.formed distinct member own.member
        ((effect_files sound effect member left rfl).mp filed) own.files
    rw [rows] at left
    exact
      key_ne_of_mem_eraseP sound.formed.keyValues.ids left
        (congrArg KeyValueObject.id isObj)
  rw [effect_contents_update sound distinct effect gone]
  · simp [Write.run, there]
  · intro row member notHere
    rw [rows]
    refine mem_eraseP_of_key_ne member ?_
    intro same
    have isObj :=
      List.inj_on_of_nodup_map sound.formed.keyValues.ids member own.member
        same
    exact notHere (isObj ▸ own.files)
  · intro row member _
    exact List.mem_of_mem_eraseP (rows ▸ member)

theorem effect_contents (effect : Effect forks context call after) :
    (context.writeOf call).run context.contents = some after.contents := by
  have same := effect_contents_same sound distinct effect
  cases effect with
  | looked reads =>
      cases call <;> first | exact reads.elim | rfl
  | storedKeyValue allowed creates =>
      exact insert_contents sound distinct allowed creates
  | updatedKeyValue allowed own =>
      simp only [writeOf, own.keyOf_eq]
      exact replace_contents sound distinct allowed own
  | removedKeyValue own =>
      simp only [writeOf, own.keyOf_eq]
      exact erase_contents sound distinct own
  | storedIndex64 _ creates =>
      have rows := (storedIndex64_rows sound.formed creates).1
      exact congrArg some (same rows).symm
  | updatedIndex64 _ _ => exact congrArg some (same rfl).symm
  | removedIndex64 _ => exact congrArg some (same removedIndex64_rows.1).symm

end Effects

theorem Traced.reached {writes : List Write}
    (traced : Traced forks context writes) :
    Reached forks (Countable forks) context := by
  induction traced with
  | genesis time sender receiver trxOrigin ramStatistics =>
      exact .genesis time sender receiver trxOrigin ramStatistics
  | call _ countable returns ih => exact .call ih countable returns
  | execute _ time later sender receiver trxOrigin ramStatistics ih =>
      exact .execute ih time later sender receiver trxOrigin ramStatistics

theorem Traced.distinct {writes : List Write}
    (traced : Traced forks context writes) : context.store.Distinct := by
  induction traced with
  | genesis _ _ _ _ _ => exact List.nodup_nil
  | call traced _ returns ih =>
      obtain ⟨middle, effect, same⟩ := perform_effect returns
      rw [same.store]
      exact effect_distinct (reached_exact traced.reached) ih effect
  | execute _ _ _ _ _ _ _ ih => exact ih

/-- What the calls since genesis have written, one after another, to a map that
was empty is what is found in the tables now. -/
theorem contents_of_writes {writes : List Write}
    (traced : Traced forks context writes) :
    writes.foldlM Write.run (fun _ => none) = some context.contents := by
  induction traced with
  | genesis _ _ _ _ _ => rfl
  | @call context after call writes traced countable returns ih =>
      obtain ⟨middle, effect, same⟩ := perform_effect returns
      rw [List.foldlM_append, ih,
        contents_congr (congrArg Store.tables same.store)
          (congrArg Store.keyValues same.store)]
      simpa using
        effect_contents (reached_exact traced.reached) traced.distinct effect
  | execute _ _ _ _ _ _ _ ih =>
      rw [ih]
      exact congrArg some (contents_congr (by rfl) (by rfl)).symm

/-- A row is stored, and its bytes are replaced. -/
theorem contents_of_writes_updated :
    ∃ context : ApplyContext,
      [Write.insert ⟨7, 1, 2, 1⟩ [4], .replace ⟨7, 1, 2, 1⟩ [5, 6]].foldlM
          Write.run (fun _ => none) =
        some context.contents := by
  have runs :
      ∃ stored updated,
        (first 1600000000).perform .mainnet (.dbStoreI64 1 2 5 1 [4]) =
            .ok stored ∧
          stored.perform .mainnet (.dbUpdateI64 0 5 [5, 6]) = .ok updated ∧
            stored.writeOf (.dbUpdateI64 0 5 [5, 6]) =
              .replace ⟨7, 1, 2, 1⟩ [5, 6] :=
    ⟨_, _, rfl, rfl, rfl⟩
  obtain ⟨stored, updated, stores, updates, writes⟩ := runs
  have starts : Traced .mainnet (first 1600000000) [] := .genesis _ _ _ _ _
  have room : Countable .mainnet (first 1600000000)
      (.dbStoreI64 1 2 5 1 [4]) :=
    ⟨by decide, fun tab found => by cases found⟩
  have countable : Countable .mainnet stored (.dbUpdateI64 0 5 [5, 6]) :=
    trivial
  have traced :=
    Traced.call (Traced.call starts room stores) countable updates
  rw [writes] at traced
  exact ⟨updated, contents_of_writes traced⟩

end Writes

end ApplyContext

end GxbCore.Contract
