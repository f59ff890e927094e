import GxbCore.Contract.Stores

/-!
# The iterators of a contract

The cache of an index holds pointers to rows and to tables.  The pointer of a
row is dropped when the row is removed.  The pointer of a table is not: it is
left dangling when the table goes with its last row.  As long as no table goes,
every pointer of both caches points to something.
-/

namespace GxbCore.Contract

/-- A cache whose pointers point to the tables in `tables` and to rows: `rowAt`
says which row lies in which table. -/
structure IteratorCache.Live (tables : Nat → Prop) (rowAt : Nat → Nat → Prop)
    (cache : IteratorCache) : Prop where
  rows :
    ∀ (index pointer : Nat),
      cache.iteratorToObject[index]? = some (some pointer) →
        ∃ table, rowAt pointer table ∧ (cache.tableCache table).isSome
  handles :
    ∀ pointer iterator,
      cache.objectToIterator pointer = some iterator ↔
        ∃ index : Nat,
          iterator = index ∧
            cache.iteratorToObject[index]? = some (some pointer)
  ends :
    ∀ table iterator,
      cache.tableCache table = some iterator ↔
        ∃ index : Nat,
          iterator = indexToEndIterator index ∧
            cache.endIteratorToTable[index]? = some table
  exist : ∀ table ∈ cache.endIteratorToTable, tables table

namespace IteratorCache

variable {tables moreTables : Nat → Prop}
variable {rowAt moreRows : Nat → Nat → Prop}
variable {cache : IteratorCache}

theorem empty_live : empty.Live tables rowAt where
  rows := by simp [empty]
  handles := by simp [empty]
  ends := by simp [empty]
  exist := by simp [empty]

theorem Live.mono (live : cache.Live tables rowAt)
    (tablesStay :
      ∀ table ∈ cache.endIteratorToTable, tables table → moreTables table)
    (rowsStay :
      ∀ pointer table, some pointer ∈ cache.iteratorToObject →
        rowAt pointer table → moreRows pointer table) :
    cache.Live moreTables moreRows where
  rows := by
    intro index pointer at_index
    obtain ⟨table, isRow, cached⟩ := live.rows index pointer at_index
    exact
      ⟨table,
        rowsStay pointer table (List.mem_of_getElem? at_index) isRow, cached⟩
  handles := live.handles
  ends := live.ends
  exist := fun table member =>
    tablesStay table member (live.exist table member)

theorem Live.table (live : cache.Live tables rowAt) {table : Nat}
    (cached : (cache.tableCache table).isSome) : tables table := by
  obtain ⟨iterator, isCached⟩ := Option.isSome_iff_exists.mp cached
  obtain ⟨index, _, at_index⟩ := (live.ends table iterator).mp isCached
  exact live.exist table (List.mem_of_getElem? at_index)

theorem getElem?_concat_eq_some
    {α : Type} {entries : List α} {fresh value : α} {index : Nat} :
    (entries ++ [fresh])[index]? = some value ↔
      entries[index]? = some value ∨
        index = entries.length ∧ fresh = value := by
  rcases Nat.lt_trichotomy index entries.length with before | same | behind
  · rw [List.getElem?_append_left before]
    simp [Nat.ne_of_lt before]
  · subst same
    simp
  · rw [List.getElem?_eq_none (by simp; omega),
      List.getElem?_eq_none (by omega)]
    simp [Nat.ne_of_gt behind]

theorem cacheTable_cached (table : Nat) :
    (cache.cacheTable table).2.tableCache table =
      some (cache.cacheTable table).1 := by
  unfold cacheTable
  cases cached : cache.tableCache table with
  | some iterator => exact cached
  | none => exact Function.update_self ..

theorem cacheTable_live
    (live : cache.Live tables rowAt) {table : Nat} (exists_ : tables table) :
    (cache.cacheTable table).2.Live tables rowAt := by
  unfold cacheTable
  cases cached : cache.tableCache table with
  | some iterator => exact live
  | none =>
      refine ⟨?_, live.handles, ?_, ?_⟩
      · intro index pointer at_index
        obtain ⟨other, isRow, isCached⟩ := live.rows index pointer at_index
        refine ⟨other, isRow, ?_⟩
        by_cases same : other = table
        · simp [same]
        · simpa [Function.update_of_ne same] using isCached
      · intro other iterator
        simp only [getElem?_concat_eq_some]
        by_cases same : other = table
        · subst same
          rw [Function.update_self]
          constructor
          · intro isEnd
            exact ⟨_, (Option.some.inj isEnd).symm, .inr ⟨rfl, rfl⟩⟩
          · rintro ⟨index, rfl, old | ⟨rfl, _⟩⟩
            · have wasCached := (live.ends other _).mpr ⟨index, rfl, old⟩
              rw [cached] at wasCached
              cases wasCached
            · rfl
        · rw [Function.update_of_ne same, live.ends]
          simp [Ne.symm same]
      · intro other member
        rcases List.mem_append.mp member with old | isNew
        · exact live.exist other old
        · rw [List.mem_singleton.mp isNew]
          exact exists_

theorem get_eq_ok {iterator : Int} {pointer : Nat} :
    cache.get iterator = .ok pointer ↔
      ∃ index : Nat,
        iterator = index ∧
          cache.iteratorToObject[index]? = some (some pointer) := by
  unfold get
  constructor
  · intro gets
    obtain ⟨_, _, gets⟩ := bind_eq_ok.mp gets
    obtain ⟨_, nonneg, gets⟩ := bind_eq_ok.mp gets
    obtain ⟨_, inRange, gets⟩ := bind_eq_ok.mp gets
    refine ⟨iterator.toNat, ?_, ?_⟩
    · exact (Int.toNat_of_nonneg (fcAssert_eq_ok.mp nonneg)).symm
    · exact Option.join_eq_some_iff.mp (orThrow_eq_ok.mp gets)
  · rintro ⟨index, rfl, at_index⟩
    have inRange := (List.getElem?_eq_some_iff.mp at_index).1
    refine bind_eq_ok.mpr ⟨(), fcAssert_eq_ok.mpr (by omega), ?_⟩
    refine bind_eq_ok.mpr ⟨(), fcAssert_eq_ok.mpr (by omega), ?_⟩
    refine bind_eq_ok.mpr ⟨(), fcAssert_eq_ok.mpr (by omega), ?_⟩
    rw [orThrow_eq_ok, Int.toNat_natCast, at_index]
    rfl

theorem Live.get_iff
    (live : cache.Live tables rowAt) {iterator : Int} {pointer : Nat} :
    cache.get iterator = .ok pointer ↔
      cache.objectToIterator pointer = some iterator := by
  rw [get_eq_ok, live.handles]

theorem Live.row (live : cache.Live tables rowAt) {iterator : Int}
    {pointer : Nat} (gets : cache.get iterator = .ok pointer) :
    ∃ table, rowAt pointer table ∧ (cache.tableCache table).isSome := by
  obtain ⟨index, _, at_index⟩ := get_eq_ok.mp gets
  exact live.rows index pointer at_index

theorem add_tableCache (pointer : Nat) :
    (cache.add pointer).2.tableCache = cache.tableCache := by
  unfold add
  split
  · rfl
  · rfl

theorem add_live (live : cache.Live tables rowAt) {pointer table : Nat}
    (isRow : rowAt pointer table)
    (tableCached : (cache.tableCache table).isSome) :
    (cache.add pointer).2.Live tables rowAt := by
  unfold add
  cases has : cache.objectToIterator pointer with
  | some iterator => exact live
  | none =>
      refine ⟨?_, ?_, live.ends, live.exist⟩
      · intro index other at_index
        rcases getElem?_concat_eq_some.mp at_index with old | ⟨_, isNew⟩
        · exact live.rows index other old
        · cases isNew
          exact ⟨table, isRow, tableCached⟩
      · intro other iterator
        simp only [getElem?_concat_eq_some]
        by_cases same : other = pointer
        · subst same
          rw [Function.update_self]
          constructor
          · intro isHandle
            exact ⟨_, (Option.some.inj isHandle).symm, .inr ⟨rfl, rfl⟩⟩
          · rintro ⟨index, rfl, old | ⟨rfl, _⟩⟩
            · have had := (live.handles other _).mpr ⟨index, rfl, old⟩
              rw [has] at had
              cases had
            · rfl
        · rw [Function.update_of_ne same, live.handles]
          simp [Ne.symm same]

theorem get_add (live : cache.Live tables rowAt) {pointer table : Nat}
    (isRow : rowAt pointer table)
    (tableCached : (cache.tableCache table).isSome) :
    (cache.add pointer).2.get (cache.add pointer).1 = .ok pointer := by
  rw [(add_live live isRow tableCached).get_iff]
  unfold add
  cases has : cache.objectToIterator pointer with
  | some iterator => exact has
  | none => exact Function.update_self ..

/-- The handle that is removed is forgotten, with the row behind it. -/
theorem remove_live {remaining : IteratorCache} {iterator : Int} {pointer : Nat}
    (live : cache.Live tables rowAt) (gets : cache.get iterator = .ok pointer)
    (removes : cache.remove iterator = .ok remaining)
    (rowsStay :
      ∀ other table, other ≠ pointer → rowAt other table →
        moreRows other table) : remaining.Live tables moreRows := by
  obtain ⟨index, rfl, at_index⟩ := get_eq_ok.mp gets
  unfold remove at removes
  obtain ⟨_, _, removes⟩ := bind_eq_ok.mp removes
  obtain ⟨_, _, removes⟩ := bind_eq_ok.mp removes
  obtain ⟨_, _, removes⟩ := bind_eq_ok.mp removes
  simp only [Int.toNat_natCast, at_index, Option.join_some,
    Except.ok.injEq] at removes
  subst removes
  have onlyHandle :
      ∀ {other : Nat},
        cache.iteratorToObject[other]? = some (some pointer) →
          other = index := by
    intro other at_other
    have first := (live.handles pointer index).mpr ⟨index, rfl, at_index⟩
    have second := (live.handles pointer other).mpr ⟨other, rfl, at_other⟩
    rw [first] at second
    exact_mod_cast (Option.some.inj second).symm
  have atSet :
      ∀ {position other : Nat},
        (cache.iteratorToObject.set index none)[position]? =
            some (some other) ↔
          position ≠ index ∧
            cache.iteratorToObject[position]? = some (some other) := by
    intro position other
    rw [List.getElem?_set]
    by_cases same : index = position
    · subst same
      simp only [if_true, ne_eq, not_true, false_and, iff_false]
      split
      · simp
      · simp
    · simp [same, Ne.symm same]
  refine ⟨?_, ?_, live.ends, live.exist⟩
  · intro position other at_position
    obtain ⟨different, old⟩ := atSet.mp at_position
    obtain ⟨table, isRow, cached⟩ := live.rows position other old
    refine ⟨table, rowsStay other table ?_ isRow, cached⟩
    rintro rfl
    exact different (onlyHandle old)
  · intro other iterator
    simp only [atSet]
    by_cases same : other = pointer
    · subst same
      rw [Function.update_self]
      simp only [reduceCtorEq, false_iff, not_exists]
      rintro position ⟨_, different, old⟩
      exact different (onlyHandle old)
    · rw [Function.update_of_ne same, live.handles]
      constructor
      · rintro ⟨position, rfl, old⟩
        refine ⟨position, rfl, ?_, old⟩
        rintro rfl
        rw [at_index] at old
        exact same (Option.some.inj (Option.some.inj old)).symm
      · rintro ⟨position, rfl, _, old⟩
        exact ⟨position, rfl, old⟩

theorem findTableByEndIterator_eq_ok
    (live : cache.Live tables rowAt) {table : Nat} {iterator : Int}
    (cached : cache.tableCache table = some iterator) :
    iterator < -1 ∧
      cache.findTableByEndIterator iterator = .ok (some table) := by
  obtain ⟨index, rfl, at_index⟩ := (live.ends table iterator).mp cached
  have negative : indexToEndIterator index < -1 := by
    unfold indexToEndIterator
    omega
  have back : endIteratorToIndex (indexToEndIterator index) = index := by
    unfold endIteratorToIndex indexToEndIterator
    omega
  refine ⟨negative, ?_⟩
  unfold findTableByEndIterator
  refine bind_eq_ok.mpr ⟨(), fcAssert_eq_ok.mpr negative, ?_⟩
  rw [back, at_index]

end IteratorCache

section Answers

variable {ρ κ : Type} [TableRow ρ] [LinearOrder κ]

def tableIn (tables : List TableIdObject) (table : Nat) : Prop :=
  ∃ tab ∈ tables, tab.id = table

def rowIn (rows : List ρ) (pointer table : Nat) : Prop :=
  ∃ row ∈ rows, TableRow.id row = pointer ∧ TableRow.tId row = table

variable {tables : List TableIdObject} {rows : List ρ}
variable {cache : IteratorCache}

theorem mem_of_inTable {table : Nat} {found : Option ρ} {row : ρ}
    (isIn : inTable table found = some row) :
    found = some row ∧ TableRow.tId row = table := by
  unfold inTable at isIn
  have selected := Option.filter_eq_some_iff.mp isIn
  exact ⟨selected.1, by simpa using selected.2⟩

theorem answerRow_live (live : cache.Live (tableIn tables) (rowIn rows))
    {row : ρ} (member : row ∈ rows)
    (cached : (cache.tableCache (TableRow.tId row)).isSome) :
    (answerRow cache row).cache.Live (tableIn tables) (rowIn rows) :=
  IteratorCache.add_live live ⟨row, member, rfl, rfl⟩ cached

theorem lookup_live (live : cache.Live (tableIn tables) (rowIn rows))
    {select : Nat → Option ρ}
    (selects :
      ∀ {table row}, select table = some row →
        row ∈ rows ∧ TableRow.tId row = table)
    (code scope table : Name) :
    (lookup tables cache code scope table select).cache.Live
      (tableIn tables) (rowIn rows) := by
  unfold lookup
  cases found : findTable tables code scope table with
  | none => exact live
  | some tab =>
      have isThere : tableIn tables tab.id :=
        ⟨tab, mem_of_findTable found, rfl⟩
      have cachedLive := IteratorCache.cacheTable_live live isThere
      dsimp only
      cases selected : select tab.id with
      | none => exact cachedLive
      | some row =>
          obtain ⟨member, inTab⟩ := selects selected
          apply answerRow_live cachedLive member
          rw [inTab, IteratorCache.cacheTable_cached]
          rfl

theorem endOf_live (live : cache.Live (tableIn tables) (rowIn rows))
    (code scope table : Name) :
    (endOf tables cache code scope table).2.Live (tableIn tables)
      (rowIn rows) := by
  unfold endOf
  cases found : findTable tables code scope table with
  | none => exact live
  | some tab =>
      exact
        IteratorCache.cacheTable_live live
          ⟨tab, mem_of_findTable found, rfl⟩

theorem tableCache_of_get (formed : (rows.map TableRow.id).Nodup)
    (live : cache.Live (tableIn tables) (rowIn rows)) {iterator : Int}
    {pointer : Nat} {obj : ρ} (gets : cache.get iterator = .ok pointer)
    (reads : deref rows pointer = .ok obj) :
    obj ∈ rows ∧ (cache.tableCache (TableRow.tId obj)).isSome := by
  have found := orThrow_eq_ok.mp reads
  obtain ⟨table, ⟨row, member, isPointer, inTable⟩, cached⟩ :=
    live.row gets
  have same : rows.find? (isRow pointer) = some row := by
    rw [← isPointer]
    exact find_key_of_nodup formed member
  rw [found] at same
  cases same
  rw [inTable]
  exact ⟨member, cached⟩

theorem next_live {key : ρ → κ} (formed : (rows.map TableRow.id).Nodup)
    (live : cache.Live (tableIn tables) (rowIn rows)) {iterator : Int}
    {answer : Answer ρ} (answers : next key rows cache iterator = .ok answer) :
    answer.cache.Live (tableIn tables) (rowIn rows) := by
  unfold next at answers
  split at answers
  · cases answers
    exact live
  · obtain ⟨pointer, gets, answers⟩ := bind_eq_ok.mp answers
    obtain ⟨obj, reads, answers⟩ := bind_eq_ok.mp answers
    obtain ⟨_, cached⟩ := tableCache_of_get formed live gets reads
    dsimp only at answers
    split at answers
    · obtain ⟨tableEnd, _, answers⟩ := bind_eq_ok.mp answers
      cases answers
      exact live
    next row following =>
      cases answers
      obtain ⟨first, inTab⟩ := mem_of_inTable following
      apply answerRow_live live (mem_of_firstWhere first).1
      rw [inTab]
      exact cached

theorem answerBack_live
    (live : cache.Live (tableIn tables) (rowIn rows)) {found : Option ρ}
    (finds :
      ∀ row, found = some row →
        row ∈ rows ∧ (cache.tableCache (TableRow.tId row)).isSome) :
    (answerBack cache found).cache.Live (tableIn tables) (rowIn rows) := by
  cases found with
  | none => exact live
  | some row =>
      obtain ⟨member, cached⟩ := finds row rfl
      exact answerRow_live live member cached

theorem previous_live {key : ρ → κ} (formed : (rows.map TableRow.id).Nodup)
    (live : cache.Live (tableIn tables) (rowIn rows)) {iterator : Int}
    {answer : Answer ρ}
    (answers : previous key tables rows cache iterator = .ok answer) :
    answer.cache.Live (tableIn tables) (rowIn rows) := by
  unfold previous at answers
  split at answers
  · obtain ⟨tab, finds, answers⟩ := bind_eq_ok.mp answers
    obtain ⟨pointer, isPointer, answers⟩ := bind_eq_ok.mp answers
    obtain ⟨table, reads, answers⟩ := bind_eq_ok.mp answers
    cases answers
    obtain ⟨_, _, finds⟩ := bind_eq_ok.mp finds
    have isThere := Except.ok.inj finds
    rw [orThrow_eq_ok.mp isPointer] at isThere
    have cached :=
      (live.ends pointer _).mpr ⟨_, rfl, isThere⟩
    apply answerBack_live live
    intro row last
    obtain ⟨isLast, inTab⟩ := mem_of_inTable last
    refine ⟨(mem_of_lastWhere isLast).1, ?_⟩
    rw [inTab, ApplyContext.id_of_find_isTable (orThrow_eq_ok.mp reads),
      cached]
    rfl
  · obtain ⟨pointer, gets, answers⟩ := bind_eq_ok.mp answers
    obtain ⟨obj, reads, answers⟩ := bind_eq_ok.mp answers
    cases answers
    obtain ⟨_, cached⟩ := tableCache_of_get formed live gets reads
    apply answerBack_live live
    intro row preceding
    obtain ⟨isLast, inTab⟩ := mem_of_inTable preceding
    refine ⟨(mem_of_lastWhere isLast).1, ?_⟩
    rw [inTab]
    exact cached

theorem rowIn_concat
    {pointer table : Nat} (isRow : rowIn rows pointer table) (fresh : ρ) :
    rowIn (rows ++ [fresh]) pointer table := by
  obtain ⟨row, member, same⟩ := isRow
  exact ⟨row, List.mem_append_left _ member, same⟩

theorem rowIn_replace {pointer table : Nat} (isRow : rowIn rows pointer table)
    {old fresh : ρ}
    (found : rows.find? (Contract.isRow (TableRow.id old)) = some old)
    (unique : (rows.map TableRow.id).Nodup)
    (sameId : TableRow.id fresh = TableRow.id old)
    (sameTable : TableRow.tId fresh = TableRow.tId old) :
    rowIn (replaceFirst (Contract.isRow (TableRow.id old)) fresh rows)
      pointer table := by
  obtain ⟨row, member, isPointer, inTable⟩ := isRow
  rw [← sameId] at found ⊢
  by_cases here : TableRow.id row = TableRow.id fresh
  · have isOld : row = old := by
      have isFound := find_key_of_nodup unique member
      rw [here] at isFound
      exact Option.some.inj (isFound.symm.trans found)
    refine ⟨fresh, ?_, here ▸ isPointer, ?_⟩
    · exact
        List.mem_of_find?_eq_some
          (find_replaceFirst found (by simp [Contract.isRow]))
    · rw [sameTable, ← isOld]
      exact inTable
  · exact
      ⟨row, mem_replaceFirst_of_key_ne member here, isPointer, inTable⟩

theorem rowIn_erase {pointer table gone : Nat}
    (isRow : rowIn rows pointer table) (other : pointer ≠ gone) :
    rowIn (rows.eraseP (Contract.isRow gone)) pointer table := by
  obtain ⟨row, member, isPointer, inTable⟩ := isRow
  refine ⟨row, mem_eraseP_of_key_ne member ?_, isPointer, inTable⟩
  rw [isPointer]
  exact other

end Answers

namespace ApplyContext

variable {forks : HardForks} {context after : ApplyContext}

/-- Every pointer of both caches points to something. -/
structure CachesLive (context : ApplyContext) : Prop where
  keyval :
    context.keyvalCache.Live (tableIn context.store.tables)
      (rowIn context.store.keyValues)
  itr :
    context.itrCache.Live (tableIn context.store.tables)
      (rowIn context.store.index64s)

/-- A call that does not take the last row of a table. -/
def LeavesTables (forks : HardForks) (context : ApplyContext)
    (call : Call) : Prop :=
  ∀ tableObj, ¬TakesLast forks context call tableObj

theorem effect_tableIn {call : Call} (formed : context.store.Formed)
    (leaves : LeavesTables forks context call)
    (effect : Effect forks context call after) {table : Nat}
    (isTable : tableIn context.store.tables table) :
    tableIn after.store.tables table := by
  obtain ⟨tab, member, rfl⟩ := isTable
  rcases effect_tables formed effect member with
    kept | ⟨tableObj, takes, _⟩
  · exact kept
  · exact absurd takes (leaves tableObj)

theorem effect_keyValueIn {call : Call} (formed : context.store.Formed)
    (effect : Effect forks context call after) {pointer table : Nat}
    (isRow : rowIn context.store.keyValues pointer table)
    (notTaken :
      ∀ iterator obj tableObj, call = .dbRemoveI64 iterator →
        OwnRow context context.keyvalCache context.store.keyValues iterator
          obj tableObj → pointer ≠ obj.id) :
    rowIn after.store.keyValues pointer table := by
  cases effect with
  | looked _ => exact isRow
  | @storedKeyValue _ _ _ _ _ _ created _ creates =>
      rw [(storedKeyValue_rows formed creates).1]
      exact rowIn_concat isRow created.1
  | updatedKeyValue _ own =>
      simp only [replaceKeyValue, payUpdate_store]
      apply rowIn_replace isRow own.row formed.keyValues.ids
      · rfl
      · rfl
  | removedKeyValue own =>
      simp only [ApplyContext.removedKeyValue, eraseKeyValue,
        discountKeyValue_keyValues, updateDbUsage_store]
      exact rowIn_erase isRow (notTaken _ _ _ rfl own)
  | storedIndex64 _ creates =>
      rw [(storedIndex64_rows formed creates).1]
      exact isRow
  | updatedIndex64 _ _ => exact isRow
  | removedIndex64 _ =>
      rw [removedIndex64_rows.1]
      exact isRow

theorem effect_index64In {call : Call} (formed : context.store.Formed)
    (effect : Effect forks context call after) {pointer table : Nat}
    (isRow : rowIn context.store.index64s pointer table)
    (notTaken :
      ∀ iterator obj tableObj, call = .idx64Remove iterator →
        OwnRow context context.itrCache context.store.index64s iterator
          obj tableObj → pointer ≠ obj.id) :
    rowIn after.store.index64s pointer table := by
  cases effect with
  | looked _ => exact isRow
  | storedKeyValue _ creates =>
      rw [(storedKeyValue_rows formed creates).2]
      exact isRow
  | updatedKeyValue _ _ =>
      simpa [replaceKeyValue] using isRow
  | removedKeyValue _ =>
      simpa [ApplyContext.removedKeyValue, eraseKeyValue] using isRow
  | @storedIndex64 _ _ _ _ _ _ created _ creates =>
      rw [(storedIndex64_rows formed creates).2]
      exact rowIn_concat isRow created.1
  | updatedIndex64 _ own =>
      apply rowIn_replace isRow own.row formed.index64s.ids
      · rfl
      · rfl
  | removedIndex64 own =>
      rw [removedIndex64_rows.2]
      exact rowIn_erase isRow (notTaken _ _ _ rfl own)

section EffectLive

variable {call : Call} (formed : context.store.Formed)
  (live : CachesLive context) (leaves : LeavesTables forks context call)
  (effect : Effect forks context call after)

include formed live leaves effect

/-- The key-value cache as it is stays live over the tables and rows a call
leaves, unless it removes a key-value row. -/
theorem effect_keyvalLive
    (removesNone : ∀ iterator, call ≠ .dbRemoveI64 iterator) :
    after.keyvalCache.Live (tableIn after.store.tables)
      (rowIn after.store.keyValues) := by
  rw [(effect_steady effect).keyval]
  refine live.keyval.mono ?_ ?_
  · exact fun _ _ isTable => effect_tableIn formed leaves effect isTable
  · intro pointer table _ isRow
    apply effect_keyValueIn formed effect isRow
    intro iterator _ _ isRemoval
    exact absurd isRemoval (removesNone iterator)

theorem effect_itrLive
    (removesNone : ∀ iterator, call ≠ .idx64Remove iterator) :
    after.itrCache.Live (tableIn after.store.tables)
      (rowIn after.store.index64s) := by
  rw [(effect_steady effect).itr]
  refine live.itr.mono ?_ ?_
  · exact fun _ _ isTable => effect_tableIn formed leaves effect isTable
  · intro pointer table _ isRow
    apply effect_index64In formed effect isRow
    intro iterator _ _ isRemoval
    exact absurd isRemoval (removesNone iterator)

theorem effect_live
    (removesNoKeyValue : ∀ iterator, call ≠ .dbRemoveI64 iterator)
    (removesNoIndex64 : ∀ iterator, call ≠ .idx64Remove iterator) :
    CachesLive after :=
  ⟨effect_keyvalLive formed live leaves effect removesNoKeyValue,
    effect_itrLive formed live leaves effect removesNoIndex64⟩

end EffectLive

/-- The cache whose row is taken stays live without the row's handle. -/
theorem OwnRow.taken_live {ρ : Type} [TableRow ρ] {cache left : IteratorCache}
    {rows rowsLeft : List ρ} {iterator : Int} {obj : ρ}
    {tableObj : TableIdObject}
    (own : OwnRow context cache rows iterator obj tableObj)
    (forgets : cache.remove iterator = .ok left)
    (live : cache.Live (tableIn context.store.tables) (rowIn rows))
    (tablesStay :
      ∀ table, tableIn context.store.tables table →
        tableIn after.store.tables table)
    (rowsStay :
      ∀ pointer table, rowIn rows pointer table →
        (∀ other otherTable,
          OwnRow context cache rows iterator other otherTable →
            pointer ≠ TableRow.id other) →
          rowIn rowsLeft pointer table) :
    left.Live (tableIn after.store.tables) (rowIn rowsLeft) := by
  have kept : cache.Live (tableIn after.store.tables) (rowIn rows) :=
    live.mono (fun _ _ isTable => tablesStay _ isTable)
      (fun _ _ _ isRow => isRow)
  refine IteratorCache.remove_live kept own.pointer forgets ?_
  intro pointer table different isRow
  apply rowsStay pointer table isRow
  intro other otherTable ownAgain
  obtain ⟨rfl, _⟩ := own.unique ownAgain
  exact different

theorem remember_live {ρ : Type} [TableRow ρ] {tables : List TableIdObject}
    {rows : List ρ} {cache : IteratorCache}
    (live : cache.Live (tableIn tables) (rowIn rows)) {row : ρ} {table : Nat}
    (isThere : tableIn tables table) (member : row ∈ rows)
    (inTable : TableRow.tId row = table) :
    ((cache.cacheTable table).2.add (TableRow.id row)).2.Live
      (tableIn tables) (rowIn rows) := by
  apply
    IteratorCache.add_live (IteratorCache.cacheTable_live live isThere)
      ⟨row, member, rfl, inTable⟩
  rw [IteratorCache.cacheTable_cached]
  rfl

theorem dbStoreI64_live (formed : context.store.Formed)
    (live : CachesLive context) {scope table asked : Name} {id : UInt64}
    {buffer : List UInt8} {result : Int × ApplyContext}
    (returns :
      context.dbStoreI64 forks scope table asked id buffer = .ok result) :
    CachesLive result.2 := by
  obtain ⟨payer, created, allowed, creates, rfl⟩ := dbStoreI64_eq_ok returns
  have leaves :
      LeavesTables forks context (.dbStoreI64 scope table asked id buffer) :=
    fun _ takes => takes
  have stored :=
    effect_live formed live leaves (.storedKeyValue allowed creates)
      (fun _ same => by cases same) (fun _ same => by cases same)
  have inTable :=
    congrArg KeyValueObject.tId (createKeyValue_eq_ok creates).2.1
  refine ⟨?_, stored.itr⟩
  apply remember_live stored.keyval (storedKeyValue_table formed creates)
  · rw [(storedKeyValue_rows formed creates).1]
    exact List.mem_append_right _ List.mem_cons_self
  · exact inTable

theorem idx64Store_live (formed : context.store.Formed)
    (live : CachesLive context) {scope table asked : Name}
    {id secondary : UInt64} {result : Int × ApplyContext}
    (returns :
      context.idx64Store forks scope table asked id secondary =
        .ok result) : CachesLive result.2 := by
  obtain ⟨payer, created, allowed, creates, rfl⟩ := idx64Store_eq_ok returns
  have leaves :
      LeavesTables forks context
        (.idx64Store scope table asked id secondary) :=
    fun _ takes => takes
  have stored :=
    effect_live formed live leaves (.storedIndex64 allowed creates)
      (fun _ same => by cases same) (fun _ same => by cases same)
  have inTable :=
    congrArg Index64Object.tId (createIndex64_eq_ok creates).2.1
  refine ⟨stored.keyval, ?_⟩
  apply remember_live stored.itr (storedIndex64_table formed creates)
  · rw [(storedIndex64_rows formed creates).2]
    exact List.mem_append_right _ List.mem_cons_self
  · exact inTable

theorem dbRemoveI64_live (formed : context.store.Formed)
    (live : CachesLive context) {iterator : Int}
    (leaves : LeavesTables forks context (.dbRemoveI64 iterator))
    (returns : context.dbRemoveI64 forks iterator = .ok after) :
    CachesLive after := by
  obtain ⟨found, cache, owns, forgets, rfl⟩ := dbRemoveI64_eq_ok returns
  have own := ownRow_eq_ok owns
  have effect : Effect forks context (.dbRemoveI64 iterator)
      (context.removedKeyValue forks found.1 found.2) :=
    .removedKeyValue own
  have others := effect_itrLive formed live leaves effect (by simp)
  refine ⟨?_, others⟩
  apply own.taken_live forgets live.keyval
  · exact fun _ isTable => effect_tableIn formed leaves effect isTable
  · intro pointer table isRow notTaken
    apply effect_keyValueIn formed effect isRow
    intro again obj tableObj same
    cases same
    exact notTaken obj tableObj

theorem idx64Remove_live (formed : context.store.Formed)
    (live : CachesLive context) {iterator : Int}
    (leaves : LeavesTables forks context (.idx64Remove iterator))
    (returns : context.idx64Remove forks iterator = .ok after) :
    CachesLive after := by
  obtain ⟨found, cache, owns, forgets, rfl⟩ := idx64Remove_eq_ok returns
  have own := ownRow_eq_ok owns
  have effect : Effect forks context (.idx64Remove iterator)
      (context.removedIndex64 forks found.1 found.2) :=
    .removedIndex64 own
  have others := effect_keyvalLive formed live leaves effect (by simp)
  refine ⟨others, ?_⟩
  apply own.taken_live forgets live.itr
  · exact fun _ isTable => effect_tableIn formed leaves effect isTable
  · intro pointer table isRow notTaken
    apply effect_index64In formed effect isRow
    intro again obj tableObj same
    cases same
    exact notTaken obj tableObj

theorem withKeyval_live
    (live : CachesLive context) {answer : Answer KeyValueObject}
    (answerLive :
      answer.cache.Live (tableIn context.store.tables)
        (rowIn context.store.keyValues)) :
    CachesLive (context.withKeyval answer) :=
  ⟨answerLive, live.itr⟩

theorem withItr_live (live : CachesLive context) {answer : Answer Index64Object}
    (answerLive :
      answer.cache.Live (tableIn context.store.tables)
        (rowIn context.store.index64s)) : CachesLive (context.withItr answer) :=
  ⟨live.keyval, answerLive⟩

/-- A row at a bound of an ordered index, when it lies in the table. -/
theorem mem_of_inTable_firstWhere {ρ κ : Type} [TableRow ρ] [LinearOrder κ]
    {key : ρ → κ} {meets : ρ → Bool} {rows : List ρ} {table : Nat} {row : ρ}
    (selected : inTable table (firstWhere key meets rows) = some row) :
    row ∈ rows ∧ TableRow.tId row = table := by
  obtain ⟨first, inTab⟩ := mem_of_inTable selected
  exact ⟨(mem_of_firstWhere first).1, inTab⟩

theorem mem_of_keyValueAt {id : UInt64} {table : Nat} {row : KeyValueObject}
    (found : context.keyValueAt id table = some row) :
    row ∈ context.store.keyValues ∧ TableRow.tId row = table := by
  obtain ⟨member, isKey⟩ := mem_of_firstWhere found
  have parts := Prod.mk.inj (toLex.injective (of_decide_eq_true isKey))
  exact ⟨member, parts.1⟩

theorem mem_of_secondaryAt
    {secondary : UInt64} {table : Nat} {row : Index64Object}
    (found : context.secondaryAt secondary table = some row) :
    row ∈ context.store.index64s ∧ TableRow.tId row = table := by
  obtain ⟨member, isKey⟩ := mem_of_firstWhere found
  have parts := Prod.mk.inj (toLex.injective (of_decide_eq_true isKey))
  exact ⟨member, parts.1⟩

theorem mem_of_primaryAt {primary : UInt64} {table : Nat} {row : Index64Object}
    (found : context.primaryAt primary table = some row) :
    row ∈ context.store.index64s ∧ TableRow.tId row = table := by
  obtain ⟨member, isKey⟩ := mem_of_firstWhere found
  have parts := Prod.mk.inj (toLex.injective (of_decide_eq_true isKey))
  exact ⟨member, parts.1⟩

/-- Every call that takes no last row of a table keeps both caches live. -/
theorem perform_live {call : Call} (formed : context.store.Formed)
    (live : CachesLive context) (leaves : LeavesTables forks context call)
    (returns : context.perform forks call = .ok after) : CachesLive after := by
  have keyIds := formed.keyValues.ids
  have indexIds := formed.index64s.ids
  cases call with
  | dbStoreI64 scope table payer id buffer =>
      obtain ⟨result, stores, rfl⟩ := map_eq_ok returns
      exact dbStoreI64_live formed live stores
  | dbUpdateI64 iterator payer buffer =>
      exact
        effect_live formed live leaves (dbUpdateI64_effect returns)
          (fun _ same => by cases same) (fun _ same => by cases same)
  | dbRemoveI64 iterator => exact dbRemoveI64_live formed live leaves returns
  | idx64Store scope table payer id secondary =>
      obtain ⟨result, stores, rfl⟩ := map_eq_ok returns
      exact idx64Store_live formed live stores
  | idx64Update iterator payer secondary =>
      exact
        effect_live formed live leaves (idx64Update_effect returns)
          (fun _ same => by cases same) (fun _ same => by cases same)
  | idx64Remove iterator => exact idx64Remove_live formed live leaves returns
  | dbGetI64 _ _ | idx64Get _ =>
      obtain ⟨value, _, rfl⟩ := map_eq_ok returns
      exact live
  | dbNextI64 _ =>
      obtain ⟨answer, answers, rfl⟩ := map_eq_ok returns
      exact withKeyval_live live (next_live keyIds live.keyval answers)
  | dbPreviousI64 _ =>
      obtain ⟨answer, answers, rfl⟩ := map_eq_ok returns
      exact withKeyval_live live (previous_live keyIds live.keyval answers)
  | idx64NextSecondary _ | idx64NextPrimary _ =>
      obtain ⟨answer, answers, rfl⟩ := map_eq_ok returns
      exact withItr_live live (next_live indexIds live.itr answers)
  | idx64PreviousSecondary _ | idx64PreviousPrimary _ =>
      obtain ⟨answer, answers, rfl⟩ := map_eq_ok returns
      exact withItr_live live (previous_live indexIds live.itr answers)
  | dbFindI64 code scope table _ =>
      cases returns
      exact
        withKeyval_live live
          (lookup_live live.keyval mem_of_keyValueAt code scope table)
  | dbLowerboundI64 code scope table _ | dbUpperboundI64 code scope table _ =>
      cases returns
      exact
        withKeyval_live live
          (lookup_live live.keyval mem_of_inTable_firstWhere code scope
            table)
  | dbEndI64 code scope table =>
      cases returns
      exact ⟨endOf_live live.keyval code scope table, live.itr⟩
  | idx64FindSecondary code scope table _ =>
      cases returns
      exact
        withItr_live live
          (lookup_live live.itr mem_of_secondaryAt code scope table)
  | idx64FindPrimary code scope table _ =>
      cases returns
      exact
        withItr_live live
          (lookup_live live.itr mem_of_primaryAt code scope table)
  | idx64LowerboundSecondary code scope table _
  | idx64UpperboundSecondary code scope table _
  | idx64LowerboundPrimary code scope table _
  | idx64UpperboundPrimary code scope table _ =>
      cases returns
      exact
        withItr_live live
          (lookup_live live.itr mem_of_inTable_firstWhere code scope table)
  | idx64EndSecondary code scope table =>
      cases returns
      exact ⟨live.keyval, endOf_live live.itr code scope table⟩

end ApplyContext

section Forgotten

def StaysForgotten (cache later : IteratorCache) : Prop :=
  ∀ index : Nat,
    cache.iteratorToObject[index]? = some none →
      later.iteratorToObject[index]? = some none

theorem StaysForgotten.refl (cache : IteratorCache) :
    StaysForgotten cache cache :=
  fun _ forgotten => forgotten

theorem StaysForgotten.trans {cache middle later : IteratorCache}
    (first : StaysForgotten cache middle)
    (second : StaysForgotten middle later) : StaysForgotten cache later :=
  fun index forgotten => second index (first index forgotten)

theorem cacheTable_forgotten (cache : IteratorCache) (table : Nat) :
    StaysForgotten cache (cache.cacheTable table).2 := by
  unfold IteratorCache.cacheTable
  split
  · exact .refl cache
  · exact .refl cache

theorem add_forgotten (cache : IteratorCache) (pointer : Nat) :
    StaysForgotten cache (cache.add pointer).2 := by
  unfold IteratorCache.add
  split
  · exact .refl cache
  · intro index forgotten
    exact IteratorCache.getElem?_concat_eq_some.mpr (.inl forgotten)

theorem remove_forgotten {cache remaining : IteratorCache} {iterator : Int}
    (removes : cache.remove iterator = .ok remaining) :
    StaysForgotten cache remaining ∧
      remaining.iteratorToObject[iterator.toNat]? = some none ∧
        0 ≤ iterator := by
  unfold IteratorCache.remove at removes
  obtain ⟨_, _, removes⟩ := bind_eq_ok.mp removes
  obtain ⟨_, nonneg, removes⟩ := bind_eq_ok.mp removes
  obtain ⟨_, inRange, removes⟩ := bind_eq_ok.mp removes
  have isNonneg := fcAssert_eq_ok.mp nonneg
  have isInRange := fcAssert_eq_ok.mp inRange
  have short : iterator.toNat < cache.iteratorToObject.length := by omega
  split at removes
  next forgotten =>
      cases removes
      refine ⟨.refl cache, ?_, isNonneg⟩
      rw [List.getElem?_eq_getElem short] at forgotten ⊢
      rw [Option.join_some] at forgotten
      rw [forgotten]
  next pointer _ =>
      cases removes
      refine ⟨?_, ?_, isNonneg⟩
      · intro index forgotten
        rw [List.getElem?_set]
        by_cases same : iterator.toNat = index
        · simp [same ▸ short, same]
        · simpa [same] using forgotten
      · simp [short]

variable {ρ κ : Type} [TableRow ρ] [LinearOrder κ]

theorem answerRow_forgotten (cache : IteratorCache) (row : ρ) :
    StaysForgotten cache (answerRow cache row).cache :=
  add_forgotten cache (TableRow.id row)

theorem lookup_forgotten (tables : List TableIdObject) (cache : IteratorCache)
    (code scope table : Name) (select : Nat → Option ρ) :
    StaysForgotten cache
      (lookup tables cache code scope table select).cache := by
  unfold lookup
  split
  · exact .refl cache
  next tab _ =>
    have cached := cacheTable_forgotten cache tab.id
    dsimp only
    split
    · exact cached
    · exact cached.trans (answerRow_forgotten _ _)

theorem endOf_forgotten (tables : List TableIdObject) (cache : IteratorCache)
    (code scope table : Name) :
    StaysForgotten cache (endOf tables cache code scope table).2 := by
  unfold endOf
  split
  · exact .refl cache
  · exact cacheTable_forgotten cache _

theorem next_forgotten {key : ρ → κ} {rows : List ρ} {cache : IteratorCache}
    {iterator : Int} {answer : Answer ρ}
    (answers : next key rows cache iterator = .ok answer) :
    StaysForgotten cache answer.cache := by
  unfold next at answers
  split at answers
  · cases answers
    exact .refl cache
  · obtain ⟨_, _, answers⟩ := bind_eq_ok.mp answers
    obtain ⟨_, _, answers⟩ := bind_eq_ok.mp answers
    dsimp only at answers
    split at answers
    · obtain ⟨_, _, answers⟩ := bind_eq_ok.mp answers
      cases answers
      exact .refl cache
    · cases answers
      exact answerRow_forgotten cache _

theorem answerBack_forgotten (cache : IteratorCache) (found : Option ρ) :
    StaysForgotten cache (answerBack cache found).cache := by
  cases found with
  | none => exact .refl cache
  | some row => exact answerRow_forgotten cache row

theorem previous_forgotten {key : ρ → κ} {tables : List TableIdObject}
    {rows : List ρ} {cache : IteratorCache} {iterator : Int} {answer : Answer ρ}
    (answers : previous key tables rows cache iterator = .ok answer) :
    StaysForgotten cache answer.cache := by
  unfold previous at answers
  split at answers
  · obtain ⟨_, _, answers⟩ := bind_eq_ok.mp answers
    obtain ⟨_, _, answers⟩ := bind_eq_ok.mp answers
    obtain ⟨_, _, answers⟩ := bind_eq_ok.mp answers
    cases answers
    exact answerBack_forgotten cache _
  · obtain ⟨_, _, answers⟩ := bind_eq_ok.mp answers
    obtain ⟨_, _, answers⟩ := bind_eq_ok.mp answers
    cases answers
    exact answerBack_forgotten cache _

end Forgotten

namespace ApplyContext

variable {forks : HardForks} {context after : ApplyContext}

structure KeepsForgotten (context after : ApplyContext) : Prop where
  keyval : StaysForgotten context.keyvalCache after.keyvalCache
  itr : StaysForgotten context.itrCache after.itrCache

theorem keepsForgotten_of_caches (same : SameCaches context after) :
    KeepsForgotten context after := by
  constructor
  · rw [same.keyval]
    exact .refl _
  · rw [same.itr]
    exact .refl _

theorem withKeyval_forgotten {answer : Answer KeyValueObject}
    (forgotten : StaysForgotten context.keyvalCache answer.cache) :
    KeepsForgotten context (context.withKeyval answer) :=
  ⟨forgotten, .refl _⟩

theorem withItr_forgotten {answer : Answer Index64Object}
    (forgotten : StaysForgotten context.itrCache answer.cache) :
    KeepsForgotten context (context.withItr answer) :=
  ⟨.refl _, forgotten⟩

/-- No call takes up a handle again that was forgotten. -/
theorem perform_forgotten
    {call : Call} (returns : context.perform forks call = .ok after) :
    KeepsForgotten context after := by
  cases call with
  | dbStoreI64 scope table payer id buffer =>
      obtain ⟨result, stores, rfl⟩ := map_eq_ok returns
      obtain ⟨_, created, allowed, creates, rfl⟩ := dbStoreI64_eq_ok stores
      have caches :=
        (effect_steady (.storedKeyValue allowed creates)).toSameCaches
      refine ⟨?_, (keepsForgotten_of_caches caches).itr⟩
      rw [← caches.keyval]
      exact
        (cacheTable_forgotten _ _).trans (add_forgotten _ created.1.id)
  | dbUpdateI64 iterator payer buffer =>
      exact
        keepsForgotten_of_caches
          (effect_steady (dbUpdateI64_effect returns)).toSameCaches
  | dbRemoveI64 iterator =>
      obtain ⟨found, cache, owns, forgets, rfl⟩ := dbRemoveI64_eq_ok returns
      have effect : Effect forks context (.dbRemoveI64 iterator) _ :=
        .removedKeyValue (ownRow_eq_ok owns)
      have caches := (effect_steady effect).toSameCaches
      exact
        ⟨(remove_forgotten forgets).1,
          (keepsForgotten_of_caches caches).itr⟩
  | idx64Store scope table payer id secondary =>
      obtain ⟨result, stores, rfl⟩ := map_eq_ok returns
      obtain ⟨_, created, allowed, creates, rfl⟩ := idx64Store_eq_ok stores
      have caches :=
        (effect_steady (.storedIndex64 allowed creates)).toSameCaches
      refine ⟨(keepsForgotten_of_caches caches).keyval, ?_⟩
      rw [← caches.itr]
      exact
        (cacheTable_forgotten _ _).trans (add_forgotten _ created.1.id)
  | idx64Update iterator payer secondary =>
      exact
        keepsForgotten_of_caches
          (effect_steady (idx64Update_effect returns)).toSameCaches
  | idx64Remove iterator =>
      obtain ⟨found, cache, owns, forgets, rfl⟩ := idx64Remove_eq_ok returns
      have effect : Effect forks context (.idx64Remove iterator) _ :=
        .removedIndex64 (ownRow_eq_ok owns)
      have caches := (effect_steady effect).toSameCaches
      exact
        ⟨(keepsForgotten_of_caches caches).keyval,
          (remove_forgotten forgets).1⟩
  | dbGetI64 _ _ | idx64Get _ =>
      obtain ⟨value, _, rfl⟩ := map_eq_ok returns
      exact ⟨.refl _, .refl _⟩
  | dbNextI64 _ =>
      obtain ⟨answer, answers, rfl⟩ := map_eq_ok returns
      exact withKeyval_forgotten (next_forgotten answers)
  | dbPreviousI64 _ =>
      obtain ⟨answer, answers, rfl⟩ := map_eq_ok returns
      exact withKeyval_forgotten (previous_forgotten answers)
  | idx64NextSecondary _ | idx64NextPrimary _ =>
      obtain ⟨answer, answers, rfl⟩ := map_eq_ok returns
      exact withItr_forgotten (next_forgotten answers)
  | idx64PreviousSecondary _ | idx64PreviousPrimary _ =>
      obtain ⟨answer, answers, rfl⟩ := map_eq_ok returns
      exact withItr_forgotten (previous_forgotten answers)
  | dbFindI64 _ _ _ _ | dbLowerboundI64 _ _ _ _ | dbUpperboundI64 _ _ _ _ =>
      cases returns
      exact withKeyval_forgotten (lookup_forgotten _ _ _ _ _ _)
  | dbEndI64 _ _ _ =>
      cases returns
      exact ⟨endOf_forgotten _ _ _ _ _, .refl _⟩
  | idx64FindSecondary _ _ _ _ | idx64LowerboundSecondary _ _ _ _
  | idx64UpperboundSecondary _ _ _ _ | idx64FindPrimary _ _ _ _
  | idx64LowerboundPrimary _ _ _ _ | idx64UpperboundPrimary _ _ _ _ =>
      cases returns
      exact withItr_forgotten (lookup_forgotten _ _ _ _ _ _)
  | idx64EndSecondary _ _ _ =>
      cases returns
      exact ⟨.refl _, endOf_forgotten _ _ _ _ _⟩

end ApplyContext

end GxbCore.Contract
