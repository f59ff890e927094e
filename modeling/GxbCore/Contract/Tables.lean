import Mathlib.Logic.Function.Basic
import GxbCore.Lib.Fallible

/-!
# The tables of a contract

A contract keeps its data in table objects, key-value rows and rows of a 64-bit
secondary index.  It reaches them through an apply context, which answers with
iterators: positions in a cache of pointers to rows, and negative numbers for
the ends of tables.  A pointer is the id of the object it points to; reading
through it when the object is gone has no defined result.
-/

namespace GxbCore.Contract

/-- `time_point_sec` -/
abbrev Time := UInt32

/-- `account_name`, `scope_name` and `table_name` -/
abbrev Name := UInt64

/-- The hard forks the table code looks at.  The headers let a build set them
apart; the order is the one in which they were introduced. -/
structure HardForks where
  hardfork1016Time : Time
  hardfork1020Time : Time
  hardfork1021Time : Time
  ordered : hardfork1016Time ≤ hardfork1021Time
  deriving DecidableEq, Repr

/-- The times of the main network. -/
def HardForks.mainnet : HardForks :=
  { hardfork1016Time := 1553832000
    hardfork1020Time := 1553832000
    hardfork1021Time := 1553832000
    ordered := by decide }

/-- How a call fails: an assertion with its text, or the use of a pointer to an
object that was removed. -/
inductive Fault where
  | assertion (message : String)
  | dangling
  deriving DecidableEq, Repr

def fcAssert (condition : Prop) [Decidable condition]
    (message : String) : Except Fault Unit :=
  require condition (.assertion message)

theorem fcAssert_eq_ok {condition : Prop} [Decidable condition]
    {message : String} {done : Unit} :
    fcAssert condition message = .ok done ↔ condition :=
  require_eq_ok

section Objects

structure TableIdObject where
  id : Nat
  code : Name
  scope : Name
  table : Name
  payer : Name
  /-- the number of elements in the table -/
  count : UInt32
  deriving DecidableEq, Repr

structure KeyValueObject where
  id : Nat
  tId : Nat
  primaryKey : UInt64
  payer : Name
  value : List UInt8
  deriving DecidableEq, Repr

structure Index64Object where
  id : Nat
  tId : Nat
  primaryKey : UInt64
  payer : Name
  secondaryKey : UInt64
  deriving DecidableEq, Repr

/-- What the iterator cache and the ordered indices read of a row. -/
class TableRow (ρ : Type) where
  id : ρ → Nat
  tId : ρ → Nat
  primaryKey : ρ → UInt64

instance : TableRow KeyValueObject where
  id := KeyValueObject.id
  tId := KeyValueObject.tId
  primaryKey := KeyValueObject.primaryKey

instance : TableRow Index64Object where
  id := Index64Object.id
  tId := Index64Object.tId
  primaryKey := Index64Object.primaryKey

@[simp]
theorem keyValue_id (row : KeyValueObject) : TableRow.id row = row.id :=
  rfl

@[simp]
theorem keyValue_tId (row : KeyValueObject) : TableRow.tId row = row.tId :=
  rfl

@[simp]
theorem index64_id (row : Index64Object) : TableRow.id row = row.id :=
  rfl

@[simp]
theorem index64_tId (row : Index64Object) : TableRow.tId row = row.tId :=
  rfl

def billableAlignment : Nat :=
  16

def overheadPerRowPerIndexRamBytes : Nat :=
  32

/-- `billable_size_v` of an object whose `billable_size` is `value` -/
def billableSizeV (value : Nat) : Nat :=
  (value + billableAlignment - 1) / billableAlignment * billableAlignment

/-- `billable_size_v<table_id_object>` -/
def tableIdObjectSize : Nat :=
  billableSizeV (44 + overheadPerRowPerIndexRamBytes * 2)

/-- `billable_size_v<key_value_object>` -/
def keyValueObjectSize : Nat :=
  billableSizeV (32 + 8 + 4 + overheadPerRowPerIndexRamBytes * 2)

/-- `billable_size_v<index64_object>` -/
def index64ObjectSize : Nat :=
  billableSizeV (24 + 8 + overheadPerRowPerIndexRamBytes * 3)

/-- The part of the database that contracts write. -/
structure Store where
  tables : List TableIdObject
  keyValues : List KeyValueObject
  index64s : List Index64Object
  nextTableId : Nat
  nextKeyValueId : Nat
  nextIndex64Id : Nat
  headBlockTime : Time
  deriving DecidableEq, Repr

end Objects

section Cache

/-- `iterator_cache`.  The table cache also holds the pointer to the table,
which is the id it is filed under. -/
structure IteratorCache where
  tableCache : Nat → Option Int
  endIteratorToTable : List Nat
  iteratorToObject : List (Option Nat)
  objectToIterator : Nat → Option Int

namespace IteratorCache

/-- The cache of a new apply context. -/
def empty : IteratorCache :=
  { tableCache := fun _ => none
    endIteratorToTable := []
    iteratorToObject := []
    objectToIterator := fun _ => none }

def endIteratorToIndex (endIterator : Int) : Nat :=
  (-endIterator - 2).toNat

def indexToEndIterator (index : Nat) : Int :=
  -(index + 2)

def cacheTable (cache : IteratorCache) (table : Nat) : Int × IteratorCache :=
  match cache.tableCache table with
  | some endIterator => (endIterator, cache)
  | none =>
      let endIterator := indexToEndIterator cache.endIteratorToTable.length
      (endIterator,
        { cache with
          endIteratorToTable := cache.endIteratorToTable ++ [table]
          tableCache :=
            Function.update cache.tableCache table (some endIterator) })

def getTable (cache : IteratorCache) (table : Nat) : Except Fault Nat :=
  match cache.tableCache table with
  | some _ => .ok table
  | none =>
      .error
        (.assertion "an invariant was broken, table should be in cache")

def getEndIteratorByTableId (cache : IteratorCache) (table : Nat) :
    Except Fault Int :=
  orThrow (cache.tableCache table)
    (.assertion "an invariant was broken, table should be in cache")

def findTableByEndIterator (cache : IteratorCache) (endIterator : Int) :
    Except Fault (Option Nat) := do
  fcAssert (endIterator < -1) "not an end iterator"
  .ok cache.endIteratorToTable[endIteratorToIndex endIterator]?

/-- The pointer behind an iterator. -/
def get (cache : IteratorCache) (iterator : Int) : Except Fault Nat := do
  fcAssert (iterator ≠ -1) "invalid iterator"
  fcAssert (0 ≤ iterator) "dereference of end iterator"
  fcAssert (iterator < cache.iteratorToObject.length) "iterator out of range"
  orThrow cache.iteratorToObject[iterator.toNat]?.join
    (.assertion "dereference of deleted object")

/-- Forgets a row; the assertions are those of `get`, which its callers have
passed. -/
def remove (cache : IteratorCache) (iterator : Int) :
    Except Fault IteratorCache := do
  fcAssert (iterator ≠ -1) "invalid iterator"
  fcAssert (0 ≤ iterator) "cannot call remove on end iterators"
  fcAssert (iterator < cache.iteratorToObject.length) "iterator out of range"
  match cache.iteratorToObject[iterator.toNat]?.join with
  | none => .ok cache
  | some pointer =>
      .ok
        { cache with
          iteratorToObject :=
            cache.iteratorToObject.set iterator.toNat none
          objectToIterator :=
            Function.update cache.objectToIterator pointer none }

/-- The iterator of a row, a new one when the row has none yet. -/
def add (cache : IteratorCache) (pointer : Nat) : Int × IteratorCache :=
  match cache.objectToIterator pointer with
  | some iterator => (iterator, cache)
  | none =>
      (cache.iteratorToObject.length,
        { cache with
          iteratorToObject := cache.iteratorToObject ++ [some pointer]
          objectToIterator :=
            Function.update cache.objectToIterator pointer
              (some cache.iteratorToObject.length) })

end IteratorCache

end Cache

end GxbCore.Contract
