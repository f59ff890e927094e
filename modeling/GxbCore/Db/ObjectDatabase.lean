import GxbCore.Lib.Outcome
import Mathlib.Data.List.AList

/-!
# The object database and the recording side of the undo database

`graphene::db` keeps its objects in indexes.  Every index gives out ids from a
counter, `next_id`, and a `generic_index` is a `boost::multi_index` container:
besides the id, some of its keys are unique, and an element whose key is taken
is refused (on insertion) or dropped (on modification).

Every create, modify and remove is recorded in the undo state on the back of
the undo stack before or just after it happens, so that the change can be taken
back.  This module has the objects, the indexes and the three recording
functions; `UndoDatabase` has the calls that use the records.
-/

namespace GxbCore.Db

/-- An index: the space and the type of the objects it holds. -/
structure IndexId where
  space : Nat
  type : Nat
  deriving DecidableEq, Repr

/-- `object_id_type`: the index and the instance number in it. -/
structure ObjectId where
  index : IndexId
  number : Nat
  deriving DecidableEq, Repr

/-- The exceptions of the object database, one for each assertion. -/
inductive Fault where
  | unableToFindObject (id : ObjectId)
  | couldNotInsertObject
  | couldNotCreateObject
  | couldNotModifyObject
  | undoDisabled
  | noActiveSession
  | sessionStillActive
  | undoStackEmpty
  | noParentState
  | callback (code : Nat)
  deriving DecidableEq, Repr

def Fault.text : Fault → String
  | .unableToFindObject _ => "Unable to find Object"
  | .couldNotInsertObject =>
      "Could not insert object, most likely a uniqueness constraint was violated"
  | .couldNotCreateObject =>
      "Could not create object! Most likely a uniqueness constraint is violated."
  | .couldNotModifyObject =>
      "Could not modify object, most likely an index constraint was violated"
  | _ => ""

/-- The unique secondary keys of every index.  An index that is looked up by id
only (`sparse_index`, `simple_index`) has none. -/
structure Schema (V : Type) where
  Key : Type
  keyEq : DecidableEq Key
  uniqueKeys : IndexId → List (V → Key)

/-- Two contents of one index share the value of a unique key. -/
def Schema.sharesKey {V : Type} (schema : Schema V)
    (index : IndexId) (left right : V) : Bool :=
  (schema.uniqueKeys index).any fun key =>
    @decide (key left = key right) (schema.keyEq _ _)

/-- Two objects that one container cannot hold both. -/
def Schema.clashes {V : Type} (schema : Schema V)
    (id : ObjectId) (value : V) (otherId : ObjectId) (other : V) : Bool :=
  decide (id.index = otherId.index) &&
    schema.sharesKey id.index value other

/-- The objects of all indexes and the id counter of each index. -/
structure Objects (V : Type) where
  objects : AList (fun _ : ObjectId => V)
  nextId : IndexId → Nat

namespace Objects

variable {V : Type}

def find (objs : Objects V) (id : ObjectId) : Option V :=
  objs.objects.lookup id

def getNextId (objs : Objects V) (index : IndexId) : ObjectId :=
  ⟨index, objs.nextId index⟩

def setNextId (objs : Objects V) (index : IndexId) (id : ObjectId) :
    Objects V :=
  { objs with
    nextId := fun other =>
      if other = index then id.number else objs.nextId other }

/-- Put `value` under `id`, whatever was there. -/
def put (objs : Objects V) (id : ObjectId) (value : V) : Objects V :=
  { objs with objects := objs.objects.insert id value }

/-- Take the object `id` out of its index. -/
def drop (objs : Objects V) (id : ObjectId) : Objects V :=
  { objs with objects := objs.objects.erase id }

/-- The container has room for `value` under `id`: the id is free and so is
every unique key. -/
def admits (schema : Schema V) (objs : Objects V)
    (id : ObjectId) (value : V) : Bool :=
  objs.objects.entries.all fun entry =>
    decide (entry.1 ≠ id) && !schema.clashes id value entry.1 entry.2

end Objects

/-- `undo_state`: what one session has done to the objects so far. -/
structure UndoState (V : Type) where
  oldValues : AList (fun _ : ObjectId => V)
  oldIndexNextIds : AList (fun _ : IndexId => ObjectId)
  newIds : AList (fun _ : ObjectId => Unit)
  removed : AList (fun _ : ObjectId => V)

/-- A fresh `undo_state`. -/
def UndoState.empty {V : Type} : UndoState V :=
  ⟨∅, ∅, ∅, ∅⟩

/-- `undo_database`.  The stack is listed from `_stack.back()` to
`_stack.front()`. -/
structure UndoDatabase (V : Type) where
  activeSessions : Nat
  disabled : Bool
  stack : List (UndoState V)
  maxSize : Nat

/-- `object_database`: the indexes and `_undo_db`. -/
structure Database (V : Type) where
  objs : Objects V
  undoDb : UndoDatabase V

/-- The callback of `modify`: the contents it leaves in the object, and the
exception it threw, if it did. -/
abbrev Callback (V : Type) :=
  V → V × Option Fault

section Recording

variable {V : Type}

/-- `_stack.back()`, after the `emplace_back` of an empty stack. -/
def UndoDatabase.backOrNew (undoDb : UndoDatabase V) : UndoState V :=
  undoDb.stack.headD UndoState.empty

/-- Replace `_stack.back()`. -/
def UndoDatabase.setBack (undoDb : UndoDatabase V) (state : UndoState V) :
    UndoDatabase V :=
  { undoDb with stack := state :: undoDb.stack.tail }

/-- What `on_create` does to the state on the back of the stack. -/
def UndoState.recordCreate (state : UndoState V) (id : ObjectId) :
    UndoState V :=
  { state with
    oldIndexNextIds :=
      if id.index ∈ state.oldIndexNextIds then
        state.oldIndexNextIds
      else
        state.oldIndexNextIds.insert id.index id
    newIds := state.newIds.insert id () }

/-- What `on_modify` does to the state on the back of the stack. -/
def UndoState.recordModify
    (state : UndoState V) (id : ObjectId) (value : V) : UndoState V :=
  if id ∈ state.newIds then
    state
  else if id ∈ state.oldValues then
    state
  else
    { state with oldValues := state.oldValues.insert id value }

/-- What `on_remove` does to the state on the back of the stack. -/
def UndoState.recordRemove
    (state : UndoState V) (id : ObjectId) (value : V) : UndoState V :=
  if id ∈ state.newIds then
    { state with newIds := state.newIds.erase id }
  else
    match state.oldValues.lookup id with
    | some old =>
        { state with
          removed := state.removed.insert id old
          oldValues := state.oldValues.erase id }
    | none =>
        if id ∈ state.removed then
          state
        else
          { state with removed := state.removed.insert id value }

/-- The three recording functions return at once while undo is disabled. -/
def UndoDatabase.record (undoDb : UndoDatabase V)
    (change : UndoState V → UndoState V) : UndoDatabase V :=
  if undoDb.disabled then
    undoDb
  else
    undoDb.setBack (change undoDb.backOrNew)

/-- `undo_database::on_create` -/
def UndoDatabase.onCreate (undoDb : UndoDatabase V) (id : ObjectId) :
    UndoDatabase V :=
  undoDb.record fun state => state.recordCreate id

/-- `undo_database::on_modify` -/
def UndoDatabase.onModify
    (undoDb : UndoDatabase V) (id : ObjectId) (value : V) :
    UndoDatabase V :=
  undoDb.record fun state => state.recordModify id value

/-- `undo_database::on_remove` -/
def UndoDatabase.onRemove
    (undoDb : UndoDatabase V) (id : ObjectId) (value : V) :
    UndoDatabase V :=
  undoDb.record fun state => state.recordRemove id value

end Recording

section Operations

variable {V : Type} (schema : Schema V)

/-- `primary_index::create` over `generic_index::create`: the constructor left
`value` in the new object. -/
def create (index : IndexId) (value : V) (db : Database V) :
    Outcome Fault (Database V) :=
  let id := db.objs.getNextId index
  if db.objs.admits schema id value then
    .ok
      { objs :=
          (db.objs.put id value).setNextId index ⟨index, id.number + 1⟩
        undoDb := db.undoDb.onCreate id }
  else
    .throw .couldNotCreateObject db

/-- `primary_index::insert` over `generic_index::insert`. -/
def insert (id : ObjectId) (value : V) (db : Database V) :
    Outcome Fault (Database V) :=
  if db.objs.admits schema id value then
    .ok
      { objs := db.objs.put id value
        undoDb := db.undoDb.onCreate id }
  else
    .throw .couldNotInsertObject db

/-- `primary_index::modify` over `generic_index::modify`, of the object that
`get_object` finds.  The container drops an element whose new keys are taken;
an exception of the callback is thrown again after that. -/
def modify (id : ObjectId) (callback : Callback V) (db : Database V) :
    Outcome Fault (Database V) :=
  match db.objs.find id with
  | none => .throw (.unableToFindObject id) db
  | some value =>
      let result := callback value
      let others := db.objs.drop id
      let undoDb := db.undoDb.onModify id value
      if others.admits schema id result.1 then
        let after : Database V := ⟨others.put id result.1, undoDb⟩
        match result.2 with
        | some fault => .throw fault after
        | none => .ok after
      else
        let after : Database V := ⟨others, undoDb⟩
        match result.2 with
        | some fault => .throw fault after
        | none => .throw .couldNotModifyObject after

/-- `primary_index::remove`, of the object that `get_object` finds. -/
def remove (id : ObjectId) (db : Database V) :
    Outcome Fault (Database V) :=
  match db.objs.find id with
  | none => .throw (.unableToFindObject id) db
  | some value =>
      .ok
        { objs := db.objs.drop id
          undoDb := db.undoDb.onRemove id value }

end Operations

end GxbCore.Db
