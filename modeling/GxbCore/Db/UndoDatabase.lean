import GxbCore.Db.ObjectDatabase

/-!
# The undo database: sessions, undo, merge, commit and pop_commit

A session owns one undo state.  `undo` takes its changes back, `merge` hands
them to the session around it, `commit` leaves the state on the stack for a
later `pop_commit`.  `undo` and `pop_commit` share one restoring loop:

1. every object in `old_values` is modified back to its old contents;
2. every object in `new_ids` is removed;
3. the id counters are set back;
4. every object in `removed` is inserted again.

The containers of an undo state are hash tables, and the C++ standard leaves
the order in which such a table is walked open: `IterationOrder` is any choice
of it, and everything below is about an arbitrary one.
-/

namespace GxbCore.Db

/-- An order in which the hash tables are walked. -/
structure IterationOrder where
  order : {α : Type} → List α → List α
  perm : ∀ {α : Type} (items : List α), (order items).Perm items

def IterationOrder.asListed : IterationOrder where
  order := id
  perm := fun items => List.Perm.refl items

/-- A `session` handle. -/
structure Session where
  applyUndo : Bool
  disableOnExit : Bool
  deriving DecidableEq, Repr

section Calls

variable {V : Type}

/-- `disable` and `enable`. -/
def setDisabled (disabled : Bool) (db : Database V) : Database V :=
  { db with undoDb := { db.undoDb with disabled := disabled } }

def setMaxSize (maxSize : Nat) (db : Database V) : Database V :=
  { db with undoDb := { db.undoDb with maxSize := maxSize } }

/-- The database after `start_undo_session`.  The states that no longer fit are
dropped from the front of the stack, then the session's own state is pushed. -/
def startUndoSession (forceEnable : Bool) (db : Database V) :
    Database V :=
  if db.undoDb.disabled && !forceEnable then
    db
  else
    { db with
      undoDb :=
        { activeSessions := db.undoDb.activeSessions + 1
          disabled := if forceEnable then false else db.undoDb.disabled
          stack :=
            UndoState.empty :: db.undoDb.stack.take db.undoDb.maxSize
          maxSize := db.undoDb.maxSize } }

/-- The handle that `start_undo_session` returns. -/
def startedSession (forceEnable : Bool) (db : Database V) : Session where
  applyUndo := true
  disableOnExit := db.undoDb.disabled && forceEnable

def commit (db : Database V) : Outcome Fault (Database V) :=
  if 0 < db.undoDb.activeSessions then
    .ok
      { db with
        undoDb :=
          { db.undoDb with
            activeSessions := db.undoDb.activeSessions - 1 } }
  else
    .throw .noActiveSession db

variable (schema : Schema V) (walk : IterationOrder)

/-- One round of the loop over `old_values`. -/
def restoreOldValue (item : Σ _ : ObjectId, V) (db : Database V) :
    Outcome Fault (Database V) :=
  modify schema item.1 (fun _ => (item.2, none)) db

/-- One round of the loop over `new_ids`. -/
def removeNewId (item : Σ _ : ObjectId, Unit) (db : Database V) :
    Outcome Fault (Database V) :=
  remove item.1 db

/-- One round of the loop over `old_index_next_ids`. -/
def restoreNextId (item : Σ _ : IndexId, ObjectId) (db : Database V) :
    Outcome Fault (Database V) :=
  .ok { db with objs := db.objs.setNextId item.1 item.2 }

/-- One round of the loop over `removed`. -/
def reinsertRemoved (item : Σ _ : ObjectId, V) (db : Database V) :
    Outcome Fault (Database V) :=
  insert schema item.1 item.2 db

/-- The four loops that `undo` and `pop_commit` share. -/
def restore (state : UndoState V) (db : Database V) :
    Outcome Fault (Database V) :=
  (forEach (restoreOldValue schema)
      (walk.order state.oldValues.entries) db).bind fun db =>
  (forEach removeNewId
      (walk.order state.newIds.entries) db).bind fun db =>
  (forEach restoreNextId
      (walk.order state.oldIndexNextIds.entries) db).bind fun db =>
  forEach (reinsertRemoved schema)
      (walk.order state.removed.entries) db

/-- `_stack.pop_back()` -/
def popBack (db : Database V) : Database V :=
  { db with undoDb := { db.undoDb with stack := db.undoDb.stack.tail } }

/-- `undo`.  An exception of the restoring loops leaves undo disabled.  The
source reads `_stack.back()` unchecked; an empty stack is a fault here. -/
def undo (db : Database V) : Outcome Fault (Database V) :=
  if db.undoDb.disabled then
    .throw .undoDisabled db
  else if db.undoDb.activeSessions = 0 then
    .throw .noActiveSession db
  else
    match db.undoDb.stack with
    | [] => .throw .undoStackEmpty db
    | state :: _ =>
        (restore schema walk state (setDisabled true db)).bind fun db =>
          .ok
            { objs := db.objs
              undoDb :=
                { activeSessions := db.undoDb.activeSessions - 1
                  disabled := false
                  stack := db.undoDb.stack.tail
                  maxSize := db.undoDb.maxSize } }

/-- `pop_commit`.  Undo is enabled again whether the loops threw or not. -/
def popCommit (db : Database V) : Outcome Fault (Database V) :=
  if db.undoDb.activeSessions = 0 then
    match db.undoDb.stack with
    | [] => .throw .undoStackEmpty db
    | state :: _ =>
        match restore schema walk state (setDisabled true db) with
        | .ok restored => .ok (setDisabled false (popBack restored))
        | .throw fault left => .throw fault (setDisabled false left)
  else
    .throw .sessionStillActive db

end Calls

section Merge

variable {V : Type}

/-- The round of `*+upd` for one old value of the child. -/
def mergeOldValue (parent : UndoState V) (item : Σ _ : ObjectId, V) :
    UndoState V :=
  if item.1 ∈ parent.newIds then
    -- new+upd -> new
    parent
  else if item.1 ∈ parent.oldValues then
    -- upd(was=X) + upd(was=Y) -> upd(was=X)
    parent
  else
    { parent with oldValues := parent.oldValues.insert item.1 item.2 }

/-- The round of `*+new` for one new id of the child. -/
def mergeNewId (parent : UndoState V) (item : Σ _ : ObjectId, Unit) :
    UndoState V :=
  { parent with newIds := parent.newIds.insert item.1 () }

/-- The round for one id counter of the child. -/
def mergeNextId (parent : UndoState V)
    (item : Σ _ : IndexId, ObjectId) : UndoState V :=
  if item.1 ∈ parent.oldIndexNextIds then
    parent
  else
    { parent with
      oldIndexNextIds := parent.oldIndexNextIds.insert item.1 item.2 }

/-- The round of `*+del` for one removed object of the child. -/
def mergeRemoved (parent : UndoState V) (item : Σ _ : ObjectId, V) :
    UndoState V :=
  if item.1 ∈ parent.newIds then
    -- new + del -> nop
    { parent with newIds := parent.newIds.erase item.1 }
  else
    match parent.oldValues.lookup item.1 with
    | some old =>
        -- upd(was=X) + del(was=Y) -> del(was=X)
        { parent with
          removed := parent.removed.insert item.1 old
          oldValues := parent.oldValues.erase item.1 }
    | none =>
        -- nop + del(was=Y) -> del(was=Y)
        { parent with removed := parent.removed.insert item.1 item.2 }

variable (walk : IterationOrder)

/-- `prev_state` after the four loops of `merge`. -/
def mergeStates (parent child : UndoState V) : UndoState V :=
  let parent :=
    (walk.order child.oldValues.entries).foldl mergeOldValue parent
  let parent :=
    (walk.order child.newIds.entries).foldl mergeNewId parent
  let parent :=
    (walk.order child.oldIndexNextIds.entries).foldl mergeNextId parent
  (walk.order child.removed.entries).foldl mergeRemoved parent

def merge (db : Database V) : Outcome Fault (Database V) :=
  let undoDb := db.undoDb
  if undoDb.activeSessions = 0 then
    .throw .noActiveSession db
  else if undoDb.activeSessions = 1 ∧ undoDb.stack.length = 1 then
    .ok
      { db with
        undoDb := { undoDb with stack := [], activeSessions := 0 } }
  else
    match undoDb.stack with
    | child :: parent :: older =>
        .ok
          { db with
            undoDb :=
              { undoDb with
                stack := mergeStates walk parent child :: older
                activeSessions := undoDb.activeSessions - 1 } }
    | _ => .throw .noParentState db

end Merge

end GxbCore.Db
