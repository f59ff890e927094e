import GxbCore.Db.UndoDatabase
import GxbCore.Lib.Memberships

/-!
# The account member index

The accounts are objects of the object database, and `account_member_index` is a
secondary index on them.  `primary_index` calls it when an account is inserted
or removed, before one is modified and after that.  The index takes the members
of an account before the modification down in one place for all accounts, and
follows the account by the differences.

The lambda of a modification may modify other accounts, and it may throw; then
the index hears nothing more of the modification, and the object stays as the
lambda left it until the session is undone.
-/

namespace GxbCore.Members

open GxbCore.Db

/-- `authority`, as far as it has members; the weights are not read. -/
structure Authority (K A : Type) where
  accountAuths : List (ObjectId × UInt16)
  keyAuths : List (K × UInt16)
  addressAuths : List (A × UInt16)
  deriving DecidableEq, Repr

/-- `account_object`: the unique name, the authorities and
`options.memo_key`. -/
structure AccountObject (K A : Type) where
  name : String
  owner : Authority K A
  active : Authority K A
  memoKey : K
  deriving DecidableEq, Repr

/-- What an account can have as a member: the keys of the three maps of
`account_member_index`. -/
inductive Member (K A : Type) where
  | account (id : ObjectId)
  | key (key : K)
  | address (address : A)
  deriving DecidableEq, Repr

section Index

variable {K A : Type} [DecidableEq K] [DecidableEq A]

def getAccountMembers (a : AccountObject K A) : Finset ObjectId :=
  ((a.owner.accountAuths ++ a.active.accountAuths).map Prod.fst).toFinset

def getKeyMembers (a : AccountObject K A) : Finset K :=
  insert a.memoKey
    ((a.owner.keyAuths ++ a.active.keyAuths).map Prod.fst).toFinset

/-- `get_address_members`; `toAddress` is the conversion of a key. -/
def getAddressMembers (toAddress : K → A) (a : AccountObject K A) :
    Finset A :=
  insert (toAddress a.memoKey)
    ((a.owner.addressAuths ++ a.active.addressAuths).map Prod.fst).toFinset

/-- The members of the three kinds. -/
def members (toAddress : K → A) (a : AccountObject K A) :
    Finset (Member K A) :=
  (getAccountMembers a).image .account ∪
    ((getKeyMembers a).image .key ∪
      (getAddressMembers toAddress a).image .address)

/-- `account_index` with its secondary index.  `memberships` has the pairs of
`account_to_account_memberships`, `account_to_key_memberships` and
`account_to_address_memberships`, and `beforeMembers` what
`before_account_members`, `before_key_members` and `before_address_members`
hold. -/
structure AccountIndex (K A : Type) where
  db : Database (AccountObject K A)
  memberships : Memberships (Member K A) ObjectId
  beforeMembers : Finset (Member K A)

variable (toAddress : K → A)

def objectInserted (id : ObjectId) (a : AccountObject K A)
    (state : AccountIndex K A) : AccountIndex K A :=
  { state with
    memberships := state.memberships.insertAll (members toAddress a) id }

def objectRemoved (id : ObjectId) (a : AccountObject K A)
    (state : AccountIndex K A) : AccountIndex K A :=
  { state with
    memberships := state.memberships.eraseAll (members toAddress a) id }

def aboutToModify (before : AccountObject K A) (state : AccountIndex K A) :
    AccountIndex K A :=
  { state with beforeMembers := members toAddress before }

def objectModified (id : ObjectId) (after : AccountObject K A)
    (state : AccountIndex K A) : AccountIndex K A :=
  { state with
    memberships :=
      state.memberships.change state.beforeMembers (members toAddress after)
        id }

end Index

/-- The lambda of a modification: it writes to its object and may throw; or it
writes, modifies another object, and goes on. -/
inductive Lambda (K A : Type) where
  | plain (callback : Callback (AccountObject K A))
  | nested (callback : Callback (AccountObject K A)) (other : ObjectId)
      (inner rest : Lambda K A)

section Primary

variable {K A : Type} [DecidableEq K] [DecidableEq A]

/-- The unique keys of `account_index`: besides the id, the name. -/
def accountSchema : Schema (AccountObject K A) where
  Key := String
  keyEq := inferInstance
  uniqueKeys := fun _ => [AccountObject.name]

def accountSpace : IndexId :=
  ⟨1, 2⟩

variable (toAddress : K → A)

def hooked (call : Outcome Fault (Database (AccountObject K A)))
    (hook : AccountIndex K A → AccountIndex K A)
    (state : AccountIndex K A) : Outcome Fault (AccountIndex K A) :=
  match call with
  | .ok db => .ok (hook { state with db := db })
  | .throw fault db => .throw fault { state with db := db }

/-- `create`; the constructor leaves `value` in the new object. -/
def create (value : AccountObject K A) (state : AccountIndex K A) :
    Outcome Fault (AccountIndex K A) :=
  hooked (Db.create accountSchema accountSpace value state.db)
    (objectInserted toAddress (state.db.objs.getNextId accountSpace) value)
    state

def insert (id : ObjectId) (value : AccountObject K A)
    (state : AccountIndex K A) : Outcome Fault (AccountIndex K A) :=
  hooked (Db.insert accountSchema id value state.db)
    (objectInserted toAddress id value) state

/-- `remove`, of the object that `get_object` finds. -/
def remove (id : ObjectId) (state : AccountIndex K A) :
    Outcome Fault (AccountIndex K A) :=
  match state.db.objs.find id with
  | none => .throw (.unableToFindObject id) state
  | some value =>
      hooked (Db.remove id state.db) (objectRemoved toAddress id value) state

def AccountIndex.put (state : AccountIndex K A) (id : ObjectId)
    (value : AccountObject K A) : AccountIndex K A :=
  { state with
    db := { state.db with objs := state.db.objs.put id value } }

/-- Take an object out of the container, past the hooks. -/
def AccountIndex.drop (state : AccountIndex K A) (id : ObjectId) :
    AccountIndex K A :=
  { state with
    db := { state.db with objs := state.db.objs.drop id } }

/-- The container drops an element whose new keys are taken. -/
def AccountIndex.reposition (state : AccountIndex K A) (id : ObjectId)
    (value : AccountObject K A) : AccountIndex K A :=
  if (state.db.objs.drop id).admits accountSchema id value then state
  else state.drop id

def write (self : ObjectId) (callback : Callback (AccountObject K A))
    (state : AccountIndex K A) : Outcome Fault (AccountIndex K A) :=
  match state.db.objs.find self with
  | none => .throw (.unableToFindObject self) state
  | some value =>
      let result := callback value
      match result.2 with
      | some fault => .throw fault (state.put self result.1)
      | none => .ok (state.put self result.1)

/-- `save_undo` and `about_to_modify`. -/
def opened (id : ObjectId) (value : AccountObject K A)
    (state : AccountIndex K A) : AccountIndex K A :=
  aboutToModify toAddress value
    { state with
      db := { state.db with undoDb := state.db.undoDb.onModify id value } }

/-- The end of `modify`, when the lambda has returned. -/
def closed (id : ObjectId) (state : AccountIndex K A) :
    Outcome Fault (AccountIndex K A) :=
  match state.db.objs.find id with
  | none => .throw (.unableToFindObject id) state
  | some value =>
      if (state.db.objs.drop id).admits accountSchema id value then
        .ok (objectModified toAddress id value state)
      else
        .throw .couldNotModifyObject (state.reposition id value)

/-- The end of `modify`, when the lambda has thrown. -/
def abandoned (id : ObjectId) (state : AccountIndex K A) : AccountIndex K A :=
  match state.db.objs.find id with
  | none => state
  | some value => state.reposition id value

/-- `modify`, of the object that `get_object` finds; `run` is the lambda. -/
def modifyWith
    (run : AccountIndex K A → Outcome Fault (AccountIndex K A))
    (id : ObjectId) (state : AccountIndex K A) :
    Outcome Fault (AccountIndex K A) :=
  match state.db.objs.find id with
  | none => .throw (.unableToFindObject id) state
  | some value =>
      match run (opened toAddress id value state) with
      | .ok left => closed toAddress id left
      | .throw fault left => .throw fault (abandoned id left)

def runLambda (self : ObjectId) :
    Lambda K A → AccountIndex K A → Outcome Fault (AccountIndex K A)
  | .plain callback, state => write self callback state
  | .nested callback other inner rest, state =>
      (write self callback state).bind fun written =>
        (modifyWith toAddress (runLambda other inner) other written).bind
          (runLambda self rest)

def modify (id : ObjectId) (lambda : Lambda K A) :
    AccountIndex K A → Outcome Fault (AccountIndex K A) :=
  modifyWith toAddress (runLambda toAddress id lambda) id

def onDb (call : Database (AccountObject K A) →
      Outcome Fault (Database (AccountObject K A)))
    (state : AccountIndex K A) : Outcome Fault (AccountIndex K A) :=
  hooked (call state.db) (fun after => after) state

/-- One round of the loop over `old_values`. -/
def restoreOldValue (item : Σ _ : ObjectId, AccountObject K A)
    (state : AccountIndex K A) : Outcome Fault (AccountIndex K A) :=
  modify toAddress item.1 (.plain fun _ => (item.2, none)) state

/-- One round of the loop over `new_ids`. -/
def removeNewId (item : Σ _ : ObjectId, Unit) (state : AccountIndex K A) :
    Outcome Fault (AccountIndex K A) :=
  remove toAddress item.1 state

/-- One round of the loop over `removed`. -/
def reinsertRemoved (item : Σ _ : ObjectId, AccountObject K A)
    (state : AccountIndex K A) : Outcome Fault (AccountIndex K A) :=
  insert toAddress item.1 item.2 state

variable (walk : IterationOrder)

/-- The four loops that `undo` and `pop_commit` share. -/
def restore (undoState : UndoState (AccountObject K A))
    (state : AccountIndex K A) : Outcome Fault (AccountIndex K A) :=
  (forEach (restoreOldValue toAddress)
      (walk.order undoState.oldValues.entries) state).bind fun state =>
  (forEach (removeNewId toAddress)
      (walk.order undoState.newIds.entries) state).bind fun state =>
  (forEach (fun item => onDb (restoreNextId item))
      (walk.order undoState.oldIndexNextIds.entries) state).bind fun state =>
  forEach (reinsertRemoved toAddress)
      (walk.order undoState.removed.entries) state

def undo (state : AccountIndex K A) : Outcome Fault (AccountIndex K A) :=
  if state.db.undoDb.disabled then
    .throw .undoDisabled state
  else if state.db.undoDb.activeSessions = 0 then
    .throw .noActiveSession state
  else
    match state.db.undoDb.stack with
    | [] => .throw .undoStackEmpty state
    | back :: _ =>
        (restore toAddress walk back
          { state with db := setDisabled true state.db }).bind fun restored =>
          .ok
            { restored with
              db :=
                { objs := restored.db.objs
                  undoDb :=
                    { activeSessions := restored.db.undoDb.activeSessions - 1
                      disabled := false
                      stack := restored.db.undoDb.stack.tail
                      maxSize := restored.db.undoDb.maxSize } } }

def popCommit (state : AccountIndex K A) :
    Outcome Fault (AccountIndex K A) :=
  if state.db.undoDb.activeSessions = 0 then
    match state.db.undoDb.stack with
    | [] => .throw .undoStackEmpty state
    | back :: _ =>
        match restore toAddress walk back
          { state with db := setDisabled true state.db } with
        | .ok restored =>
            .ok { restored with
              db := setDisabled false (popBack restored.db) }
        | .throw fault left =>
            .throw fault { left with db := setDisabled false left.db }
  else
    .throw .sessionStillActive state

end Primary

end GxbCore.Members
