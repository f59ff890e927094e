import GxbCore.Db.FailedModify

/-!
# What the execution of a proposal does to the database

`push_proposal` runs the operations of a proposal inside a session of its own,
which is enabled by force.  An operation is a program here: what its evaluator
reads, which objects it creates, modifies and removes, and which operations
and proposals it executes in turn.  Every program ends, in a return or in an
exception.

The two callers of `push_proposal` catch its exceptions and go on, so an
operation that executes a proposal does not see them either.  What they do not
catch is an exception that leaves the destructor of a session: that ends the
process.
-/

namespace GxbCore.Execution

open GxbCore.Db

variable {V Op R : Type}

structure OperationHistory (Op R : Type) where
  op : Op
  result : R
  blockNum : UInt32
  trxInBlock : UInt16
  opInTrx : UInt16
  virtualOp : UInt16
  deriving DecidableEq, Repr

/-- What an execution reads and writes of the `database`. -/
structure ExecutionState (V Op R : Type) where
  db : Database V
  appliedOps : List (Option (OperationHistory Op R))
  currentBlockNum : UInt32
  currentTrxInBlock : UInt16
  currentOpInTrx : UInt16
  currentVirtualOp : UInt16

/-- What ends an execution early. -/
inductive Interrupt where
  /-- an assertion of the object database -/
  | database (fault : Fault)
  /-- an assertion of an evaluator -/
  | raised (message : String)
  /-- a proposal is read that its own operations have removed -/
  | freed
  /-- an exception has left a destructor -/
  | terminated
  deriving DecidableEq, Repr

/-- An `fc::exception`. -/
def Interrupt.isException : Interrupt → Bool
  | database _ => true
  | raised _ => true
  | freed => false
  | terminated => false

/-- What a call with a result leaves. -/
inductive Ran (V Op R : Type) where
  | returned (result : R) (state : ExecutionState V Op R)
  | thrown (interrupt : Interrupt) (state : ExecutionState V Op R)

namespace Ran

def state : Ran V Op R → ExecutionState V Op R
  | returned _ left => left
  | thrown _ left => left

/-- The interrupt that ended the call, if one did. -/
def interrupt : Ran V Op R → Option Interrupt
  | returned _ _ => none
  | thrown interrupt _ => some interrupt

/-- Go on from a return. -/
def andThen (first : Ran V Op R)
    (next : R → ExecutionState V Op R → Ran V Op R) : Ran V Op R :=
  match first with
  | returned result left => next result left
  | thrown interrupt left => thrown interrupt left

end Ran

/-- A call of the object database. -/
def onDatabase (state : ExecutionState V Op R)
    (outcome : Outcome Fault (Database V))
    (next : ExecutionState V Op R → Ran V Op R) : Ran V Op R :=
  match outcome with
  | .ok db => next { state with db := db }
  | .throw fault db => .thrown (.database fault) { state with db := db }

section Applied

variable [Inhabited R]

/-- `push_applied_operation`; the new entry is at the old length. -/
def pushAppliedOperation (op : Op) (state : ExecutionState V Op R) :
    ExecutionState V Op R :=
  { state with
    appliedOps := state.appliedOps ++
      [some
        { op := op
          result := default
          blockNum := state.currentBlockNum
          trxInBlock := state.currentTrxInBlock
          opInTrx := state.currentOpInTrx
          virtualOp := state.currentVirtualOp }]
    currentVirtualOp := state.currentVirtualOp + 1 }

omit [Inhabited R] in
/-- `set_applied_operation_result`; an entry that was reset stays so. -/
def setAppliedOperationResult (opId : Nat) (result : R)
    (state : ExecutionState V Op R) : ExecutionState V Op R :=
  { state with
    appliedOps := state.appliedOps.modify opId
      (Option.map fun entry => { entry with result := result }) }

/-- `apply_operation`, of an operation with or without a registered
evaluator. -/
def applyOperation (op : Op) (registered : Bool)
    (evaluate : ExecutionState V Op R → Ran V Op R)
    (state : ExecutionState V Op R) : Ran V Op R :=
  if registered then
    (evaluate (pushAppliedOperation op state)).andThen fun result after =>
      .returned result
        (setAppliedOperationResult state.appliedOps.length result after)
  else
    .thrown (.raised "No registered evaluator for operation") state

end Applied

/-- The keys of the indexes, the order in which the tables of an undo state are
walked, and the `time` in a `dynamic_global_property_object`. -/
structure Setting (V : Type) where
  schema : Schema V
  walk : IterationOrder
  time : V → Nat

def hardfork483Time : Nat :=
  1450378800

/-- The id of the only `dynamic_global_property_object`. -/
def dynamicGlobalPropertyId : ObjectId :=
  ⟨⟨2, 1⟩, 0⟩

def headBlockTime (setting : Setting V) (objs : Objects V) : Nat :=
  (objs.find dynamicGlobalPropertyId).elim 0 setting.time

/-- `vector::resize` of the applied operations. -/
def resize (size : Nat) (appliedOps : List (Option (OperationHistory Op R))) :
    List (Option (OperationHistory Op R)) :=
  appliedOps.take size ++ List.replicate (size - appliedOps.length) none

/-- What the handler of `push_proposal` does to the applied operations: until
the hard fork it resets those of the proposal, since then it drops them. -/
def discardApplied (setting : Setting V) (oldSize : Nat)
    (state : ExecutionState V Op R) : ExecutionState V Op R :=
  { state with
    appliedOps :=
      if headBlockTime setting state.db.objs ≤ hardfork483Time then
        state.appliedOps.take oldSize ++
          List.replicate (state.appliedOps.length - oldSize) none
      else
        resize oldSize state.appliedOps }

/-- A session that has enabled undo by force disables it again. -/
def leave (session : Session) (db : Database V) : Database V :=
  if session.disableOnExit then setDisabled true db else db

/-- The destructor of a `session`. -/
def destroy (setting : Setting V) (session : Session) (db : Database V) :
    Outcome Fault (Database V) :=
  (if session.applyUndo then
    undo setting.schema setting.walk db
  else
    .ok db).bind fun left => .ok (leave session left)

/-- The way of an interrupt out of `push_proposal`: the session is destroyed,
then the handler runs. -/
def unwind (setting : Setting V) (session : Session) (oldSize : Nat)
    (interrupt : Interrupt) (state : ExecutionState V Op R) : Ran V Op R :=
  if interrupt.isException then
    match destroy setting session state.db with
    | .ok db =>
        .thrown interrupt
          (discardApplied setting oldSize { state with db := db })
    | .throw _ db => .thrown .terminated { state with db := db }
  else
    .thrown interrupt state

section Push

variable [Inhabited R]

/-- `push_proposal`: `execute` applies the operations.  Nobody reads the
results that are returned. -/
def pushProposal (setting : Setting V) (proposal : ObjectId)
    (execute : ExecutionState V Op R → Ran V Op R)
    (state : ExecutionState V Op R) : Ran V Op R :=
  let session := startedSession true state.db
  let oldSize := state.appliedOps.length
  match execute { state with db := startUndoSession true state.db } with
  | .thrown interrupt left => unwind setting session oldSize interrupt left
  | .returned _ after =>
      match remove proposal after.db with
      | .throw _ _ => .thrown .freed after
      | .ok removed =>
          match merge setting.walk removed with
          | .throw fault db =>
              unwind setting session oldSize (.database fault)
                { after with db := db }
          | .ok merged =>
              .returned default
                { after with
                  db :=
                    (destroy setting { session with applyUndo := false }
                      merged).state }

/-- What an evaluator does, step by step, and its result. -/
inductive Program (V Op R : Type) where
  | done (result : R)
  | fail (interrupt : Interrupt)
  | look (next : ExecutionState V Op R → Program V Op R)
  | create (index : IndexId) (value : V) (next : Program V Op R)
  | modify (id : ObjectId) (callback : Callback V) (next : Program V Op R)
  | remove (id : ObjectId) (next : Program V Op R)
  | applyOperation (op : Op) (registered : Bool) (evaluator : Program V Op R)
      (next : R → Program V Op R)
  /-- the end of `proposal_update_evaluator::do_apply`: an exception is caught,
  and `next` is told whether the proposal was executed -/
  | pushProposal (proposal : ObjectId) (operations : Program V Op R)
      (next : Bool → Program V Op R)

/-- The steps of a program, one after the other. -/
def run (setting : Setting V) :
    Program V Op R → ExecutionState V Op R → Ran V Op R
  | .done result, state => .returned result state
  | .fail interrupt, state => .thrown interrupt state
  | .look next, state => run setting (next state) state
  | .create index value next, state =>
      onDatabase state (create setting.schema index value state.db)
        (run setting next)
  | .modify id callback next, state =>
      onDatabase state (modify setting.schema id callback state.db)
        (run setting next)
  | .remove id next, state =>
      onDatabase state (remove id state.db) (run setting next)
  | .applyOperation op registered evaluator next, state =>
      (applyOperation op registered (run setting evaluator) state).andThen
        fun result after => run setting (next result) after
  | .pushProposal proposal operations next, state =>
      match pushProposal setting proposal (run setting operations) state with
      | .returned _ after => run setting (next true) after
      | .thrown interrupt left =>
          if interrupt.isException then
            run setting (next false) left
          else
            .thrown interrupt left

structure ProposedOperation (V Op R : Type) where
  op : Op
  registered : Bool
  evaluator : Program V Op R

/-- The loop of `push_proposal` over the operations.  They are in the proposal,
which must still be there for the next one. -/
def applyOperations (proposal : ObjectId) :
    List (ProposedOperation V Op R) → Program V Op R
  | [] => .done default
  | operation :: rest =>
      .look fun state =>
        if (state.db.objs.find proposal).isSome then
          .applyOperation operation.op operation.registered
            operation.evaluator fun _ => applyOperations proposal rest
        else
          .fail .freed

end Push

end GxbCore.Execution
