import GxbCore.Execution.Programs

/-!
# Proposals that fail

When an operation of a proposal throws, the destructor of the session takes
the changes back and the handler takes the applied operations back.  The first
of the two is not certain: undo can meet an object that a failing modification
has made the container drop, or an old value whose unique key another object
holds by now.  Then the exception of undo leaves a destructor.
-/

namespace GxbCore.Execution

open GxbCore.Db

variable {V Op R : Type}

section Applied

variable {state after : ExecutionState V Op R} {interrupt : Interrupt}

theorem resize_leading {before after : List (Option (OperationHistory Op R))}
    (isPrefix : before <+: after) : resize before.length after = before := by
  have short : before.length - after.length = 0 :=
    Nat.sub_eq_zero_of_le isPrefix.length_le
  rw [resize, short, List.replicate_zero, List.append_nil]
  exact (List.prefix_iff_eq_take.mp isPrefix).symm

theorem discardApplied_db (setting : Setting V) (oldSize : Nat)
    (state : ExecutionState V Op R) :
    (discardApplied setting oldSize state).db = state.db :=
  rfl

variable {before : List (Option (OperationHistory Op R))}

theorem discardApplied_keeps (setting : Setting V)
    (isPrefix : before <+: state.appliedOps) :
    before <+:
      (discardApplied setting before.length state).appliedOps := by
  rw [discardApplied]
  dsimp only
  split
  · rw [← List.prefix_iff_eq_take.mp isPrefix]
    exact List.prefix_append before _
  · rw [resize_leading isPrefix]

theorem unwind_keeps (setting : Setting V) {session : Session}
    (isPrefix : before <+: state.appliedOps) :
    before <+:
      (unwind setting session before.length interrupt
        state).state.appliedOps := by
  rw [unwind]
  split
  · cases destroy setting session state.db with
    | ok db => exact discardApplied_keeps setting isPrefix
    | throw fault db => exact isPrefix
  · exact isPrefix

theorem andThen_keeps {first : Ran V Op R}
    {next : R → ExecutionState V Op R → Ran V Op R}
    (isPrefix : before <+: first.state.appliedOps)
    (later :
      ∀ result left, before <+: left.appliedOps →
        before <+: (next result left).state.appliedOps) :
    before <+: (first.andThen next).state.appliedOps := by
  cases first with
  | returned result left => exact later result left isPrefix
  | thrown interrupt left => exact isPrefix

theorem onDatabase_keeps {outcome : Outcome Fault (Database V)}
    {next : ExecutionState V Op R → Ran V Op R}
    (later :
      ∀ left : ExecutionState V Op R, left.appliedOps = state.appliedOps →
        state.appliedOps <+: (next left).state.appliedOps) :
    state.appliedOps <+:
      (onDatabase state outcome next).state.appliedOps := by
  cases outcome with
  | ok db => exact later _ rfl
  | throw fault db => exact List.prefix_refl _

theorem setAppliedOperationResult_keeps {result : R}
    (isPrefix : before <+: state.appliedOps) :
    before <+:
      (setAppliedOperationResult before.length result
        state).appliedOps := by
  obtain ⟨later, appended⟩ := isPrefix
  refine List.prefix_iff_getElem?.mpr fun position inBefore => ?_
  rw [setAppliedOperationResult]
  dsimp only
  rw [List.getElem?_modify, ← appended, List.getElem?_append_left inBefore]
  have different : ¬ before.length = position := by omega
  simp [inBefore, different]

variable [Inhabited R] {setting : Setting V}

theorem applyOperation_keeps {op : Op} {registered : Bool}
    {evaluate : ExecutionState V Op R → Ran V Op R}
    (keeps : ∀ state, state.appliedOps <+: (evaluate state).state.appliedOps) :
    state.appliedOps <+:
      (applyOperation op registered evaluate state).state.appliedOps := by
  rw [applyOperation]
  split
  · refine andThen_keeps ?_ fun result left isPrefix =>
      setAppliedOperationResult_keeps isPrefix
    exact (List.prefix_append _ _).trans
      (keeps (pushAppliedOperation op state))
  · exact List.prefix_refl _

theorem pushProposal_keeps {proposal : ObjectId}
    {execute : ExecutionState V Op R → Ran V Op R}
    (keeps : ∀ state, state.appliedOps <+: (execute state).state.appliedOps) :
    state.appliedOps <+:
      (pushProposal setting proposal execute state).state.appliedOps := by
  have kept :=
    keeps { state with db := startUndoSession true state.db }
  rw [pushProposal]
  cases executed :
      execute { state with db := startUndoSession true state.db } with
  | thrown interrupt left =>
      rw [executed] at kept
      exact unwind_keeps setting kept
  | returned result after =>
      rw [executed] at kept
      dsimp only
      cases removes : remove proposal after.db with
      | throw fault db => exact kept
      | ok removed =>
          dsimp only
          cases merges : merge setting.walk removed with
          | throw fault db => exact unwind_keeps setting kept
          | ok merged => exact kept

/-- A program adds to the applied operations, whether it returns or throws, and
leaves alone what was there. -/
theorem run_keeps_applied (program : Program V Op R)
    (state : ExecutionState V Op R) :
    state.appliedOps <+: (run setting program state).state.appliedOps := by
  induction program generalizing state with
  | done result => exact List.prefix_refl _
  | fail interrupt => exact List.prefix_refl _
  | look next ih => exact ih state state
  | create index value next ih =>
      exact onDatabase_keeps fun left same =>
        same ▸ ih left
  | modify id callback next ih =>
      exact onDatabase_keeps fun left same =>
        same ▸ ih left
  | remove id next ih =>
      exact onDatabase_keeps fun left same =>
        same ▸ ih left
  | applyOperation op registered evaluator next ofEvaluator ofNext =>
      exact andThen_keeps (applyOperation_keeps ofEvaluator)
        fun result left isPrefix => isPrefix.trans (ofNext result left)
  | pushProposal proposal operations next ofOperations ofNext =>
      have kept := @pushProposal_keeps _ _ _ state _ setting proposal _
        ofOperations
      rw [run]
      cases pushed :
          pushProposal setting proposal (run setting operations) state with
      | returned result after =>
          rw [pushed] at kept
          exact kept.trans (ofNext true after)
      | thrown interrupt left =>
          rw [pushed] at kept
          dsimp only
          split
          · exact kept.trans (ofNext false left)
          · exact kept

end Applied

section Objects

variable {schema : Schema V} {base db left : Database V} {depth : Nat}
  {opened : List (Objects V)} {id : ObjectId} {callback : Callback V}
  {fault : Fault}

/-- The container has dropped an object that the session has touched. -/
structure Dropped (db : Database V) (back : UndoState V)
    (older : List (UndoState V)) (id : ObjectId) : Prop where
  stack : db.undoDb.stack = back :: older
  touched : id ∈ back.newIds ∨ id ∈ back.oldValues
  missing : db.objs.find id = none

/-- What a call of the object database leaves inside a session when it
throws. -/
inductive Interrupted (schema : Schema V) (base : Database V) (depth : Nat)
    (db : Database V) : Prop
  | inside {opened : List (Objects V)}
      (isInside : Inside schema base depth opened db)
  | dropped {back : UndoState V} {older : List (UndoState V)}
      {id : ObjectId} (isDropped : Dropped db back older id)

theorem create_throws {index : IndexId} {value : V}
    (inside : Inside schema base depth opened db)
    (throws : create schema index value db = .throw fault left) :
    Interrupted schema base depth left := by
  rw [create] at throws
  split at throws
  · cases throws
  · cases throws
    exact .inside inside

theorem remove_throws (inside : Inside schema base depth opened db)
    (throws : remove id db = .throw fault left) :
    Interrupted schema base depth left := by
  rw [remove] at throws
  split at throws
  · cases throws
    exact .inside inside
  · cases throws

theorem modify_throws (inside : Inside schema base depth opened db)
    (throws : Db.modify schema id callback db = .throw fault left) :
    Interrupted schema base depth left := by
  cases found : db.objs.find id with
  | none =>
      rw [Db.modify, found] at throws
      cases throws
      exact .inside inside
  | some value =>
      have fails : Fails schema id value callback db.objs := by
        rw [Db.modify, found] at throws
        dsimp only at throws
        split at throws
        · split at throws
          · next thrown =>
              exact .inl (by rw [thrown]; exact Option.some_ne_none _)
          · cases throws
        · next taken => exact .inr (Bool.not_eq_true _ ▸ taken)
      rw [modify_fails found fails] at throws
      cases admitted :
          (db.objs.drop id).admits schema id (callback value).1 with
      | true =>
          rw [admitted] at throws
          cases throws
          exact .inside (inside.modify (modify_quiet found admitted))
      | false =>
          rw [admitted] at throws
          cases throws
          obtain ⟨back, older, stackEq, touched⟩ :=
            @onModify_back _ id value db.undoDb inside.enabled
          exact .dropped ⟨stackEq, touched, by simp⟩

theorem merge_throws {walk : IterationOrder}
    (throws : Db.merge walk db = .throw fault left) : left = db := by
  rw [Db.merge] at throws
  split at throws
  · cases throws
    rfl
  · split at throws
    · cases throws
    · split at throws
      · cases throws
      · cases throws
        rfl

end Objects

section Runs

variable {setting : Setting V} {base : Database V} {depth : Nat}
  {opened : List (Objects V)} {state : ExecutionState V Op R}
  {interrupt : Interrupt}

/-- How a program that starts inside a session ends. -/
def Ended (setting : Setting V) (base : Database V) (depth : Nat) :
    Ran V Op R → Prop
  | .returned _ after =>
      ∃ opened, Inside setting.schema base depth opened after.db
  | .thrown interrupt left =>
      interrupt.isException = true →
        Interrupted setting.schema base depth left.db

/-- How the execution of a proposal inside a session ends: an exception comes
out of it when its own session has been undone. -/
def Settled (setting : Setting V) (base : Database V) (depth : Nat) :
    Ran V Op R → Prop
  | .returned _ after =>
      ∃ opened, Inside setting.schema base depth opened after.db
  | .thrown interrupt left =>
      interrupt.isException = true →
        ∃ opened, Inside setting.schema base depth opened left.db

theorem andThen_ended {first : Ran V Op R}
    {next : R → ExecutionState V Op R → Ran V Op R}
    (ended : Ended setting base depth first)
    (later :
      ∀ result left opened,
        Inside setting.schema base depth opened left.db →
          Ended setting base depth (next result left)) :
    Ended setting base depth (first.andThen next) := by
  cases first with
  | returned result left =>
      obtain ⟨opened, inside⟩ := ended
      exact later result left opened inside
  | thrown interrupt left => exact ended

theorem onDatabase_ended {outcome : Outcome Fault (Database V)}
    {next : ExecutionState V Op R → Ran V Op R}
    (returns :
      ∀ db, outcome = .ok db →
        Inside setting.schema base depth opened db)
    (throws :
      ∀ fault db, outcome = .throw fault db →
        Interrupted setting.schema base depth db)
    (later :
      ∀ left opened, Inside setting.schema base depth opened left.db →
        Ended setting base depth (next left)) :
    Ended setting base depth (onDatabase state outcome next) := by
  cases outcome with
  | ok db => exact later _ opened (returns db rfl)
  | throw fault db => exact fun _ => throws fault db rfl

/-- A session that is undone on the way out of a nested execution. -/
theorem unwind_settled {left : ExecutionState V Op R} {oldSize : Nat}
    (interrupted :
      interrupt.isException = true →
        Interrupted setting.schema base (depth + 1) left.db) :
    Settled setting base depth
      (unwind setting ⟨true, false⟩ oldSize interrupt left) := by
  rw [unwind]
  split
  · next isException =>
      have destroyed :
          destroy setting ⟨true, false⟩ left.db =
            (undo setting.schema setting.walk left.db).bind .ok :=
        rfl
      rw [destroyed]
      cases undone : undo setting.schema setting.walk left.db with
      | throw fault db => exact fun thrown => nomatch thrown
      | ok db =>
          intro _
          cases interrupted isException with
          | inside isInside => exact ⟨_, isInside.undo undone⟩
          | dropped isDropped =>
              have refused := @undo_of_missing _ setting.schema setting.walk
                left.db _ _ _ isDropped.stack isDropped.touched
                isDropped.missing
              rw [undone] at refused
              cases refused
  · next other => exact fun thrown => absurd thrown other

variable [Inhabited R]

theorem applyOperation_ended {op : Op} {registered : Bool}
    {evaluate : ExecutionState V Op R → Ran V Op R}
    (inside : Inside setting.schema base depth opened state.db)
    (ended :
      ∀ state opened, Inside setting.schema base depth opened state.db →
        Ended setting base depth (evaluate state)) :
    Ended setting base depth
      (applyOperation op registered evaluate state) := by
  rw [applyOperation]
  split
  · exact andThen_ended (ended (pushAppliedOperation op state) opened inside)
      fun result left opened isInside => ⟨opened, isInside⟩
  · exact fun _ => .inside inside

/-- An execution inside a session has a session of its own, nested in it. -/
theorem pushProposal_settled {proposal : ObjectId}
    {execute : ExecutionState V Op R → Ran V Op R}
    (inside : Inside setting.schema base depth opened state.db)
    (ended :
      ∀ state opened,
        Inside setting.schema base (depth + 1) opened state.db →
          Ended setting base (depth + 1) (execute state)) :
    Settled setting base depth
      (pushProposal setting proposal execute state) := by
  have session : startedSession true state.db = ⟨true, false⟩ := by
    rw [startedSession, inside.enabled]
    rfl
  have executes :=
    ended { state with db := startUndoSession true state.db } _
      (inside.nest true)
  rw [pushProposal, session]
  cases executed :
      execute { state with db := startUndoSession true state.db } with
  | thrown interrupt left =>
      rw [executed] at executes
      exact unwind_settled executes
  | returned result after =>
      rw [executed] at executes
      obtain ⟨nested, isNested⟩ := executes
      dsimp only
      cases removes : remove proposal after.db with
      | throw fault db => exact fun thrown => nomatch thrown
      | ok removed =>
          have isRemoved := isNested.remove removes
          dsimp only
          cases merges : merge setting.walk removed with
          | throw fault db =>
              refine unwind_settled fun _ => ?_
              rw [merge_throws merges]
              exact .inside isRemoved
          | ok merged => exact ⟨_, isRemoved.merge merges⟩

/-- Every run of a program inside a session stays there, or throws there. -/
theorem run_ended (program : Program V Op R) (state : ExecutionState V Op R)
    (inside : Inside setting.schema base depth opened state.db) :
    Ended setting base depth (run setting program state) := by
  induction program generalizing state depth opened with
  | done result => exact ⟨opened, inside⟩
  | fail interrupt => exact fun _ => .inside inside
  | look next ih =>
      exact ih state state inside
  | create index value next ih =>
      exact onDatabase_ended (fun db returns => inside.create returns)
        (fun fault db throws => create_throws inside throws)
        fun left opened isInside => ih left isInside
  | modify id callback next ih =>
      exact onDatabase_ended (fun db returns => inside.modify returns)
        (fun fault db throws => modify_throws inside throws)
        fun left opened isInside => ih left isInside
  | remove id next ih =>
      exact onDatabase_ended (fun db returns => inside.remove returns)
        (fun fault db throws => remove_throws inside throws)
        fun left opened isInside => ih left isInside
  | applyOperation op registered evaluator next ofEvaluator ofNext =>
      exact andThen_ended
        (applyOperation_ended inside fun state opened isInside =>
          ofEvaluator state isInside)
        fun result left opened isInside => ofNext result left isInside
  | pushProposal proposal operations next ofOperations ofNext =>
      have settled := @pushProposal_settled _ _ _ setting _ _ _ state _ proposal
        _ inside fun state opened isInside => ofOperations state isInside
      rw [run]
      cases pushed :
          pushProposal setting proposal (run setting operations) state with
      | returned result after =>
          rw [pushed] at settled
          obtain ⟨opened, isInside⟩ := settled
          exact ofNext true after isInside
      | thrown interrupt left =>
          rw [pushed] at settled
          dsimp only
          split
          · next isException =>
              obtain ⟨opened, isInside⟩ := settled isException
              exact ofNext false left isInside
          · next other => exact fun thrown => absurd thrown other

end Runs

section NoTrace

variable {setting : Setting V} {base db : Database V} {proposal : ObjectId}
  {interrupt : Interrupt}

/-- The undo state on the back of the stack leads back to these objects, and no
unique key of an old value that it restores is held by another object. -/
def Restorable (setting : Setting V) (objs : Objects V) (db : Database V) :
    Prop :=
  ∃ back ∈ db.undoDb.stack.head?,
    Records back objs db.objs ∧
      RestoresFreely setting.schema back db.objs
        (setting.walk.order back.oldValues.entries)

/-- Where an operation has thrown, undo gives the start of the session back
exactly when it can be restored. -/
theorem undo_restores_iff (formed : WellFormed setting.schema base.objs)
    (interrupted : Interrupted setting.schema base 0 db) :
    (∃ undone, undo setting.schema setting.walk db = .ok undone ∧
      SameObjects undone.objs base.objs) ↔
      Restorable setting base.objs db := by
  cases interrupted with
  | dropped isDropped =>
      constructor
      · rintro ⟨undone, returns, _⟩
        have refused := @undo_of_missing _ setting.schema setting.walk
          db _ _ _ isDropped.stack isDropped.touched isDropped.missing
        rw [returns] at refused
        cases refused
      · rintro ⟨back, isBack, records, _⟩
        rw [isDropped.stack] at isBack
        cases isBack
        have present :=
          isDropped.touched.elim (records.newPresent _)
            (records.oldPresent _)
        rw [isDropped.missing] at present
        cases present
  | inside isInside =>
      have active : db.undoDb.activeSessions ≠ 0 := by
        rw [isInside.active]
        omega
      constructor
      · rintro ⟨undone, returns, sameBase⟩
        rcases isInside.back with ⟨emptyStack, _⟩ |
          ⟨back, states, snapshot, snapshots, below, stackEq, rfl, records,
            _, _⟩
        · simp [undo, isInside.enabled, active, emptyStack] at returns
        · rcases undo_of_back setting.walk db isInside.enabled active stackEq
              records (isInside.openedFormed snapshot List.mem_cons_self) with
            ⟨free, objs, same, isUndone⟩ | ⟨_, fails⟩
          · rw [isUndone, Outcome.ok.injEq] at returns
            subst returns
            refine ⟨back, by rw [stackEq]; rfl, ?_,
              (undoesFreely_iff stackEq).mp free⟩
            exact records.congr (same.symm.trans sameBase) (.refl db.objs)
          · rw [returns] at fails
            cases fails
      · rintro ⟨back, isBack, records, free⟩
        obtain ⟨older, stackEq⟩ := List.head?_eq_some_iff.mp isBack
        rcases undo_of_back setting.walk db isInside.enabled active stackEq
            records formed with ⟨_, objs, same, isUndone⟩ | ⟨stuck, _⟩
        · exact ⟨_, isUndone, same⟩
        · exact absurd ((undoesFreely_iff stackEq).mpr free) stuck

theorem enabled_of_undo {undone : Database V}
    (returns : undo setting.schema setting.walk db = .ok undone) :
    undone.undoDb.disabled = false := by
  rw [undo] at returns
  split at returns
  · cases returns
  · split at returns
    · cases returns
    · split at returns
      · cases returns
      · obtain ⟨restored, _, ended⟩ := Outcome.bind_eq_ok.mp returns
        cases ended
        rfl

theorem sameObjects_leave (session : Session) (db : Database V) :
    SameObjects (leave session db).objs db.objs := by
  rw [leave]
  split
  · exact .refl db.objs
  · exact .refl db.objs

theorem disabled_leave (session : Session) (db : Database V) :
    (leave session db).undoDb.disabled =
      (session.disableOnExit || db.undoDb.disabled) := by
  rw [leave]
  split
  · next disables => simp [setDisabled, disables]
  · next stays => simp [stays]

theorem unwind_of_undo {forceEnable : Bool} {oldSize : Nat}
    {state left : ExecutionState V Op R} {undone : Database V}
    (isException : interrupt.isException = true)
    (returns : undo setting.schema setting.walk left.db = .ok undone) :
    unwind setting (startedSession forceEnable state.db) oldSize interrupt
        left =
      .thrown interrupt
        (discardApplied setting oldSize
          { left with
            db := leave (startedSession forceEnable state.db) undone }) := by
  have destroyed :
      destroy setting (startedSession forceEnable state.db) left.db =
        .ok (leave (startedSession forceEnable state.db) undone) := by
    rw [destroy, startedSession, if_pos rfl, returns]
    rfl
  rw [unwind, if_pos isException, destroyed]

/-- An exception that comes out of `push_proposal` has passed an undo that
returned. -/
theorem undone_of_unwind {forceEnable : Bool} {oldSize : Nat}
    {other : Interrupt} {state left after : ExecutionState V Op R}
    (isException : interrupt.isException = true)
    (unwound :
      unwind setting (startedSession forceEnable state.db) oldSize interrupt
        left = .thrown other after)
    (isOther : other.isException = true) :
    ∃ undone, undo setting.schema setting.walk left.db = .ok undone ∧
      SameObjects after.db.objs undone.objs := by
  cases returns : undo setting.schema setting.walk left.db with
  | ok undone =>
      rw [unwind_of_undo isException returns] at unwound
      cases unwound
      exact ⟨undone, rfl, sameObjects_leave _ undone⟩
  | throw fault db =>
      have destroyed :
          destroy setting (startedSession forceEnable state.db) left.db =
            .throw fault db := by
        rw [destroy, startedSession, if_pos rfl, returns]
        rfl
      rw [unwind, if_pos isException, destroyed] at unwound
      cases unwound
      cases isOther

variable [Inhabited R] {operations : List (ProposedOperation V Op R)}
  {state left : ExecutionState V Op R}

/-- `push_proposal` passes an exception on, and leaves the objects as before,
undo enabled or disabled as before and, after the hard fork, the applied
operations as before. -/
def LeavesNoTrace (setting : Setting V) (proposal : ObjectId)
    (operations : List (ProposedOperation V Op R))
    (state : ExecutionState V Op R) : Prop :=
  ∃ interrupt after,
    pushProposal setting proposal
        (run setting (applyOperations proposal operations)) state =
      .thrown interrupt after ∧
    interrupt.isException = true ∧
    SameObjects after.db.objs state.db.objs ∧
    after.db.undoDb.disabled = state.db.undoDb.disabled ∧
    (hardfork483Time < headBlockTime setting state.db.objs →
      after.appliedOps = state.appliedOps)

/-- A proposal whose operations throw leaves no trace exactly when the undo
state that the throwing operation has left on the back of the stack still leads
back to the objects before, and the old values in it can take their keys
again. -/
theorem failed_proposal_leaves_no_trace_iff
    (formed : WellFormed setting.schema state.db.objs)
    (throws :
      run setting (applyOperations proposal operations)
          { state with db := startUndoSession true state.db } =
        .thrown interrupt left)
    (isException : interrupt.isException = true) :
    LeavesNoTrace setting proposal operations state ↔
      Restorable setting state.db.objs left.db := by
  have inside : Inside setting.schema state.db 0 [state.db.objs]
      (startUndoSession true state.db) :=
    .start (.inr rfl) formed
  have ended := @run_ended _ _ _ setting _ _ _ _
    (applyOperations proposal operations)
    { state with db := startUndoSession true state.db } inside
  have applied := @run_keeps_applied _ _ _ _ setting
    (applyOperations proposal operations)
    { state with db := startUndoSession true state.db }
  rw [throws] at ended applied
  rw [← undo_restores_iff formed (ended isException)]
  have unwinds :
      pushProposal setting proposal
          (run setting (applyOperations proposal operations)) state =
        unwind setting (startedSession true state.db)
          state.appliedOps.length interrupt left := by
    rw [pushProposal, throws]
  rw [LeavesNoTrace, unwinds]
  constructor
  · rintro ⟨other, after, unwound, isOther, same, _⟩
    obtain ⟨undone, returns, sameUndone⟩ :=
      undone_of_unwind isException unwound isOther
    exact ⟨undone, returns, sameUndone.symm.trans same⟩
  · rintro ⟨undone, returns, same⟩
    refine ⟨interrupt, _, unwind_of_undo isException returns, isException,
      (sameObjects_leave _ undone).trans same, ?_, fun afterHardfork => ?_⟩
    · rw [discardApplied_db, disabled_leave, enabled_of_undo returns,
        startedSession, Bool.and_true, Bool.or_false]
    · have sameTime :
          headBlockTime setting state.db.objs =
            headBlockTime setting (leave (startedSession true state.db)
              undone).objs := by
        rw [headBlockTime, headBlockTime,
          ((sameObjects_leave _ undone).trans same).find]
      rw [discardApplied, if_neg (by rw [← sameTime]; omega)]
      exact resize_leading applied

end NoTrace

section Sample

/-- Every index has one unique key, the content; for an asset it is the
symbol. -/
def sampleSetting : Setting Nat where
  schema := symbolSchema
  walk := .asListed
  time := id

def sampleProposal : ObjectId :=
  ⟨⟨1, 10⟩, 0⟩

/-- An asset with the symbol 1, the proposal, and the time of the head block,
after the hard fork. -/
def sampleObjects : Objects Nat where
  objects :=
    ((AList.singleton dynamicGlobalPropertyId 1500000000).insert
      sampleProposal 0).insert ⟨assetIndex, 0⟩ 1
  nextId := fun _ => 1

/-- The state before, with undo disabled. -/
def sampleState : ExecutionState Nat String Nat where
  db := ⟨sampleObjects, ⟨0, true, [], 256⟩⟩
  appliedOps := []
  currentBlockNum := 7
  currentTrxInBlock := 0
  currentOpInTrx := 0
  currentVirtualOp := 0

/-- `asset_update` gives the asset the symbol 2. -/
def renames : ProposedOperation Nat String Nat where
  op := "asset_update"
  registered := true
  evaluator := .modify ⟨assetIndex, 0⟩ (fun _ => (2, none)) (.done 0)

/-- `asset_create` takes the symbol 1 for another asset. -/
def reissues : ProposedOperation Nat String Nat where
  op := "asset_create"
  registered := true
  evaluator := .create assetIndex 1 (.done 0)

/-- A transfer of more than there is. -/
def overdraws : ProposedOperation Nat String Nat where
  op := "transfer"
  registered := true
  evaluator := .fail (.raised "Insufficient Balance")

theorem sampleObjects_wellFormed : WellFormed symbolSchema sampleObjects :=
  .of_entries (by decide) (by decide)

/-- The asset is renamed, then the transfer fails. -/
theorem renamed_asset_leaves_no_trace :
    LeavesNoTrace sampleSetting sampleProposal [renames, overdraws]
      sampleState := by
  refine (failed_proposal_leaves_no_trace_iff sampleObjects_wellFormed rfl
    rfl).mpr ?_
  refine ⟨_, rfl, (Records.opened sampleObjects).modify rfl, ?_⟩
  refine restoresFreely_cons.mpr ⟨?_, restoresFreely_nil _ _⟩
  rintro other found _ (isNew | isLater)
  · cases isNew
  · cases isLater

/-- The asset is renamed and its symbol given away, then the transfer fails:
the exception of undo leaves the destructor. -/
theorem reissued_symbol_leaves_a_trace :
    (∃ left,
      run sampleSetting
          (applyOperations sampleProposal [renames, reissues, overdraws])
          { sampleState with
            db := startUndoSession true sampleState.db } =
        .thrown (.raised "Insufficient Balance") left) ∧
      ¬ LeavesNoTrace sampleSetting sampleProposal
        [renames, reissues, overdraws] sampleState := by
  refine ⟨⟨_, rfl⟩, ?_⟩
  rintro ⟨interrupt, after, pushed, isException, _⟩
  have terminates :
      (pushProposal sampleSetting sampleProposal
        (run sampleSetting
          (applyOperations sampleProposal [renames, reissues, overdraws]))
        sampleState).interrupt = some .terminated := by
    decide
  rw [pushed] at terminates
  cases terminates
  cases isException

end Sample

end GxbCore.Execution
