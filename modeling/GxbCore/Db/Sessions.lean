import GxbCore.Db.MergeRecords
import GxbCore.Db.Restore

/-!
# Sessions: what undo, pop_commit and merge give back

`InSession` is every run of successful calls inside one session.  Next to the
database it carries a list that the program does not have: for every undo state
the session has on the stack, the objects at the moment that state was pushed.
The invariant of such a run says that each state on the stack records the way
from its own snapshot to the next one.

Undo of the session is exact in two cases out of three.  A nested session that
was committed, or a stack that was cut to `max_size`, leaves a state on the
back that was opened later than the session; and the restoring loops are
refused when a value they restore has a unique key that an object created
later holds.
-/

namespace GxbCore.Db

variable {V : Type} {schema : Schema V} {walk : IterationOrder}

/-- The snapshots after a recording call: an empty stack gets a new state,
opened at the objects before the call. -/
def reopened (opened : List (Objects V)) (db : Database V) :
    List (Objects V) :=
  if db.undoDb.stack.isEmpty then [db.objs] else opened

/-- The databases reached from the session that `start_undo_session` opens on
`base`: `depth` nested sessions are still open, and `opened` has the objects at
which the states of the session on the stack were pushed, the back first. -/
inductive InSession (schema : Schema V) (walk : IterationOrder)
    (base : Database V) : Nat → List (Objects V) → Database V → Prop
  | start (forceEnable : Bool)
      (enabled : base.undoDb.disabled = false ∨ forceEnable = true) :
      InSession schema walk base 0 [base.objs]
        (startUndoSession forceEnable base)
  | create {depth opened db after} (index : IndexId) (value : V) :
      InSession schema walk base depth opened db →
      create schema index value db = .ok after →
      InSession schema walk base depth (reopened opened db) after
  | modify {depth opened db after} (id : ObjectId)
      (callback : Callback V) :
      InSession schema walk base depth opened db →
      modify schema id callback db = .ok after →
      InSession schema walk base depth (reopened opened db) after
  | remove {depth opened db after} (id : ObjectId) :
      InSession schema walk base depth opened db →
      remove id db = .ok after →
      InSession schema walk base depth (reopened opened db) after
  | resize {depth opened db} (maxSize : Nat) :
      InSession schema walk base depth opened db →
      InSession schema walk base depth opened (setMaxSize maxSize db)
  | nest {depth opened db} (forceEnable : Bool) :
      InSession schema walk base depth opened db →
      InSession schema walk base (depth + 1)
        (db.objs :: opened.take db.undoDb.maxSize)
        (startUndoSession forceEnable db)
  | merge {depth opened db after} :
      InSession schema walk base (depth + 1) opened db →
      merge walk db = .ok after →
      InSession schema walk base depth opened.tail after
  | commit {depth opened db after} :
      InSession schema walk base (depth + 1) opened db →
      commit db = .ok after →
      InSession schema walk base depth opened after
  | undo {depth opened db after} :
      InSession schema walk base (depth + 1) opened db →
      undo schema walk db = .ok after →
      InSession schema walk base depth opened.tail after

/-- Each state records the way from its snapshot to the one before it in the
list, the first one to the objects of now. -/
def Chain : List (UndoState V) → List (Objects V) → Objects V → Prop
  | [], [], _ => True
  | state :: states, snapshot :: snapshots, current =>
      Records state snapshot current ∧ Chain states snapshots snapshot
  | _, _, _ => False

variable {snapshots : List (Objects V)} {states : List (UndoState V)}

theorem Chain.nil_or_cons {current : Objects V}
    (chain : Chain states snapshots current) :
    (states = [] ∧ snapshots = []) ∨
    ∃ state older snapshot earlier,
      states = state :: older ∧ snapshots = snapshot :: earlier ∧
      Records state snapshot current ∧ Chain older earlier snapshot := by
  cases states with
  | nil =>
      cases snapshots with
      | nil => exact Or.inl ⟨rfl, rfl⟩
      | cons snapshot earlier => exact chain.elim
  | cons state older =>
      cases snapshots with
      | nil => exact chain.elim
      | cons snapshot earlier =>
          exact Or.inr
            ⟨state, older, snapshot, earlier, rfl, rfl, chain.1, chain.2⟩

theorem Chain.take {current : Objects V}
    (chain : Chain states snapshots current) (count : Nat) :
    Chain (states.take count) (snapshots.take count) current := by
  induction count generalizing states snapshots current with
  | zero =>
      simp [Chain]
  | succ count ih =>
      rcases chain.nil_or_cons with ⟨rfl, rfl⟩ |
        ⟨state, older, snapshot, earlier, rfl, rfl, records, rest⟩
      · simp [Chain]
      · exact ⟨records, ih rest⟩

theorem Chain.congr {current current' : Objects V}
    (chain : Chain states snapshots current)
    (same : SameObjects current current') :
    Chain states snapshots current' := by
  rcases chain.nil_or_cons with ⟨rfl, rfl⟩ |
    ⟨state, older, snapshot, earlier, rfl, rfl, records, rest⟩
  · trivial
  · exact ⟨records.congr (SameObjects.refl snapshot) same, rest⟩

/-- The invariant of a run inside one session.  The own states are missing from
the stack only when it was cut, and then nothing is left below them. -/
structure Inside (schema : Schema V) (base : Database V) (depth : Nat)
    (opened : List (Objects V)) (db : Database V) : Prop where
  stack :
    ∃ own below, db.undoDb.stack = own ++ below ∧
      Chain own opened db.objs ∧ (depth < own.length ∨ below = [])
  active :
    db.undoDb.activeSessions = base.undoDb.activeSessions + 1 + depth
  enabled : db.undoDb.disabled = false
  formed : WellFormed schema db.objs
  openedFormed : ∀ objs ∈ opened, WellFormed schema objs

namespace Inside

variable {base db after : Database V} {depth : Nat}
  {opened : List (Objects V)}

theorem start {forceEnable : Bool}
    (enabled : base.undoDb.disabled = false ∨ forceEnable = true)
    (formed : WellFormed schema base.objs) :
    Inside schema base 0 [base.objs]
      (startUndoSession forceEnable base) := by
  have taken : (base.undoDb.disabled && !forceEnable) = false := by
    rcases enabled with enabled | forced
    · simp [enabled]
    · simp [forced]
  have staysEnabled :
      (if forceEnable = true then false
        else base.undoDb.disabled) = false := by
    rcases enabled with enabled | forced
    · simp [enabled]
    · simp [forced]
  simp only [startUndoSession, taken, Bool.false_eq_true, if_false]
  exact
    { stack :=
        ⟨[UndoState.empty], base.undoDb.stack.take base.undoDb.maxSize,
          rfl, ⟨Records.opened base.objs, trivial⟩, Or.inl (by simp)⟩
      active := rfl
      enabled := staysEnabled
      formed := formed
      openedFormed := by simpa using formed }

/-- A change of the objects that the recording function follows keeps the
invariant. -/
theorem record {objs : Objects V} {change : UndoState V → UndoState V}
    (inside : Inside schema base depth opened db)
    (follows :
      ∀ state old, WellFormed schema old → Records state old db.objs →
        Records (change state) old objs)
    (formed : WellFormed schema objs) :
    Inside schema base depth (reopened opened db)
      ⟨objs, db.undoDb.record change⟩ := by
  obtain ⟨own, below, stackEq, chain, depthBound⟩ := inside.stack
  have recorded :
      db.undoDb.record change =
        db.undoDb.setBack (change db.undoDb.backOrNew) := by
    simp [UndoDatabase.record, inside.enabled]
  rcases chain.nil_or_cons with ⟨rfl, rfl⟩ |
    ⟨state, older, snapshot, earlier, rfl, rfl, records, rest⟩
  · have noneBelow : below = [] := by simpa using depthBound
    have emptyStack : db.undoDb.stack = [] := by
      simp [stackEq, noneBelow]
    refine
      { stack := ⟨[change UndoState.empty], [], ?_, ?_, Or.inr rfl⟩
        active := by rw [recorded]; exact inside.active
        enabled := by rw [recorded]; exact inside.enabled
        formed := formed
        openedFormed := by
          simpa [reopened, emptyStack] using inside.formed }
    · simp [recorded, UndoDatabase.setBack, UndoDatabase.backOrNew,
        emptyStack]
    · simp only [reopened, emptyStack, List.isEmpty_nil, if_true]
      exact
        ⟨follows _ _ inside.formed (Records.opened db.objs), trivial⟩
  · have notEmpty : db.undoDb.stack.isEmpty = false := by
      simp [stackEq]
    have sameOpened :
        reopened (snapshot :: earlier) db =
          snapshot :: earlier := by
      simp [reopened, notEmpty]
    rw [sameOpened]
    refine
      { stack := ⟨change state :: older, below, ?_, ?_, depthBound⟩
        active := by rw [recorded]; exact inside.active
        enabled := by rw [recorded]; exact inside.enabled
        formed := formed
        openedFormed := inside.openedFormed }
    · simp [recorded, UndoDatabase.setBack, UndoDatabase.backOrNew,
        stackEq]
    · exact
        ⟨follows _ _
          (inside.openedFormed snapshot List.mem_cons_self) records,
          rest⟩

theorem create {index : IndexId} {value : V}
    (inside : Inside schema base depth opened db)
    (returns : create schema index value db = .ok after) :
    Inside schema base depth (reopened opened db) after := by
  simp only [Db.create] at returns
  split at returns
  · rename_i admitted
    cases returns
    exact inside.record
      (fun state old formed records =>
        records.create formed inside.formed index value)
      (inside.formed.create admitted)
  · cases returns

theorem modify {id : ObjectId} {callback : Callback V}
    (inside : Inside schema base depth opened db)
    (returns : modify schema id callback db = .ok after) :
    Inside schema base depth (reopened opened db) after := by
  obtain ⟨value, present, ⟨admitted, _⟩, rfl⟩ :=
    modify_eq_ok.mp returns
  exact inside.record
    (fun state old formed records => records.modify present)
    (inside.formed.modify present admitted)

theorem remove {id : ObjectId} (inside : Inside schema base depth opened db)
    (returns : remove id db = .ok after) :
    Inside schema base depth (reopened opened db) after := by
  unfold Db.remove at returns
  split at returns
  · cases returns
  · rename_i value present
    cases returns
    exact inside.record
      (fun state old formed records => records.remove present)
      (inside.formed.drop id)

theorem resize (maxSize : Nat) (inside : Inside schema base depth opened db) :
    Inside schema base depth opened (setMaxSize maxSize db) :=
  { inside with }

theorem nest (forceEnable : Bool)
    (inside : Inside schema base depth opened db) :
    Inside schema base (depth + 1)
      (db.objs :: opened.take db.undoDb.maxSize)
      (startUndoSession forceEnable db) := by
  obtain ⟨own, below, stackEq, chain, depthBound⟩ := inside.stack
  simp only [startUndoSession, inside.enabled, Bool.false_and,
    Bool.false_eq_true, if_false, ite_self]
  refine
    { stack :=
        ⟨UndoState.empty :: own.take db.undoDb.maxSize,
          below.take (db.undoDb.maxSize - own.length), ?_, ?_, ?_⟩
      active := by
        simp only [inside.active]
        omega
      enabled := rfl
      formed := inside.formed
      openedFormed := ?_ }
  · rw [stackEq, List.take_append]
    rfl
  · exact ⟨Records.opened db.objs, chain.take db.undoDb.maxSize⟩
  · rcases depthBound with deep | noneBelow
    · by_cases fits : own.length ≤ db.undoDb.maxSize
      · left
        simp only [List.length_cons, List.take_of_length_le fits]
        omega
      · right
        have nothing : db.undoDb.maxSize - own.length = 0 := by omega
        rw [nothing, List.take_zero]
    · right
      simp [noneBelow]
  · intro objs member
    rcases List.mem_cons.mp member with same | older
    · exact same ▸ inside.formed
    · exact inside.openedFormed objs (List.mem_of_mem_take older)

/-- Inside a nested session `merge` finds the state of the session around it
just below its own, or throws. -/
theorem merge (inside : Inside schema base (depth + 1) opened db)
    (returns : merge walk db = .ok after) :
    Inside schema base depth opened.tail after := by
  obtain ⟨own, below, stackEq, chain, depthBound⟩ := inside.stack
  have active := inside.active
  have notLast :
      ¬ (db.undoDb.activeSessions = 1 ∧ db.undoDb.stack.length = 1) := by
    omega
  have someActive : db.undoDb.activeSessions ≠ 0 := by omega
  simp only [Db.merge, if_neg someActive, if_neg notLast] at returns
  rcases chain.nil_or_cons with ⟨rfl, rfl⟩ |
    ⟨child, states, middle, snapshots, rfl, rfl, childRecords, chain⟩
  · have noneBelow : below = [] := by simpa using depthBound
    simp [stackEq, noneBelow] at returns
  · rcases chain.nil_or_cons with ⟨rfl, rfl⟩ |
      ⟨parent, older, snapshot, earlier, rfl, rfl, parentRecords, rest⟩
    · have noneBelow : below = [] := by simpa using depthBound
      simp [stackEq, noneBelow] at returns
    · simp only [stackEq, List.cons_append, Outcome.ok.injEq] at returns
      subst returns
      have snapshotFormed :=
        inside.openedFormed snapshot (by simp)
      have merged : Records (mergeStates walk parent child) snapshot db.objs :=
        parentRecords.merge childRecords snapshotFormed
          (mergeStates_mergedWith parent child)
      exact
        { stack :=
            ⟨mergeStates walk parent child :: older, below, rfl,
              ⟨merged, rest⟩, by
                simpa [Nat.succ_lt_succ_iff] using depthBound⟩
          active := by
            simp only
            omega
          enabled := inside.enabled
          formed := inside.formed
          openedFormed := fun objs member =>
            inside.openedFormed objs (List.mem_of_mem_tail member) }

theorem commit (inside : Inside schema base (depth + 1) opened db)
    (returns : commit db = .ok after) :
    Inside schema base depth opened after := by
  obtain ⟨own, below, stackEq, chain, depthBound⟩ := inside.stack
  unfold Db.commit at returns
  split at returns
  · cases returns
    have active := inside.active
    exact
      { inside with
        stack :=
          ⟨own, below, stackEq, chain, by
            rcases depthBound with deep | noneBelow
            · exact Or.inl (by omega)
            · exact Or.inr noneBelow⟩
        active := by
          simp only
          omega }
  · cases returns

theorem back (inside : Inside schema base depth opened db) :
    (db.undoDb.stack = [] ∧ opened = []) ∨
    ∃ state states snapshot snapshots below,
      db.undoDb.stack = state :: (states ++ below) ∧
      opened = snapshot :: snapshots ∧
      Records state snapshot db.objs ∧
      Chain states snapshots snapshot ∧
      (depth < states.length + 1 ∨ below = []) := by
  obtain ⟨own, below, stackEq, chain, depthBound⟩ := inside.stack
  rcases chain.nil_or_cons with ⟨rfl, rfl⟩ |
    ⟨state, older, snapshot, earlier, rfl, rfl, records, rest⟩
  · have noneBelow : below = [] := by simpa using depthBound
    exact Or.inl ⟨by simp [stackEq, noneBelow], rfl⟩
  · exact Or.inr
      ⟨state, older, snapshot, earlier, below, stackEq, rfl, records,
        rest, depthBound⟩

end Inside

/-- The restoring loops are not refused on the state on the back of the
stack. -/
def UndoesFreely (schema : Schema V) (walk : IterationOrder)
    (db : Database V) : Prop :=
  ∀ state ∈ db.undoDb.stack.head?,
    RestoresFreely schema state db.objs
      (walk.order state.oldValues.entries)

theorem undoesFreely_iff {db : Database V} {state : UndoState V}
    {older : List (UndoState V)} (stackEq : db.undoDb.stack = state :: older) :
    UndoesFreely schema walk db ↔
      RestoresFreely schema state db.objs
        (walk.order state.oldValues.entries) := by
  simp [UndoesFreely, stackEq]

section Undo

variable {base db after : Database V} {depth : Nat}
  {opened : List (Objects V)} {state : UndoState V}
  {older : List (UndoState V)} {snapshot : Objects V}

/-- `undo` on a stack whose back records the way from `snapshot`. -/
theorem undo_of_back (walk : IterationOrder) (db : Database V)
    (enabled : db.undoDb.disabled = false)
    (active : db.undoDb.activeSessions ≠ 0)
    (stackEq : db.undoDb.stack = state :: older)
    (records : Records state snapshot db.objs)
    (formed : WellFormed schema snapshot) :
    (UndoesFreely schema walk db ∧
      ∃ objs, SameObjects objs snapshot ∧
        undo schema walk db =
          .ok
            { objs := objs
              undoDb :=
                { activeSessions := db.undoDb.activeSessions - 1
                  disabled := false
                  stack := older
                  maxSize := db.undoDb.maxSize } }) ∨
    (¬ UndoesFreely schema walk db ∧
      (undo schema walk db).returned = false) := by
  have loops :=
    restore_spec walk (setDisabled true db) records formed rfl
  rw [undoesFreely_iff stackEq]
  rcases loops with ⟨free, objs, returns, same⟩ | ⟨stuck, fails⟩
  · refine Or.inl ⟨free, objs, same, ?_⟩
    simp only [undo, enabled, active, stackEq, returns,
      Bool.false_eq_true, if_false, Outcome.bind_ok]
    simp [setDisabled, stackEq]
  · refine Or.inr ⟨stuck, ?_⟩
    cases outcome : restore schema walk state (setDisabled true db) with
    | ok left =>
        simp [outcome] at fails
    | throw fault left =>
        simp [undo, enabled, active, stackEq, outcome]

/-- `pop_commit` on a stack whose back records the way from `snapshot`. -/
theorem popCommit_of_back (walk : IterationOrder) (db : Database V)
    (idle : db.undoDb.activeSessions = 0)
    (stackEq : db.undoDb.stack = state :: older)
    (records : Records state snapshot db.objs)
    (formed : WellFormed schema snapshot) :
    (UndoesFreely schema walk db ∧
      ∃ objs, SameObjects objs snapshot ∧
        popCommit schema walk db =
          .ok
            { objs := objs
              undoDb :=
                { db.undoDb with disabled := false, stack := older } }) ∨
    (¬ UndoesFreely schema walk db ∧
      (popCommit schema walk db).returned = false) := by
  have loops :=
    restore_spec walk (setDisabled true db) records formed rfl
  rw [undoesFreely_iff stackEq]
  rcases loops with ⟨free, objs, returns, same⟩ | ⟨stuck, fails⟩
  · refine Or.inl ⟨free, objs, same, ?_⟩
    simp only [popCommit, idle, stackEq, returns, if_true]
    simp [setDisabled, popBack, stackEq, idle]
  · refine Or.inr ⟨stuck, ?_⟩
    cases outcome : restore schema walk state (setDisabled true db) with
    | ok left =>
        simp [outcome] at fails
    | throw fault left =>
        simp [popCommit, idle, stackEq, outcome]

theorem Inside.undo (inside : Inside schema base (depth + 1) opened db)
    (returns : undo schema walk db = .ok after) :
    Inside schema base depth opened.tail after := by
  have active := inside.active
  rcases inside.back with ⟨emptyStack, _⟩ |
    ⟨state, states, snapshot, snapshots, below, stackEq, rfl, records,
      chain, depthBound⟩
  · simp [Db.undo, inside.enabled, emptyStack] at returns
    split at returns
    · cases returns
    · cases returns
  · have snapshotFormed :=
      inside.openedFormed snapshot List.mem_cons_self
    rcases undo_of_back walk db inside.enabled (by omega) stackEq
        records snapshotFormed with ⟨_, objs, same, undone⟩ | ⟨_, fails⟩
    · rw [undone, Outcome.ok.injEq] at returns
      subst returns
      exact
        { stack :=
            ⟨states, below, rfl, chain.congr same.symm, by
              rcases depthBound with deep | noneBelow
              · exact Or.inl (by omega)
              · exact Or.inr noneBelow⟩
          active := by
            simp only
            omega
          enabled := rfl
          formed := snapshotFormed.congr same.symm
          openedFormed := fun objs member =>
            inside.openedFormed objs (List.mem_cons_of_mem _ member) }
    · rw [returns] at fails
      cases fails

theorem InSession.inside (formed : WellFormed schema base.objs)
    (run : InSession schema walk base depth opened db) :
    Inside schema base depth opened db := by
  induction run with
  | start forceEnable enabled => exact Inside.start enabled formed
  | create index value _ returns inside => exact inside.create returns
  | modify id callback _ returns inside => exact inside.modify returns
  | remove id _ returns inside => exact inside.remove returns
  | resize maxSize _ inside => exact inside.resize maxSize
  | nest forceEnable _ inside => exact inside.nest forceEnable
  | merge _ returns inside => exact inside.merge returns
  | commit _ returns inside => exact inside.commit returns
  | undo _ returns inside => exact inside.undo returns

/-- `undo` on the session gives back the objects and the id counters of its
start, and so does `pop_commit` once the session is committed. -/
def UndoIsExact (schema : Schema V) (walk : IterationOrder)
    (base db : Database V) : Prop :=
  (∃ left, undo schema walk db = .ok left ∧
    SameObjects left.objs base.objs) ∧
  (base.undoDb.activeSessions = 0 →
    ∃ committed left, commit db = .ok committed ∧
      popCommit schema walk committed = .ok left ∧
      SameObjects left.objs base.objs)

/-- Undo of a session is exact exactly when the state on the back of the stack
was opened at the objects of the session's start, and none of the values it
restores is refused. -/
theorem undo_exact_iff
    (formed : WellFormed schema base.objs)
    (run : InSession schema walk base 0 opened db) :
    UndoIsExact schema walk base db ↔
      (∃ snapshot ∈ opened.head?, SameObjects snapshot base.objs) ∧
        UndoesFreely schema walk db := by
  have inside := run.inside formed
  have active : db.undoDb.activeSessions ≠ 0 := by
    rw [inside.active]
    omega
  rcases inside.back with ⟨emptyStack, noneOpened⟩ |
    ⟨state, states, snapshot, snapshots, below, stackEq, rfl, records,
      _, _⟩
  · constructor
    · rintro ⟨⟨left, returns, _⟩, _⟩
      simp [undo, inside.enabled, active, emptyStack] at returns
    · rintro ⟨⟨snapshot, isBack, _⟩, _⟩
      simp [noneOpened] at isBack
  · have snapshotFormed :=
      inside.openedFormed snapshot List.mem_cons_self
    have undone :=
      undo_of_back walk db inside.enabled active stackEq records
        snapshotFormed
    simp only [List.head?_cons, Option.mem_def, Option.some.injEq,
      exists_eq_left']
    constructor
    · rintro ⟨⟨left, returns, sameBase⟩, _⟩
      rcases undone with ⟨free, objs, same, returned⟩ | ⟨_, fails⟩
      · rw [returned, Outcome.ok.injEq] at returns
        subst returns
        exact ⟨same.symm.trans sameBase, free⟩
      · rw [returns] at fails
        cases fails
    · rintro ⟨sameBase, free⟩
      constructor
      · rcases undone with ⟨_, objs, same, returned⟩ | ⟨stuck, _⟩
        · exact ⟨_, returned, same.trans sameBase⟩
        · exact absurd free stuck
      · intro outermost
        have committed :
            commit db =
              .ok
                { db with
                  undoDb :=
                    { db.undoDb with
                      activeSessions :=
                        db.undoDb.activeSessions - 1 } } := by
          simp [commit, Nat.pos_of_ne_zero active]
        have idle : db.undoDb.activeSessions - 1 = 0 := by
          rw [inside.active]
          omega
        rcases popCommit_of_back walk
            { db with
              undoDb :=
                { db.undoDb with
                  activeSessions := db.undoDb.activeSessions - 1 } }
            idle stackEq records snapshotFormed with
          ⟨_, objs, same, popped⟩ | ⟨stuck, _⟩
        · exact ⟨_, _, committed, popped, same.trans sameBase⟩
        · exact absurd free stuck

end Undo

def assetIndex : IndexId :=
  ⟨1, 3⟩

def symbolSchema : Schema Nat where
  Key := Nat
  keyEq := inferInstance
  uniqueKeys := fun _ => [id]

/-- One asset, with the symbol 1, and undo enabled. -/
def oneAsset : Database Nat where
  objs :=
    { objects := AList.singleton ⟨assetIndex, 0⟩ 1
      nextId := fun index => if index = assetIndex then 1 else 0 }
  undoDb := ⟨0, false, [], 4⟩

/-- The asset gets the symbol 2. -/
def renameAsset : Database Nat → Outcome Fault (Database Nat) :=
  modify symbolSchema ⟨assetIndex, 0⟩ fun _ => (2, none)

/-- A second asset takes the symbol 1. -/
def reissueSymbol : Database Nat → Outcome Fault (Database Nat) :=
  create symbolSchema assetIndex 1

theorem oneAsset_wellFormed : WellFormed symbolSchema oneAsset.objs :=
  .of_entries (by decide) (by decide)

theorem oneAsset_renamed :
    InSession symbolSchema .asListed oneAsset 0 [oneAsset.objs]
      (renameAsset (startUndoSession false oneAsset)).state :=
  .modify ⟨assetIndex, 0⟩ (fun _ => (2, none)) (.start false (Or.inl rfl)) rfl

/-- Renaming the asset alone is undone exactly. -/
theorem undo_exact_rename :
    ∃ opened db,
      InSession symbolSchema .asListed oneAsset 0 opened db ∧
      UndoIsExact symbolSchema .asListed oneAsset db := by
  refine ⟨_, _, oneAsset_renamed,
    (undo_exact_iff oneAsset_wellFormed oneAsset_renamed).mpr ?_⟩
  refine ⟨⟨oneAsset.objs, rfl, SameObjects.refl _⟩, ?_⟩
  rw [undoesFreely_iff rfl]
  refine restoresFreely_cons.mpr ⟨?_, restoresFreely_nil _ _⟩
  rintro other found _ (isNew | isLater)
  · cases isNew
  · cases isLater

/-- An asset is renamed and its old symbol given to a new asset: the session
cannot be undone. -/
theorem undo_refused_reissue :
    ∃ opened db,
      InSession symbolSchema .asListed oneAsset 0 opened db ∧
      ¬ UndoIsExact symbolSchema .asListed oneAsset db := by
  have reissued :
      InSession symbolSchema .asListed oneAsset 0 [oneAsset.objs]
        (reissueSymbol
          (renameAsset (startUndoSession false oneAsset)).state).state :=
    .create assetIndex 1 oneAsset_renamed rfl
  refine ⟨_, _, reissued, ?_⟩
  rintro ⟨⟨left, returns, _⟩, _⟩
  have refused :
      (undo symbolSchema .asListed
        (reissueSymbol
          (renameAsset
            (startUndoSession false oneAsset)).state).state).returned =
        false := by
    decide
  rw [returns] at refused
  cases refused

section Merge

variable {base db : Database V} {depth : Nat}
  {opened : List (Objects V)} {child parent : UndoState V}
  {older : List (UndoState V)}

/-- Undoing the child and then the parent, and undoing what `merge` made of
them, both return and leave the same objects and id counters. -/
def MergeIsComposition (schema : Schema V) (walk : IterationOrder)
    (db : Database V) : Prop :=
  ∃ childUndone bothUndone merged mergedUndone,
    undo schema walk db = .ok childUndone ∧
    undo schema walk childUndone = .ok bothUndone ∧
    merge walk db = .ok merged ∧
    undo schema walk merged = .ok mergedUndone ∧
    SameObjects mergedUndone.objs bothUndone.objs

/-- Inside a nested session two states at the back of the stack are both of the
session, and the child was opened on the objects the parent led to. -/
theorem Inside.adjacent (inside : Inside schema base (depth + 1) opened db)
    (stackEq : db.undoDb.stack = child :: parent :: older) :
    ∃ middle snapshot snapshots,
      opened = middle :: snapshot :: snapshots ∧
      Records child middle db.objs ∧ Records parent snapshot middle ∧
      WellFormed schema middle ∧ WellFormed schema snapshot := by
  rcases inside.back with ⟨emptyStack, _⟩ |
    ⟨state, states, middle, snapshots, below, shape, rfl, records, chain,
      depthBound⟩
  · simp [emptyStack] at stackEq
  · rw [shape, List.cons.injEq] at stackEq
    obtain ⟨rfl, rest⟩ := stackEq
    rcases chain.nil_or_cons with ⟨rfl, rfl⟩ |
      ⟨second, states, snapshot, earlier, rfl, rfl, parentRecords, _⟩
    · have noneBelow : below = [] := by simpa using depthBound
      simp [noneBelow] at rest
    · simp only [List.cons_append, List.cons.injEq] at rest
      obtain ⟨rfl, _⟩ := rest
      exact
        ⟨middle, snapshot, earlier, rfl, records, parentRecords,
          inside.openedFormed middle (by simp),
          inside.openedFormed snapshot (by simp)⟩

theorem restoresFreely_congr {state : UndoState V} {left right : Objects V}
    {items : List (Σ _ : ObjectId, V)} (same : SameObjects left right) :
    RestoresFreely schema state left items ↔
      RestoresFreely schema state right items := by
  unfold RestoresFreely
  rw [same.find]

/-- For two adjacent states of nested sessions, `merge` composes the undos
exactly when none of the three undos is refused: of the child, of the parent
from the objects at which the child was opened, and of the merged state. -/
theorem merge_composes_iff
    (formed : WellFormed schema base.objs)
    (run : InSession schema walk base (depth + 1) opened db)
    (stackEq : db.undoDb.stack = child :: parent :: older) :
    MergeIsComposition schema walk db ↔
      RestoresFreely schema child db.objs
        (walk.order child.oldValues.entries) ∧
      (∀ middle ∈ opened.head?,
        RestoresFreely schema parent middle
          (walk.order parent.oldValues.entries)) ∧
      RestoresFreely schema (mergeStates walk parent child) db.objs
        (walk.order (mergeStates walk parent child).oldValues.entries) := by
  have inside := run.inside formed
  have active := inside.active
  obtain ⟨middle, snapshot, snapshots, rfl, childRecords, parentRecords,
      middleFormed, snapshotFormed⟩ :=
    inside.adjacent stackEq
  have mergedEq :
      merge walk db =
        .ok
          { db with
            undoDb :=
              { db.undoDb with
                stack := mergeStates walk parent child :: older
                activeSessions := db.undoDb.activeSessions - 1 } } := by
    have someActive : db.undoDb.activeSessions ≠ 0 := by omega
    simp [merge, someActive, stackEq]
  have undoChild :=
    undo_of_back walk db inside.enabled (by omega) stackEq
      childRecords middleFormed
  have undoMerged :=
    undo_of_back walk
      { db with
        undoDb :=
          { db.undoDb with
            stack := mergeStates walk parent child :: older
            activeSessions := db.undoDb.activeSessions - 1 } }
      inside.enabled (by simp only; omega) rfl
      (parentRecords.merge childRecords snapshotFormed
        (mergeStates_mergedWith parent child))
      snapshotFormed
  rw [undoesFreely_iff stackEq] at undoChild
  rw [undoesFreely_iff rfl] at undoMerged
  simp only [List.head?_cons, Option.mem_def, Option.some.injEq,
    forall_eq']
  rcases undoChild with
    ⟨childFree, objs, sameMiddle, childReturns⟩ | ⟨childStuck, childFails⟩
  · have undoParent :=
      undo_of_back walk
        { objs := objs
          undoDb :=
            { activeSessions := db.undoDb.activeSessions - 1
              disabled := false
              stack := parent :: older
              maxSize := db.undoDb.maxSize } }
        rfl (by simp only; omega) rfl
        (parentRecords.congr (SameObjects.refl snapshot)
          sameMiddle.symm)
        snapshotFormed
    rw [undoesFreely_iff rfl, restoresFreely_congr sameMiddle]
      at undoParent
    constructor
    · rintro ⟨childUndone, bothUndone, merged, mergedUndone, first,
        second, third, fourth, _⟩
      rw [childReturns, Outcome.ok.injEq] at first
      subst first
      rw [mergedEq, Outcome.ok.injEq] at third
      subst third
      refine ⟨childFree, ?_, ?_⟩
      · rcases undoParent with ⟨free, _⟩ | ⟨_, fails⟩
        · exact free
        · rw [second] at fails
          cases fails
      · rcases undoMerged with ⟨free, _⟩ | ⟨_, fails⟩
        · exact free
        · rw [fourth] at fails
          cases fails
    · rintro ⟨_, parentFree, mergedFree⟩
      rcases undoParent with
        ⟨_, bothObjs, sameBoth, parentReturns⟩ | ⟨stuck, _⟩
      · rcases undoMerged with
          ⟨_, mergedObjs, sameMerged, mergedReturns⟩ | ⟨stuck, _⟩
        · exact
            ⟨_, _, _, _, childReturns, parentReturns, mergedEq,
              mergedReturns, sameMerged.trans sameBoth.symm⟩
        · exact absurd mergedFree stuck
      · exact absurd parentFree stuck
  · constructor
    · rintro ⟨childUndone, _, _, _, first, _⟩
      rw [first] at childFails
      cases childFails
    · rintro ⟨childFree, _⟩
      exact absurd childFree childStuck

/-- A parent session that renames an asset, and a child that removes it. -/
theorem merge_composes_rename_remove :
    ∃ opened db,
      InSession symbolSchema .asListed oneAsset 1 opened db ∧
      MergeIsComposition symbolSchema .asListed db := by
  have removed :
      InSession symbolSchema .asListed oneAsset 1
        [(renameAsset (startUndoSession false oneAsset)).state.objs,
          oneAsset.objs]
        (remove ⟨assetIndex, 0⟩
          (startUndoSession false
            (renameAsset
              (startUndoSession false oneAsset)).state)).state :=
    .remove ⟨assetIndex, 0⟩ (.nest false oneAsset_renamed) rfl
  refine
    ⟨_, _, removed,
      (merge_composes_iff oneAsset_wellFormed removed rfl).mpr ?_⟩
  refine ⟨restoresFreely_nil _ _, ?_, restoresFreely_nil _ _⟩
  intro middle _
  refine restoresFreely_cons.mpr ⟨?_, restoresFreely_nil _ _⟩
  rintro other found _ (isNew | isLater)
  · cases isNew
  · cases isLater

/-- A parent session that renames an asset, and a child that gives its old
symbol to a new one: one undo after the other works, the merged one does
not. -/
theorem merge_refused_reissue :
    ∃ opened db,
      InSession symbolSchema .asListed oneAsset 1 opened db ∧
      ((undo symbolSchema .asListed db).bind
        (undo symbolSchema .asListed)).returned = true ∧
      ¬ MergeIsComposition symbolSchema .asListed db := by
  have reissued :
      InSession symbolSchema .asListed oneAsset 1
        [(renameAsset (startUndoSession false oneAsset)).state.objs,
          oneAsset.objs]
        (reissueSymbol
          (startUndoSession false
            (renameAsset
              (startUndoSession false oneAsset)).state)).state :=
    .create assetIndex 1 (.nest false oneAsset_renamed) rfl
  refine ⟨_, _, reissued, by decide, ?_⟩
  rintro ⟨childUndone, bothUndone, merged, mergedUndone, _, _, third,
    fourth, _⟩
  have refused :
      ((merge .asListed
        (reissueSymbol
          (startUndoSession false
            (renameAsset
              (startUndoSession false oneAsset)).state)).state).bind
        (undo symbolSchema .asListed)).returned = false := by
    decide
  rw [third, Outcome.bind_ok, fourth] at refused
  cases refused

end Merge

end GxbCore.Db
