import GxbCore.Db.SecondaryIndexes

/-!
# Modifications that fail

A modification fails when its lambda throws, or when the container drops the
element because a unique key of its new contents is taken.  The exception
reaches the caller, and it is left to the undo of the session to take the
changes back.

What was dropped cannot be restored: undo looks the object up by its id.  And
a secondary index has not heard of the contents that the lambda has left.
-/

namespace GxbCore.Db

universe u

variable {V : Type} {β : Type u} [DecidableEq β] {schema : Schema V}
  {members : ObjectId → V → Finset β} {walk : IterationOrder}

namespace Indexed

section Undo

variable {state after : Indexed V β} {back : UndoState V} {old : Objects V}
  {id : ObjectId}

/-- Undo makes the row right: what it has too much is among the members that the
object has now, and what it has too little is not. -/
def Mends (row current was : Finset β) : Prop :=
  row \ was ⊆ current ∧ current ∩ was ⊆ row

theorem mends_of_row (row was : Finset β) : Mends row row was :=
  ⟨Finset.sdiff_subset, Finset.inter_subset_left⟩

theorem seenAt_restoreNextIds {items : List (Σ _ : IndexId, ObjectId)}
    (returns :
      forEach (fun item => onDb (restoreNextId item)) items state =
        .ok after) : seenAt after id = seenAt state id := by
  have kept :=
    @forEach_state_keeps _ _ _ (fun item => onDb (restoreNextId item))
      (fun left : Indexed V β => seenAt left id = seenAt state id) items
      state (fun item _ before same => same) rfl
  rw [returns] at kept
  exact kept

theorem walk_mem {κ : Type} {γ : Type} [DecidableEq κ]
    {table : AList (fun _ : κ => γ)} {key : κ} {value : γ} :
    (⟨key, value⟩ : Σ _ : κ, γ) ∈ walk.order table.entries ↔
      table.lookup key = some value :=
  (walk.perm table.entries).mem_iff.trans AList.mem_lookup_iff.symm

theorem row_restore_iff (records : Records back old state.db.objs)
    (returns : restore schema members walk back state = .ok after) :
    after.memberships.row id = membersAt members old id ↔
      Mends (state.memberships.row id)
        (membersAt members state.db.objs id) (membersAt members old id) := by
  rw [restore, Outcome.bind_eq_ok] at returns
  obtain ⟨first, restored, returns⟩ := returns
  rw [Outcome.bind_eq_ok] at returns
  obtain ⟨second, removed, returns⟩ := returns
  rw [Outcome.bind_eq_ok] at returns
  obtain ⟨third, counted, inserted⟩ := returns
  -- each loop touches the ids of its table
  obtain ⟨othersOld, ownOld⟩ :=
    @forEach_keyed _ _ _ _ _ seenAt _
      (fun item before after =>
        ∃ value index, before.2 = some value ∧
          Memberships.row index item.1 = before.1 ∧
          after.1 =
            (Memberships.change (members item.1 value)
              (members item.1 item.2) item.1 index).row item.1)
      _ _ _
      (fun item before after modified => by
        obtain ⟨only, value, found, _, row⟩ := modify_spec modified
        exact ⟨only, value, before.memberships, found, rfl, row⟩)
      (walk_keys_nodup back.oldValues) restored
  obtain ⟨othersNew, ownNew⟩ :=
    @forEach_keyed _ _ _ _ _ seenAt _
      (fun item before after =>
        ∃ value, before.2 = some value ∧
          after.1 = before.1 \ members item.1 value)
      _ _ _
      (fun item before after isRemoved => by
        obtain ⟨only, value, found, _, row⟩ := remove_spec isRemoved
        exact ⟨only, value, found, row⟩)
      (walk_keys_nodup back.newIds) removed
  have sameCounted : seenAt third id = seenAt second id :=
    seenAt_restoreNextIds counted
  obtain ⟨othersRemoved, ownRemoved⟩ :=
    @forEach_keyed _ _ _ _ _ seenAt _
      (fun item before after =>
        after.1 = before.1 ∪ members item.1 item.2)
      _ _ _
      (fun item before after isInserted => by
        obtain ⟨only, _, row⟩ := insert_spec isInserted
        exact ⟨only, row⟩)
      (walk_keys_nodup back.removed) inserted
  have notKey : ∀ {γ : Type} {table : AList (fun _ : ObjectId => γ)},
      id ∉ table → id ∉ (walk.order table.entries).keys := by
    intro γ table absent inWalk
    exact absent ((walk_keys_mem table id).mp inWalk)
  by_cases isNew : id ∈ back.newIds
  · obtain ⟨notOld, notRemoved⟩ := records.newOnly id isNew
    have sameFirst := othersOld id (notKey notOld)
    obtain ⟨_, recorded⟩ :=
      Option.isSome_iff_exists.mp (AList.lookup_isSome.mpr isNew)
    obtain ⟨value, found, row⟩ := ownNew ⟨id, ()⟩ (walk_mem.mpr recorded)
    have sameLast := othersRemoved id (notKey notRemoved)
    rw [sameFirst] at found row
    rw [seenAt_row sameLast, seenAt_row sameCounted,
      membersAt_of_none (records.old_of_new isNew),
      membersAt_of_find found]
    have isRow : second.memberships.row id =
        state.memberships.row id \ members id value := row
    rw [isRow, Mends, Finset.sdiff_eq_empty_iff_subset, Finset.sdiff_empty,
      Finset.inter_empty]
    simp
  · have sameSecond := othersNew id (notKey isNew)
    cases recorded : back.oldValues.lookup id with
    | some value =>
        have isOld : id ∈ back.oldValues :=
          AList.lookup_isSome.mp (by rw [recorded]; rfl)
        have notRemoved : id ∉ back.removed := by
          intro isRemoved
          have present := records.oldPresent id isOld
          rw [records.removedAbsent id isRemoved] at present
          cases present
        have sameLast := othersRemoved id (notKey notRemoved)
        obtain ⟨current, index, found, isRow, row⟩ :=
          ownOld ⟨id, value⟩ (walk_mem.mpr recorded)
        rw [seenAt_row sameLast, seenAt_row sameCounted,
          seenAt_row sameSecond,
          membersAt_of_find (records.old_of_oldValue recorded),
          membersAt_of_find found]
        have changed : first.memberships.row id =
            (Memberships.change (members id current) (members id value) id
              index).row id := row
        have isRowState : index.row id = state.memberships.row id := isRow
        rw [changed, Memberships.row_change_eq_iff, isRowState, Mends]
    | none =>
        have notOld : id ∉ back.oldValues := AList.lookup_eq_none.mp recorded
        have sameFirst := othersOld id (notKey notOld)
        have sameRow : third.memberships.row id =
            state.memberships.row id := by
          rw [seenAt_row sameCounted, seenAt_row sameSecond,
            seenAt_row sameFirst]
        cases removedOld : back.removed.lookup id with
        | some value =>
            have isRemoved : id ∈ back.removed :=
              AList.lookup_isSome.mp (by rw [removedOld]; rfl)
            have row := ownRemoved ⟨id, value⟩ (walk_mem.mpr removedOld)
            have isRow : after.memberships.row id =
                third.memberships.row id ∪ members id value := row
            rw [isRow, sameRow,
              membersAt_of_find (records.old_of_removed removedOld),
              membersAt_of_none (records.removedAbsent id isRemoved), Mends,
              Finset.union_eq_right, Finset.subset_empty,
              Finset.sdiff_eq_empty_iff_subset, Finset.empty_inter]
            simp
        | none =>
            have notRemoved : id ∉ back.removed :=
              AList.lookup_eq_none.mp removedOld
            have sameLast := othersRemoved id (notKey notRemoved)
            have sameObject :
                membersAt members state.db.objs id =
                  membersAt members old id := by
              rw [membersAt, membersAt,
                records.old_of_untouched isNew notOld notRemoved]
            rw [seenAt_row sameLast, sameRow, sameObject, Mends,
              Finset.inter_self]
            constructor
            · intro same
              rw [same]
              exact ⟨Finset.sdiff_subset, Finset.Subset.refl _⟩
            · rintro ⟨stale, stays⟩
              refine Finset.Subset.antisymm (fun item member => ?_) stays
              by_contra absent
              exact absent (stale (Finset.mem_sdiff.mpr ⟨member, absent⟩))

/-- The rows after `undo`. -/
theorem row_undo_iff {older : List (UndoState V)}
    (stackEq : state.db.undoDb.stack = back :: older)
    (records : Records back old state.db.objs)
    (returns : undo schema members walk state = .ok after) :
    after.memberships.row id = membersAt members old id ↔
      Mends (state.memberships.row id)
        (membersAt members state.db.objs id) (membersAt members old id) := by
  rw [undo] at returns
  split at returns
  · cases returns
  · split at returns
    · cases returns
    · rw [stackEq] at returns
      obtain ⟨restored, restores, ended⟩ := Outcome.bind_eq_ok.mp returns
      have sameRows : after.memberships = restored.memberships := by
        cases ended
        rfl
      rw [sameRows]
      exact @row_restore_iff _ _ _ _ _ _
        { state with db := setDisabled true state.db } _ _ _ _ records
        restores

end Undo

omit [DecidableEq β] in
theorem db_of_ok {call : Outcome Fault (Database V)}
    {outcome : Outcome Fault (Indexed V β)} {after : Indexed V β}
    (seen : outcome.map Indexed.db = call) (returns : outcome = .ok after) :
    call = .ok after.db := by
  rw [← seen, returns]
  rfl

/-- The objects with their index that a session on `base` reaches, as in
`InSession`. -/
inductive InIndexedSession (schema : Schema V)
    (members : ObjectId → V → Finset β) (walk : IterationOrder)
    (base : Indexed V β) : Nat → List (Objects V) → Indexed V β → Prop
  | start (forceEnable : Bool)
      (enabled : base.db.undoDb.disabled = false ∨ forceEnable = true) :
      InIndexedSession schema members walk base 0 [base.db.objs]
        { base with db := startUndoSession forceEnable base.db }
  | create {depth opened state after} (index : IndexId) (value : V) :
      InIndexedSession schema members walk base depth opened state →
      create schema members index value state = .ok after →
      InIndexedSession schema members walk base depth
        (reopened opened state.db) after
  | modify {depth opened state after} (id : ObjectId)
      (callback : Callback V) :
      InIndexedSession schema members walk base depth opened state →
      modify schema members id callback state = .ok after →
      InIndexedSession schema members walk base depth
        (reopened opened state.db) after
  | remove {depth opened state after} (id : ObjectId) :
      InIndexedSession schema members walk base depth opened state →
      remove members id state = .ok after →
      InIndexedSession schema members walk base depth
        (reopened opened state.db) after
  | resize {depth opened state} (maxSize : Nat) :
      InIndexedSession schema members walk base depth opened state →
      InIndexedSession schema members walk base depth opened
        { state with db := setMaxSize maxSize state.db }
  | nest {depth opened state} (forceEnable : Bool) :
      InIndexedSession schema members walk base depth opened state →
      InIndexedSession schema members walk base (depth + 1)
        (state.db.objs :: opened.take state.db.undoDb.maxSize)
        { state with db := startUndoSession forceEnable state.db }
  | merge {depth opened state after} :
      InIndexedSession schema members walk base (depth + 1) opened state →
      onDb (merge walk) state = .ok after →
      InIndexedSession schema members walk base depth opened.tail after
  | commit {depth opened state after} :
      InIndexedSession schema members walk base (depth + 1) opened state →
      onDb commit state = .ok after →
      InIndexedSession schema members walk base depth opened after
  | undo {depth opened state after} :
      InIndexedSession schema members walk base (depth + 1) opened state →
      undo schema members walk state = .ok after →
      InIndexedSession schema members walk base depth opened.tail after

section Runs

variable {base state after : Indexed V β} {depth : Nat}
  {opened : List (Objects V)} {id : ObjectId} {value : V}

theorem InIndexedSession.objects
    (run : InIndexedSession schema members walk base depth opened state) :
    InSession schema walk base.db depth opened state.db := by
  induction run with
  | start forceEnable enabled => exact .start forceEnable enabled
  | create index value _ returns run =>
      exact .create index value run (db_of_ok (create_db index value) returns)
  | modify id callback _ returns run =>
      exact .modify id callback run (db_of_ok (modify_db callback) returns)
  | remove id _ returns run =>
      exact .remove id run (db_of_ok remove_db returns)
  | resize maxSize _ run => exact .resize maxSize run
  | nest forceEnable _ run => exact .nest forceEnable run
  | merge _ returns run => exact .merge run (db_of_ok (hooked_db _ _) returns)
  | commit _ returns run => exact .commit run (db_of_ok (hooked_db _ _) returns)
  | undo _ returns run => exact .undo run (db_of_ok undo_db returns)

omit [DecidableEq β] in
theorem membersAt_congr {left right : Objects V}
    (same : left.find id = right.find id) :
    membersAt members left id = membersAt members right id := by
  rw [membersAt, membersAt, same]

/-- A call that touches one id keeps the index right when it makes the row of
that id right. -/
theorem Mirrors.changesOnly (mirrors : Mirrors members state)
    (only : ChangesOnly id state after)
    (own : after.memberships.row id = membersAt members after.db.objs id) :
    Mirrors members after := by
  intro other
  by_cases same : other = id
  · rw [same]
    exact own
  · have unchanged := only other same
    rw [seenAt_row unchanged, mirrors other,
      membersAt_congr (seenAt_find unchanged)]

theorem Mirrors.congr (mirrors : Mirrors members state)
    (sameRows : after.memberships = state.memberships)
    (sameObjects : after.db.objs = state.db.objs) : Mirrors members after := by
  intro other
  rw [sameRows, mirrors other, sameObjects]

theorem Mirrors.modify (mirrors : Mirrors members state) {callback : Callback V}
    (returns : modify schema members id callback state = .ok after) :
    Mirrors members after := by
  obtain ⟨only, value, found, foundAfter, row⟩ := modify_spec returns
  refine mirrors.changesOnly only ?_
  rw [row, membersAt_of_find foundAfter]
  exact Memberships.row_change_of_row
    ((mirrors id).trans (membersAt_of_find found))

theorem Mirrors.remove (mirrors : Mirrors members state)
    (returns : remove members id state = .ok after) :
    Mirrors members after := by
  obtain ⟨only, value, found, gone, row⟩ := remove_spec returns
  refine mirrors.changesOnly only ?_
  rw [row, mirrors id, membersAt_of_find found, membersAt_of_none gone,
    Finset.sdiff_self]

theorem Mirrors.create (mirrors : Mirrors members state)
    (formed : WellFormed schema state.db.objs) {index : IndexId}
    (returns : create schema members index value state = .ok after) :
    Mirrors members after := by
  obtain ⟨only, found, row⟩ := create_spec returns
  refine mirrors.changesOnly only ?_
  rw [row, mirrors, membersAt_of_none (formed.find_getNextId index),
    membersAt_of_find found, Finset.empty_union]

theorem Mirrors.undo (mirrors : Mirrors members state)
    (inside : Inside schema base.db (depth + 1) opened state.db)
    (returns : undo schema members walk state = .ok after) :
    Mirrors members after := by
  have undone := db_of_ok undo_db returns
  have active := inside.active
  rcases inside.back with ⟨emptyStack, _⟩ |
    ⟨back, states, snapshot, snapshots, below, stackEq, rfl, records, _, _⟩
  · rw [Db.undo, inside.enabled, emptyStack] at undone
    simp only [Bool.false_eq_true, if_false] at undone
    split at undone
    · cases undone
    · cases undone
  · have snapshotFormed := inside.openedFormed snapshot List.mem_cons_self
    rcases undo_of_back walk state.db inside.enabled (by omega) stackEq
        records snapshotFormed with ⟨_, objs, same, isOk⟩ | ⟨_, fails⟩
    · rw [isOk, Outcome.ok.injEq] at undone
      intro id
      have sameAfter :
          membersAt members after.db.objs id =
            membersAt members snapshot id := by
        rw [← undone]
        exact membersAt_congr (congrFun same.find id)
      rw [sameAfter, row_undo_iff stackEq records returns, mirrors id]
      exact mends_of_row _ _
    · rw [undone] at fails
      cases fails

omit [DecidableEq β] in
theorem startUndoSession_objs (forceEnable : Bool) (db : Database V) :
    (startUndoSession forceEnable db).objs = db.objs := by
  rw [startUndoSession]
  split
  · rfl
  · rfl

/-- Every run inside a session keeps the index right. -/
theorem InIndexedSession.mirrors (formed : WellFormed schema base.db.objs)
    (mirrored : Mirrors members base)
    (run : InIndexedSession schema members walk base depth opened state) :
    Mirrors members state := by
  induction run with
  | start forceEnable _ =>
      exact mirrored.congr rfl (startUndoSession_objs forceEnable base.db)
  | create index value before returns mirrors =>
      exact mirrors.create (before.objects.inside formed).formed returns
  | modify id callback _ returns mirrors => exact mirrors.modify returns
  | remove id _ returns mirrors => exact mirrors.remove returns
  | resize maxSize _ mirrors => exact mirrors.congr rfl rfl
  | @nest _ _ state forceEnable _ mirrors =>
      exact mirrors.congr rfl (startUndoSession_objs forceEnable state.db)
  | @merge _ _ state after _ returns mirrors =>
      obtain ⟨db, merged, rfl⟩ := hooked_eq_ok returns
      refine mirrors.congr rfl ?_
      show db.objs = state.db.objs
      rw [Db.merge] at merged
      split at merged
      · cases merged
      · split at merged
        · cases merged
          rfl
        · split at merged
          · cases merged
            rfl
          · cases merged
  | @commit _ _ state after _ returns mirrors =>
      obtain ⟨db, committed, rfl⟩ := hooked_eq_ok returns
      refine mirrors.congr rfl ?_
      show db.objs = state.db.objs
      rw [Db.commit] at committed
      split at committed
      · cases committed
        rfl
      · cases committed
  | undo before returns mirrors =>
      exact mirrors.undo (before.objects.inside formed) returns

end Runs

end Indexed

section Fails

variable {db : Database V} {id : ObjectId} {value : V}
  {callback : Callback V}

/-- The lambda throws, or a unique key of the contents that it leaves is
taken. -/
def Fails (schema : Schema V) (id : ObjectId) (value : V)
    (callback : Callback V) (objs : Objects V) : Prop :=
  (callback value).2 ≠ none ∨
    (objs.drop id).admits schema id (callback value).1 = false

/-- The exception that reaches the caller. -/
def thrownBy (callback : Callback V) (value : V) : Fault :=
  (callback value).2.getD .couldNotModifyObject

/-- The object keeps what the lambda has left, unless the container has dropped
it. -/
theorem modify_fails (found : db.objs.find id = some value)
    (fails : Fails schema id value callback db.objs) :
    modify schema id callback db =
      .throw (thrownBy callback value)
        ⟨if (db.objs.drop id).admits schema id (callback value).1 then
            (db.objs.drop id).put id (callback value).1
          else db.objs.drop id,
          db.undoDb.onModify id value⟩ := by
  rw [modify, found]
  dsimp only
  cases admitted : (db.objs.drop id).admits schema id (callback value).1 with
  | true =>
      cases thrown : (callback value).2 with
      | none =>
          rcases fails with threw | taken
          · exact absurd thrown threw
          · rw [admitted] at taken
            cases taken
      | some fault => simp [thrownBy, thrown]
  | false =>
      cases thrown : (callback value).2 with
      | none => simp [thrownBy, thrown]
      | some fault => simp [thrownBy, thrown]

/-- The lambda that leaves the same and does not throw. -/
def quiet (callback : Callback V) : Callback V :=
  fun value => ((callback value).1, none)

theorem modify_quiet (found : db.objs.find id = some value)
    (admitted : (db.objs.drop id).admits schema id (callback value).1 = true) :
    modify schema id (quiet callback) db =
      .ok ⟨(db.objs.drop id).put id (callback value).1,
        db.undoDb.onModify id value⟩ :=
  modify_eq_ok.mpr ⟨value, found, ⟨admitted, rfl⟩, rfl⟩

/-- What a session has touched and the container has dropped cannot be
restored. -/
theorem undo_of_missing {back : UndoState V} {older : List (UndoState V)}
    (stackEq : db.undoDb.stack = back :: older)
    (touched : id ∈ back.newIds ∨ id ∈ back.oldValues)
    (missing : db.objs.find id = none) :
    (undo schema walk db).returned = false := by
  have stays : ∀ item : Σ _ : ObjectId, V, ∀ before after : Database V,
      before.objs.find id = none →
      restoreOldValue schema item before = .ok after →
      after.objs.find id = none ∧ item.1 ≠ id := by
    intro item before after none returns
    obtain ⟨other, found, _, rfl⟩ := modify_eq_ok.mp returns
    have different : item.1 ≠ id := by
      rintro rfl
      rw [none] at found
      cases found
    exact ⟨by simp [different.symm, none], different⟩
  have staysToo : ∀ item : Σ _ : ObjectId, Unit, ∀ before after : Database V,
      before.objs.find id = none →
      removeNewId item before = .ok after →
      after.objs.find id = none ∧ item.1 ≠ id := by
    intro item before after none returns
    rw [removeNewId, remove] at returns
    cases found : before.objs.find item.1 with
    | none =>
        rw [found] at returns
        cases returns
    | some other =>
        rw [found] at returns
        cases returns
        have different : item.1 ≠ id := by
          rintro rfl
          rw [none] at found
          cases found
        exact ⟨by simp [none], different⟩
  have missingNow : (setDisabled true db).objs.find id = none := missing
  have refused : ∀ after,
      restore schema walk back (setDisabled true db) ≠ .ok after := by
    intro after returns
    rw [restore, Outcome.bind_eq_ok] at returns
    obtain ⟨first, restored, returns⟩ := returns
    obtain ⟨second, removed, _⟩ := Outcome.bind_eq_ok.mp returns
    obtain ⟨missingFirst, notOld⟩ :=
      forEach_ok_all (fun item _ => stays item) missingNow restored
    obtain ⟨_, notNew⟩ :=
      forEach_ok_all (fun item _ => staysToo item) missingFirst removed
    rcases touched with isNew | isOld
    · obtain ⟨_, recorded⟩ :=
        Option.isSome_iff_exists.mp (AList.lookup_isSome.mpr isNew)
      exact notNew ⟨id, ()⟩ (Indexed.walk_mem.mpr recorded) rfl
    · obtain ⟨value, recorded⟩ :=
        Option.isSome_iff_exists.mp (AList.lookup_isSome.mpr isOld)
      exact notOld ⟨id, value⟩ (Indexed.walk_mem.mpr recorded) rfl
  rw [undo]
  split
  · rfl
  · split
    · rfl
    · rw [stackEq]
      dsimp only
      cases restored : restore schema walk back (setDisabled true db) with
      | ok after => exact absurd restored (refused after)
      | throw fault left => rfl

/-- The modified object is in the state on the back of the stack. -/
theorem onModify_back {undoDb : UndoDatabase V}
    (enabled : undoDb.disabled = false) :
    ∃ back older, (undoDb.onModify id value).stack = back :: older ∧
      (id ∈ back.newIds ∨ id ∈ back.oldValues) := by
  refine ⟨undoDb.backOrNew.recordModify id value, undoDb.stack.tail, ?_, ?_⟩
  · simp [UndoDatabase.onModify, UndoDatabase.record, enabled,
      UndoDatabase.setBack]
  · rw [UndoState.recordModify]
    split
    · next isNew => exact .inl isNew
    · split
      · next isOld => exact .inr isOld
      · exact .inr (by simp)

end Fails

section Recovers

variable {base state after : Indexed V β} {opened : List (Objects V)}
  {id : ObjectId} {value : V} {callback : Callback V}

/-- `undo` gives back the objects, the id counters and the secondary index of
the start. -/
def Recovers (schema : Schema V) (members : ObjectId → V → Finset β)
    (walk : IterationOrder) (base left : Indexed V β) : Prop :=
  ∃ undone, Indexed.undo schema members walk left = .ok undone ∧
    SameObjects undone.db.objs base.db.objs ∧
    undone.memberships = base.memberships

theorem memberships_ext {left right : Memberships β ObjectId}
    (rows : ∀ id, left.row id = right.row id) : left = right := by
  ext ⟨item, owner⟩
  rw [← Memberships.mem_row, rows owner, Memberships.mem_row]

theorem Indexed.modify_fails (found : state.db.objs.find id = some value)
    (fails : Fails schema id value callback state.db.objs) :
    ∃ left, Indexed.modify schema members id callback state =
        .throw (thrownBy callback value) left ∧
      left.memberships = state.memberships ∧
      left.db =
        ⟨if (state.db.objs.drop id).admits schema id (callback value).1 then
            (state.db.objs.drop id).put id (callback value).1
          else state.db.objs.drop id,
          state.db.undoDb.onModify id value⟩ := by
  rw [Indexed.modify, found]
  dsimp only
  rw [Db.modify_fails found fails]
  exact ⟨_, rfl, rfl, rfl⟩

/-- Where the lambda has left contents that fit, undo gives the start back
exactly when the run lets it, and the row of the object can be mended. -/
theorem recovers_iff {left : Indexed V β}
    (mirrored : Indexed.Mirrors members base)
    (inside : Inside schema base.db 0 opened left.db)
    (others :
      ∀ other, other ≠ id →
        left.memberships.row other =
          Indexed.membersAt members left.db.objs other) :
    Recovers schema members walk base left ↔
      (∃ snapshot ∈ opened.head?, SameObjects snapshot base.db.objs) ∧
        UndoesFreely schema walk left.db ∧
        Indexed.Mends (left.memberships.row id)
          (Indexed.membersAt members left.db.objs id)
          (Indexed.membersAt members base.db.objs id) := by
  have seen := @Indexed.undo_db _ _ _ schema members walk left
  have active : left.db.undoDb.activeSessions ≠ 0 := by
    rw [inside.active]
    omega
  rcases inside.back with ⟨emptyStack, rfl⟩ |
    ⟨back, states, snapshot, snapshots, below, stackEq, rfl, records, _, _⟩
  · constructor
    · rintro ⟨undone, returns, _⟩
      have isOk := Indexed.db_of_ok seen returns
      simp [undo, inside.enabled, active, emptyStack] at isOk
    · rintro ⟨⟨snapshot, isBack, _⟩, _⟩
      cases isBack
  · have snapshotFormed := inside.openedFormed snapshot List.mem_cons_self
    have undone := undo_of_back walk left.db inside.enabled active stackEq
      records snapshotFormed
    have atBase : SameObjects snapshot base.db.objs → ∀ other,
        Indexed.membersAt members snapshot other =
          Indexed.membersAt members base.db.objs other :=
      fun same other =>
        Indexed.membersAt_congr (congrFun same.find other)
    simp only [List.head?_cons, Option.mem_def, Option.some.injEq,
      exists_eq_left']
    constructor
    · rintro ⟨after, returns, sameBase, sameIndex⟩
      have isOk := Indexed.db_of_ok seen returns
      rcases undone with ⟨free, objs, same, isUndone⟩ | ⟨_, fails⟩
      · rw [isUndone, Outcome.ok.injEq] at isOk
        have sameSnapshot : SameObjects snapshot base.db.objs := by
          rw [← isOk] at sameBase
          exact same.symm.trans sameBase
        refine ⟨sameSnapshot, free, ?_⟩
        have row := @Indexed.row_undo_iff _ _ _ _ _ _ _ _ _ _ id _
          stackEq records returns
        rw [atBase sameSnapshot id] at row
        rw [← row, sameIndex]
        exact mirrored id
      · rw [isOk] at fails
        cases fails
    · rintro ⟨sameSnapshot, free, mends⟩
      rcases undone with ⟨_, objs, same, isUndone⟩ | ⟨stuck, _⟩
      · rw [isUndone] at seen
        cases undoes : Indexed.undo schema members walk left with
        | throw fault rest =>
            rw [undoes] at seen
            cases seen
        | ok after =>
            have isOk := Indexed.db_of_ok seen undoes
            rw [Outcome.ok.injEq] at isOk
            refine ⟨after, undoes, ?_, memberships_ext fun other => ?_⟩
            · rw [← isOk]
              exact same.trans sameSnapshot
            · have row := @Indexed.row_undo_iff _ _ _ _ _ _ _ _ _ _ other _
                stackEq records undoes
              rw [mirrored other, ← atBase sameSnapshot other, row]
              by_cases isId : other = id
              · rw [isId, atBase sameSnapshot id]
                exact mends
              · rw [others other isId]
                exact Indexed.mends_of_row _ _
      · exact absurd free stuck

/-- A modification of an object in a session fails: the exception reaches the
caller, and `undo` of the session gives back its start exactly when the contents
that the lambda has left fit in the container, the run lets undo be exact, and
the members that the secondary index still has for the object can be mended from
those of the contents that were left. -/
theorem failed_modify_recovers_iff
    (formed : WellFormed schema base.db.objs)
    (mirrored : Indexed.Mirrors members base)
    (run : Indexed.InIndexedSession schema members walk base 0 opened state)
    (found : state.db.objs.find id = some value)
    (fails : Fails schema id value callback state.db.objs) :
    ∃ left,
      Indexed.modify schema members id callback state =
          .throw (thrownBy callback value) left ∧
        (Recovers schema members walk base left ↔
          (state.db.objs.drop id).admits schema id (callback value).1 =
              true ∧
            (∃ snapshot ∈ (reopened opened state.db).head?,
              SameObjects snapshot base.db.objs) ∧
            UndoesFreely schema walk left.db ∧
            Indexed.Mends (members id value) (members id (callback value).1)
              (Indexed.membersAt members base.db.objs id)) := by
  obtain ⟨left, throws, sameRows, isLeft⟩ :=
    @Indexed.modify_fails _ _ _ _ members state _ _ _ found fails
  refine ⟨left, throws, ?_⟩
  have mirrors := run.mirrors formed mirrored
  have objects := run.objects
  have ownRow : left.memberships.row id = members id value := by
    rw [sameRows, mirrors id, Indexed.membersAt_of_find found]
  cases admitted :
      (state.db.objs.drop id).admits schema id (callback value).1 with
  | true =>
      rw [admitted, if_pos rfl] at isLeft
      have foundLeft :
          left.db.objs.find id = some (callback value).1 := by
        rw [isLeft]
        simp
      have inside : Inside schema base.db 0 (reopened opened state.db)
          left.db :=
        (objects.inside formed).modify
          (isLeft ▸ modify_quiet found admitted)
      have others : ∀ other, other ≠ id →
          left.memberships.row other =
            Indexed.membersAt members left.db.objs other := by
        intro other different
        rw [sameRows, mirrors other]
        refine Indexed.membersAt_congr ?_
        rw [isLeft]
        simp [different]
      rw [recovers_iff mirrored inside others, ownRow,
        Indexed.membersAt_of_find foundLeft]
      simp only [true_and]
  | false =>
      rw [admitted] at isLeft
      simp only [Bool.false_eq_true, if_false] at isLeft
      simp only [Bool.false_eq_true, false_and, iff_false]
      rintro ⟨undone, returns, _⟩
      have isOk := Indexed.db_of_ok Indexed.undo_db returns
      obtain ⟨back, older, stackEq, touched⟩ :=
        @onModify_back _ id value state.db.undoDb
          (objects.inside formed).enabled
      have leftStack : left.db.undoDb.stack = back :: older := by
        rw [isLeft]
        exact stackEq
      have missing : left.db.objs.find id = none := by
        rw [isLeft]
        simp
      have refused := @undo_of_missing _ schema walk left.db id _ _
        leftStack touched missing
      rw [isOk] at refused
      cases refused

end Recovers

section Sample

def symbolOf (_ : ObjectId) (symbol : Nat) : Finset Nat :=
  {symbol}

def firstAsset : ObjectId :=
  ⟨assetIndex, 0⟩

/-- `oneAsset` with its index. -/
def oneIndexed : Indexed Nat Nat where
  db := oneAsset
  memberships := {(1, firstAsset)}
  before := ∅

def throwingRename (symbol : Nat) : Callback Nat :=
  fun _ => (symbol, some (.callback 0))

theorem oneIndexed_mirrors : Indexed.Mirrors symbolOf oneIndexed := by
  intro id
  by_cases isFirst : id = firstAsset
  · rw [isFirst]
    decide
  · have absent : oneIndexed.db.objs.find id = none := by
      refine AList.lookup_eq_none.mpr ?_
      change id ∉ [(⟨assetIndex, 0⟩ : ObjectId)]
      simpa [firstAsset] using isFirst
    rw [Indexed.membersAt_of_none absent]
    ext symbol
    rw [Memberships.mem_row]
    simp [oneIndexed, isFirst]

def startedIndexed : Indexed Nat Nat :=
  { oneIndexed with db := startUndoSession false oneIndexed.db }

theorem startedIndexed_run :
    Indexed.InIndexedSession symbolSchema symbolOf .asListed oneIndexed 0
      [oneIndexed.db.objs] startedIndexed :=
  .start false (.inl rfl)

/-- A lambda that throws in a fresh session: undo gives the start back. -/
theorem failed_modify_recovers_rename :
    ∃ left,
      Indexed.modify symbolSchema symbolOf firstAsset (throwingRename 2)
          startedIndexed = .throw (.callback 0) left ∧
        Recovers symbolSchema symbolOf .asListed oneIndexed left := by
  obtain ⟨left, throws, recovers⟩ :=
    @failed_modify_recovers_iff _ _ _ symbolSchema symbolOf .asListed
      oneIndexed startedIndexed _ firstAsset 1 (throwingRename 2)
      oneAsset_wellFormed oneIndexed_mirrors startedIndexed_run rfl
      (.inl (by simp [throwingRename]))
  refine ⟨left, throws,
    recovers.mpr ⟨by decide, ⟨_, rfl, .refl _⟩, ?_, ?_⟩⟩
  · have isLeft : left.db.undoDb.stack = _ :=
      congrArg (fun outcome => outcome.state.db.undoDb.stack) throws.symm
    rw [undoesFreely_iff isLeft]
    refine restoresFreely_cons.mpr ⟨?_, restoresFreely_nil _ _⟩
    rintro other found _ (isNew | isLater)
    · cases isNew
    · cases isLater
  · exact ⟨by decide, by decide⟩

/-- A second asset with the symbol 2. -/
def withSecond : Indexed Nat Nat :=
  (Indexed.create symbolSchema symbolOf assetIndex 2 startedIndexed).state

/-- The asset with the symbol 3. -/
def withThree : Indexed Nat Nat :=
  (Indexed.modify symbolSchema symbolOf firstAsset (fun _ => (3, none))
    startedIndexed).state

/-- A symbol that another asset has: the asset is dropped, and undo does not
find it.  A lambda that throws after a modification: the index keeps the symbol
in between. -/
theorem failed_modify_not_recovered :
    (∃ opened left,
      Indexed.InIndexedSession symbolSchema symbolOf .asListed oneIndexed 0
          opened withSecond ∧
        Indexed.modify symbolSchema symbolOf firstAsset
            (fun _ => (2, none)) withSecond =
          .throw .couldNotModifyObject left ∧
        ¬ Recovers symbolSchema symbolOf .asListed oneIndexed left) ∧
      ∃ opened left,
        Indexed.InIndexedSession symbolSchema symbolOf .asListed oneIndexed 0
            opened withThree ∧
          Indexed.modify symbolSchema symbolOf firstAsset (throwingRename 4)
              withThree = .throw (.callback 0) left ∧
            ¬ Recovers symbolSchema symbolOf .asListed oneIndexed left := by
  constructor
  · refine ⟨_, _, .create assetIndex 2 startedIndexed_run rfl, rfl, ?_⟩
    rintro ⟨undone, returns, _⟩
    have refused :
        (Indexed.undo symbolSchema symbolOf .asListed
          (Indexed.modify symbolSchema symbolOf firstAsset
            (fun _ => (2, none)) withSecond).state).returned = false := by
      decide
    have isOk := congrArg Outcome.returned returns
    exact Bool.false_ne_true (refused.symm.trans isOk)
  · refine ⟨_, _, .modify firstAsset (fun _ => (3, none)) startedIndexed_run
      rfl, rfl, ?_⟩
    rintro ⟨undone, returns, _, sameIndex⟩
    have stale :
        (3, firstAsset) ∈
          (Indexed.undo symbolSchema symbolOf .asListed
            (Indexed.modify symbolSchema symbolOf firstAsset
              (throwingRename 4) withThree).state).state.memberships := by
      decide
    have isOk :
        (Indexed.undo symbolSchema symbolOf .asListed
          (Indexed.modify symbolSchema symbolOf firstAsset
            (throwingRename 4) withThree).state).state = undone :=
      congrArg Outcome.state returns
    rw [isOk, sameIndex] at stale
    exact absurd stale (by decide)

end Sample

end GxbCore.Db
