import GxbCore.Db.Sessions
import GxbCore.Lib.Memberships

/-!
# Secondary indexes

A secondary index follows the objects of an index through the hooks that
`primary_index` calls.  Here it is the inverse of a membership relation, as
`account_member_index` is: an object that is inserted or removed has members; a
modification is followed by the difference between the members before it, which
`about_to_modify` notes, and those after it.  Objects of an index that is not
followed have no members.

A modification that throws has noted the members, and nothing more: then
`object_modified` is not called.
-/

namespace GxbCore.Db

universe u

variable {V : Type} {β : Type u} [DecidableEq β]

/-- The objects with a secondary index on them. -/
structure Indexed (V : Type) (β : Type u) where
  db : Database V
  memberships : Memberships β ObjectId
  before : Finset β

namespace Indexed

section Calls

variable (schema : Schema V) (members : ObjectId → V → Finset β)

/-- A call of the database, and what the index hears of it when it returns. -/
def hooked (call : Outcome Fault (Database V))
    (hook : Memberships β ObjectId → Memberships β ObjectId)
    (state : Indexed V β) : Outcome Fault (Indexed V β) :=
  match call with
  | .ok db =>
      .ok { state with db := db, memberships := hook state.memberships }
  | .throw fault db => .throw fault { state with db := db }

/-- A call that the index does not hear of. -/
def onDb (call : Database V → Outcome Fault (Database V))
    (state : Indexed V β) : Outcome Fault (Indexed V β) :=
  hooked (call state.db) (fun index => index) state

/-- `primary_index::create` with `object_inserted`. -/
def create (index : IndexId) (value : V) (state : Indexed V β) :
    Outcome Fault (Indexed V β) :=
  let id := state.db.objs.getNextId index
  hooked (Db.create schema index value state.db)
    (Memberships.insertAll (members id value) id) state

/-- `primary_index::insert` with `object_inserted`. -/
def insert (id : ObjectId) (value : V) (state : Indexed V β) :
    Outcome Fault (Indexed V β) :=
  hooked (Db.insert schema id value state.db)
    (Memberships.insertAll (members id value) id) state

/-- `primary_index::remove` with `object_removed`. -/
def remove (id : ObjectId) (state : Indexed V β) :
    Outcome Fault (Indexed V β) :=
  match state.db.objs.find id with
  | none => .throw (.unableToFindObject id) state
  | some value =>
      hooked (Db.remove id state.db)
        (Memberships.eraseAll (members id value) id) state

/-- `primary_index::modify` with `about_to_modify` and `object_modified`. -/
def modify (id : ObjectId) (callback : Callback V) (state : Indexed V β) :
    Outcome Fault (Indexed V β) :=
  match state.db.objs.find id with
  | none => .throw (.unableToFindObject id) state
  | some value =>
      let before := members id value
      hooked (Db.modify schema id callback state.db)
        (Memberships.change before (members id (callback value).1) id)
        { state with before := before }

/-- One round of the loop over `old_values`. -/
def restoreOldValue (item : Σ _ : ObjectId, V) (state : Indexed V β) :
    Outcome Fault (Indexed V β) :=
  modify schema members item.1 (fun _ => (item.2, none)) state

/-- One round of the loop over `new_ids`. -/
def removeNewId (item : Σ _ : ObjectId, Unit) (state : Indexed V β) :
    Outcome Fault (Indexed V β) :=
  remove members item.1 state

/-- One round of the loop over `removed`. -/
def reinsertRemoved (item : Σ _ : ObjectId, V) (state : Indexed V β) :
    Outcome Fault (Indexed V β) :=
  insert schema members item.1 item.2 state

variable (walk : IterationOrder)

/-- The four loops that `undo` and `pop_commit` share. -/
def restore (undoState : UndoState V) (state : Indexed V β) :
    Outcome Fault (Indexed V β) :=
  (forEach (restoreOldValue schema members)
      (walk.order undoState.oldValues.entries) state).bind fun state =>
  (forEach (removeNewId members)
      (walk.order undoState.newIds.entries) state).bind fun state =>
  (forEach (fun item => onDb (restoreNextId item))
      (walk.order undoState.oldIndexNextIds.entries) state).bind fun state =>
  forEach (reinsertRemoved schema members)
      (walk.order undoState.removed.entries) state

def undo (state : Indexed V β) : Outcome Fault (Indexed V β) :=
  if state.db.undoDb.disabled then
    .throw .undoDisabled state
  else if state.db.undoDb.activeSessions = 0 then
    .throw .noActiveSession state
  else
    match state.db.undoDb.stack with
    | [] => .throw .undoStackEmpty state
    | back :: _ =>
        (restore schema members walk back
          { state with db := setDisabled true state.db }).bind fun restored =>
          .ok
            { restored with
              db :=
                { objs := restored.db.objs
                  undoDb :=
                    { activeSessions := restored.db.undoDb.activeSessions - 1
                      disabled := false
                      stack := restored.db.undoDb.stack.tail
                      maxSize := restored.db.undoDb.maxSize } } }

end Calls

section Objects

variable {schema : Schema V} {members : ObjectId → V → Finset β}
  {walk : IterationOrder} {state after : Indexed V β} {id : ObjectId}

omit [DecidableEq β] in
theorem hooked_db (call : Outcome Fault (Database V))
    (hook : Memberships β ObjectId → Memberships β ObjectId) :
    (hooked call hook state).map Indexed.db = call := by
  cases call with
  | ok db => rfl
  | throw fault db => rfl

theorem create_db (index : IndexId) (value : V) :
    (create schema members index value state).map Indexed.db =
      Db.create schema index value state.db :=
  hooked_db _ _

theorem insert_db (value : V) :
    (insert schema members id value state).map Indexed.db =
      Db.insert schema id value state.db :=
  hooked_db _ _

theorem remove_db :
    (remove members id state).map Indexed.db = Db.remove id state.db := by
  rw [remove]
  cases found : state.db.objs.find id with
  | none => simp [Outcome.map, Db.remove, found]
  | some value => exact hooked_db _ _

theorem modify_db (callback : Callback V) :
    (modify schema members id callback state).map Indexed.db =
      Db.modify schema id callback state.db := by
  rw [modify]
  cases found : state.db.objs.find id with
  | none => simp [Outcome.map, Db.modify, found]
  | some value => exact hooked_db _ _

theorem restoreOldValue_db (item : Σ _ : ObjectId, V) :
    (restoreOldValue schema members item state).map Indexed.db =
      Db.restoreOldValue schema item state.db :=
  modify_db _

theorem removeNewId_db (item : Σ _ : ObjectId, Unit) :
    (removeNewId members item state).map Indexed.db =
      Db.removeNewId item state.db :=
  remove_db

theorem reinsertRemoved_db (item : Σ _ : ObjectId, V) :
    (reinsertRemoved schema members item state).map Indexed.db =
      Db.reinsertRemoved schema item state.db :=
  insert_db _

theorem restore_db (back : UndoState V) :
    (restore schema members walk back state).map Indexed.db =
      Db.restore schema walk back state.db := by
  refine Outcome.map_bind
    (forEach_map (fun item _ => restoreOldValue_db item) _ _) fun _ => ?_
  refine Outcome.map_bind
    (forEach_map (fun item _ => removeNewId_db item) _ _) fun _ => ?_
  refine Outcome.map_bind
    (forEach_map (fun _ _ => hooked_db _ _) _ _) fun _ => ?_
  exact forEach_map (fun item _ => reinsertRemoved_db item) _ _

theorem undo_db :
    (undo schema members walk state).map Indexed.db =
      Db.undo schema walk state.db := by
  rw [undo, Db.undo]
  split
  · rfl
  · split
    · rfl
    · cases state.db.undoDb.stack with
      | nil => rfl
      | cons back older =>
          exact Outcome.map_bind (restore_db back) fun restored => rfl

end Objects

section Rows

variable {schema : Schema V} {members : ObjectId → V → Finset β}
  {walk : IterationOrder} {state after : Indexed V β} {id other : ObjectId}

def membersAt (members : ObjectId → V → Finset β) (objs : Objects V)
    (id : ObjectId) : Finset β :=
  (objs.find id).elim ∅ (members id)

omit [DecidableEq β] in
theorem membersAt_of_find {objs : Objects V} {value : V}
    (found : objs.find id = some value) :
    membersAt members objs id = members id value := by
  rw [membersAt, found]
  rfl

omit [DecidableEq β] in
theorem membersAt_of_none {objs : Objects V} (none : objs.find id = none) :
    membersAt members objs id = ∅ := by
  rw [membersAt, none]
  rfl

def Mirrors (members : ObjectId → V → Finset β) (state : Indexed V β) :
    Prop :=
  ∀ id, state.memberships.row id = membersAt members state.db.objs id

def seenAt (state : Indexed V β) (id : ObjectId) : Finset β × Option V :=
  (state.memberships.row id, state.db.objs.find id)

/-- The call leaves all other ids alone. -/
def ChangesOnly (id : ObjectId) (state after : Indexed V β) : Prop :=
  ∀ other, other ≠ id → seenAt after other = seenAt state other

theorem seenAt_row (same : seenAt after id = seenAt state id) :
    after.memberships.row id = state.memberships.row id :=
  congrArg Prod.fst same

theorem seenAt_find (same : seenAt after id = seenAt state id) :
    after.db.objs.find id = state.db.objs.find id :=
  congrArg Prod.snd same

omit [DecidableEq β] in
theorem hooked_eq_ok {call : Outcome Fault (Database V)}
    {hook : Memberships β ObjectId → Memberships β ObjectId}
    (returns : hooked call hook state = .ok after) :
    ∃ db, call = .ok db ∧
      after = { state with db := db, memberships := hook state.memberships } := by
  cases call with
  | ok db =>
      cases returns
      exact ⟨db, rfl, rfl⟩
  | throw fault db => cases returns

theorem modify_spec {callback : Callback V}
    (returns : modify schema members id callback state = .ok after) :
    ChangesOnly id state after ∧
      ∃ value, state.db.objs.find id = some value ∧
        after.db.objs.find id = some (callback value).1 ∧
        after.memberships.row id =
          (Memberships.change (members id value)
            (members id (callback value).1) id state.memberships).row id := by
  rw [modify] at returns
  cases found : state.db.objs.find id with
  | none =>
      rw [found] at returns
      cases returns
  | some value =>
      rw [found] at returns
      obtain ⟨db, modified, rfl⟩ := hooked_eq_ok returns
      obtain ⟨same, present, _, rfl⟩ := modify_eq_ok.mp modified
      rw [found, Option.some.injEq] at present
      subst present
      refine ⟨?_, value, rfl, ?_, rfl⟩
      · intro other different
        refine Prod.ext (Memberships.row_change_of_ne different) ?_
        simp [seenAt, different]
      · simp

theorem remove_spec (returns : remove members id state = .ok after) :
    ChangesOnly id state after ∧
      ∃ value, state.db.objs.find id = some value ∧
        after.db.objs.find id = none ∧
        after.memberships.row id =
          state.memberships.row id \ members id value := by
  rw [remove] at returns
  cases found : state.db.objs.find id with
  | none =>
      rw [found] at returns
      cases returns
  | some value =>
      rw [found] at returns
      obtain ⟨db, removed, rfl⟩ := hooked_eq_ok returns
      rw [Db.remove, found] at removed
      cases removed
      refine ⟨?_, value, rfl, ?_, Memberships.row_eraseAll⟩
      · intro other different
        refine Prod.ext (Memberships.row_eraseAll_of_ne different) ?_
        simp [seenAt, different]
      · simp

theorem insert_spec {value : V}
    (returns : insert schema members id value state = .ok after) :
    ChangesOnly id state after ∧
      after.db.objs.find id = some value ∧
      after.memberships.row id =
        state.memberships.row id ∪ members id value := by
  obtain ⟨db, inserted, rfl⟩ := hooked_eq_ok returns
  rw [Db.insert] at inserted
  split at inserted
  · cases inserted
    refine ⟨?_, ?_, Memberships.row_insertAll⟩
    · intro other different
      refine Prod.ext (Memberships.row_insertAll_of_ne different) ?_
      simp [seenAt, different]
    · simp
  · cases inserted

theorem create_spec {index : IndexId} {value : V}
    (returns : create schema members index value state = .ok after) :
    ChangesOnly (state.db.objs.getNextId index) state after ∧
      after.db.objs.find (state.db.objs.getNextId index) = some value ∧
      after.memberships.row (state.db.objs.getNextId index) =
        state.memberships.row (state.db.objs.getNextId index) ∪
          members (state.db.objs.getNextId index) value := by
  obtain ⟨db, created, rfl⟩ := hooked_eq_ok returns
  rw [Db.create] at created
  split at created
  · cases created
    refine ⟨?_, ?_, Memberships.row_insertAll⟩
    · intro other different
      refine Prod.ext (Memberships.row_insertAll_of_ne different) ?_
      simp [seenAt, different]
    · simp
  · cases created

end Rows

end Indexed

section Loops

universe v w

variable {ε : Type} {σ : Type u} {κ : Type} {γ : Type v} {ρ : Type w}
  {see : σ → κ → ρ} {body : (Σ _ : κ, γ) → σ → Outcome ε σ}
  {does : (Σ _ : κ, γ) → ρ → ρ → Prop} {items : List (Σ _ : κ, γ)}
  {start final : σ}

/-- A loop whose rounds touch one key each touches the keys of the table, each
in its own round. -/
theorem forEach_keyed
    (round :
      ∀ item before after, body item before = .ok after →
        (∀ key, key ≠ item.1 → see after key = see before key) ∧
          does item (see before item.1) (see after item.1))
    (distinct : items.keys.Nodup)
    (returns : forEach body items start = .ok final) :
    (∀ key, key ∉ items.keys → see final key = see start key) ∧
      ∀ item ∈ items, does item (see start item.1) (see final item.1) := by
  induction items generalizing start with
  | nil =>
      cases returns
      exact ⟨fun _ _ => rfl, fun _ member => by cases member⟩
  | cons first rest ih =>
      obtain ⟨middle, firstReturns, restReturns⟩ :=
        Outcome.bind_eq_ok.mp returns
      obtain ⟨others, own⟩ := round first start middle firstReturns
      rw [List.keys_cons, List.nodup_cons] at distinct
      obtain ⟨outside, inside⟩ := ih distinct.2 restReturns
      constructor
      · intro key notMember
        rw [List.keys_cons, List.mem_cons, not_or] at notMember
        rw [outside key notMember.2, others key notMember.1]
      · intro item member
        rcases List.mem_cons.mp member with rfl | inRest
        · rw [outside item.1 distinct.1]
          exact own
        · have different : item.1 ≠ first.1 := by
            intro same
            exact distinct.1 (same ▸ List.mem_keys_of_mem inRest)
          rw [← others item.1 different]
          exact inside item inRest

end Loops

end GxbCore.Db
