import GxbCore.Db.UndoRecords
import GxbCore.Members.MemberIndex

/-!
# When the member index is exact

The index is exact when it has, for every account, the members of the stored
object.  Inserting, removing, and modifying with a lambda in which nothing is
nested keep it exact.  A nested modification overwrites what was noted of the
account around it, so that one must not change its own members.

A lambda that throws leaves the index behind its object.  Undo mends that where
the session had not touched the account before: the index still has what undo
writes back.
-/

namespace GxbCore.Members

open GxbCore.Db

variable {K A : Type} [DecidableEq K] [DecidableEq A] (toAddress : K → A)

def AccountIndex.stored (state : AccountIndex K A) (id : ObjectId) :
    Finset (Member K A) :=
  match state.db.objs.find id with
  | none => ∅
  | some value => members toAddress value

def ExactAt (state : AccountIndex K A) (id : ObjectId) : Prop :=
  state.memberships.row id = state.stored toAddress id

def Exact (state : AccountIndex K A) : Prop :=
  ∀ id, ExactAt toAddress state id

variable {toAddress} {state : AccountIndex K A} {id other : ObjectId}
  {value : AccountObject K A}

theorem stored_of_find (found : state.db.objs.find id = some value) :
    state.stored toAddress id = members toAddress value := by
  unfold AccountIndex.stored
  rw [found]

theorem stored_of_none (missing : state.db.objs.find id = none) :
    state.stored toAddress id = ∅ := by
  unfold AccountIndex.stored
  rw [missing]

theorem stored_congr {after : AccountIndex K A}
    (same : after.db.objs.find id = state.db.objs.find id) :
    after.stored toAddress id = state.stored toAddress id := by
  unfold AccountIndex.stored
  rw [same]

theorem ExactAt.row_eq (exact : ExactAt toAddress state id)
    (found : state.db.objs.find id = some value) :
    state.memberships.row id = members toAddress value :=
  Eq.trans exact (stored_of_find found)

/-- A step that changes neither the object nor its row. -/
theorem ExactAt.congr {after : AccountIndex K A}
    (exact : ExactAt toAddress state id)
    (sameRow : after.memberships.row id = state.memberships.row id)
    (sameObject : after.db.objs.find id = state.db.objs.find id) :
    ExactAt toAddress after id := by
  unfold ExactAt
  rw [sameRow, stored_congr sameObject]
  exact exact

section Calls

def ChangesOnly (id : ObjectId) (state after : AccountIndex K A) : Prop :=
  ∀ other, other ≠ id →
    after.memberships.row other = state.memberships.row other ∧
      after.db.objs.find other = state.db.objs.find other

variable {after : AccountIndex K A}

theorem Exact.changesOnly (exact : Exact toAddress state)
    (only : ChangesOnly id state after) (here : ExactAt toAddress after id) :
    Exact toAddress after := by
  intro other
  by_cases same : other = id
  · exact same ▸ here
  · obtain ⟨sameRow, sameObject⟩ := only other same
    exact (exact other).congr sameRow sameObject

omit [DecidableEq K] [DecidableEq A] in
theorem hooked_eq_ok {call : Outcome Fault (Database (AccountObject K A))}
    {hook : AccountIndex K A → AccountIndex K A}
    (returns : hooked call hook state = .ok after) :
    ∃ db, call = .ok db ∧ after = hook { state with db := db } := by
  cases call with
  | ok db =>
      cases returns
      exact ⟨db, rfl, rfl⟩
  | throw fault db => cases returns

omit [DecidableEq K] [DecidableEq A] in
theorem find_eq_none_of_admits
    (admitted : state.db.objs.admits accountSchema id value = true) :
    state.db.objs.find id = none := by
  cases found : state.db.objs.find id with
  | none => rfl
  | some present =>
      exact absurd rfl (Objects.admits_iff.mp admitted id present found).1

theorem objectInserted_spec {db : Database (AccountObject K A)}
    (free : state.db.objs.find id = none)
    (finds :
      ∀ other, db.objs.find other =
        if other = id then some value else state.db.objs.find other)
    (exact : Exact toAddress state) :
    Exact toAddress
      (objectInserted toAddress id value { state with db := db }) := by
  have only :
      ChangesOnly id state
        (objectInserted toAddress id value { state with db := db }) := by
    intro other different
    refine ⟨Memberships.row_insertAll_of_ne different, ?_⟩
    exact (finds other).trans (if_neg different)
  refine exact.changesOnly only ?_
  have found :
      (objectInserted toAddress id value
        { state with db := db }).db.objs.find id = some value :=
    (finds id).trans (if_pos rfl)
  have empty : state.memberships.row id = ∅ :=
    Eq.trans (exact id) (stored_of_none free)
  unfold ExactAt
  rw [stored_of_find found]
  refine Memberships.row_insertAll.trans ?_
  rw [empty, Finset.empty_union]

theorem Exact.insert (exact : Exact toAddress state)
    (returns : insert toAddress id value state = .ok after) :
    Exact toAddress after := by
  obtain ⟨db, inserted, rfl⟩ := hooked_eq_ok returns
  unfold Db.insert at inserted
  split at inserted
  · next admitted =>
      cases inserted
      refine objectInserted_spec (find_eq_none_of_admits admitted) ?_ exact
      exact fun other => Objects.find_put _ _ _ _
  · cases inserted

theorem Exact.create {after : AccountIndex K A} (exact : Exact toAddress state)
    (returns : create toAddress value state = .ok after) :
    Exact toAddress after := by
  obtain ⟨db, created, rfl⟩ := hooked_eq_ok returns
  unfold Db.create at created
  dsimp only at created
  split at created
  · next admitted =>
      cases created
      refine objectInserted_spec (find_eq_none_of_admits admitted) ?_ exact
      exact fun other => by simp
  · cases created

theorem remove_spec (returns : remove toAddress id state = .ok after) :
    ∃ value, state.db.objs.find id = some value ∧
      ChangesOnly id state after ∧ after.db.objs.find id = none ∧
      after.memberships.row id =
        state.memberships.row id \ members toAddress value := by
  unfold remove at returns
  cases found : state.db.objs.find id with
  | none =>
      rw [found] at returns
      cases returns
  | some value =>
      rw [found] at returns
      obtain ⟨db, removed, rfl⟩ := hooked_eq_ok returns
      unfold Db.remove at removed
      rw [found] at removed
      cases removed
      refine ⟨value, rfl, ?_, ?_, Memberships.row_eraseAll⟩
      · intro other different
        refine ⟨Memberships.row_eraseAll_of_ne different, ?_⟩
        simp [objectRemoved, different]
      · simp [objectRemoved]

theorem Exact.remove {after : AccountIndex K A} (exact : Exact toAddress state)
    (returns : remove toAddress id state = .ok after) :
    Exact toAddress after := by
  obtain ⟨value, found, only, gone, row⟩ := remove_spec returns
  refine exact.changesOnly only ?_
  unfold ExactAt
  rw [row, (exact id).row_eq found, stored_of_none gone, Finset.sdiff_self]

end Calls

section Parts

omit [DecidableEq K] [DecidableEq A] in
theorem write_cases (self : ObjectId)
    (callback : Callback (AccountObject K A)) (state : AccountIndex K A) :
    (state.db.objs.find self = none ∧
      write self callback state =
        .throw (.unableToFindObject self) state) ∨
    ∃ value, state.db.objs.find self = some value ∧
      ((∃ fault, (callback value).2 = some fault ∧
        write self callback state =
          .throw fault (state.put self (callback value).1)) ∨
      (callback value).2 = none ∧
        write self callback state =
          .ok (state.put self (callback value).1)) := by
  unfold write
  cases found : state.db.objs.find self with
  | none => exact .inl ⟨rfl, rfl⟩
  | some value =>
      refine .inr ⟨value, rfl, ?_⟩
      dsimp only
      cases result : (callback value).2 with
      | none => exact .inr ⟨rfl, rfl⟩
      | some fault => exact .inl ⟨fault, rfl, rfl⟩

omit [DecidableEq K] [DecidableEq A] in
theorem find_put_state (state : AccountIndex K A) (id other : ObjectId)
    (value : AccountObject K A) :
    (state.put id value).db.objs.find other =
      if other = id then some value else state.db.objs.find other :=
  Objects.find_put _ _ _ _

omit [DecidableEq K] [DecidableEq A] in
theorem find_drop_state (state : AccountIndex K A) (id other : ObjectId) :
    (state.drop id).db.objs.find other =
      if other = id then none else state.db.objs.find other :=
  Objects.find_drop _ _ _

omit [DecidableEq K] [DecidableEq A] in
/-- Where the keys are taken the object is gone, and nothing else. -/
theorem abandoned_cases (id : ObjectId) (state : AccountIndex K A) :
    abandoned id state = state ∨ abandoned id state = state.drop id := by
  unfold abandoned
  split
  · exact .inl rfl
  · unfold AccountIndex.reposition
    split
    · exact .inl rfl
    · exact .inr rfl

variable (toAddress) in
/-- The end of a modification: the index follows, or the keys are taken. -/
theorem closed_cases (id : ObjectId) (state : AccountIndex K A) :
    (state.db.objs.find id = none ∧
      closed toAddress id state = .throw (.unableToFindObject id) state) ∨
    (∃ value, state.db.objs.find id = some value ∧
      closed toAddress id state =
        .ok (objectModified toAddress id value state)) ∨
    closed toAddress id state =
      .throw .couldNotModifyObject (state.drop id) := by
  unfold closed
  cases found : state.db.objs.find id with
  | none => exact .inl ⟨rfl, rfl⟩
  | some value =>
      dsimp only
      split
      · exact .inr (.inl ⟨value, rfl, rfl⟩)
      · next refused =>
          refine .inr (.inr ?_)
          rw [AccountIndex.reposition, if_neg refused]

end Parts

end GxbCore.Members
