import GxbCore.Members.MembersExact

/-!
# Modifications that throw, and undo

When a lambda throws, the index is behind the objects whose modification was
under way.  What undo needs to mend this is stated of the session's undo state:
for an object with an old value, the index has what the object or the old value
has, so that the differences come out right; for a new object, it has no more
than undo will erase.
-/

namespace GxbCore.Members

open GxbCore.Db

variable {K A : Type} [DecidableEq K] [DecidableEq A] (toAddress : K → A)

/-- The undo state of the running session. -/
def AccountIndex.back (state : AccountIndex K A) :
    UndoState (AccountObject K A) :=
  state.db.undoDb.backOrNew

/-- The session has created or modified the account. -/
def Touched (state : AccountIndex K A) (id : ObjectId) : Prop :=
  id ∈ state.back.newIds ∨ id ∈ state.back.oldValues

/-- Undo will make the row right, going through these old values and these new
ids. -/
structure MendableAt (oldValues : List (Σ _ : ObjectId, AccountObject K A))
    (newIds : List (Σ _ : ObjectId, Unit)) (state : AccountIndex K A)
    (id : ObjectId) : Prop where
  untouched :
    id ∉ newIds.keys → id ∉ oldValues.keys → ExactAt toAddress state id
  old :
    ∀ before value, ⟨id, before⟩ ∈ oldValues →
      state.db.objs.find id = some value →
      state.memberships.row id \ members toAddress before ⊆
          members toAddress value ∧
        members toAddress value ∩ members toAddress before ⊆
          state.memberships.row id
  new :
    ∀ value, id ∈ newIds.keys → state.db.objs.find id = some value →
      state.memberships.row id ⊆ members toAddress value

/-- Undo will make the index exact. -/
def Mendable (state : AccountIndex K A) : Prop :=
  ∀ id, MendableAt toAddress state.back.oldValues.entries
    state.back.newIds.entries state id

variable {toAddress} {state after : AccountIndex K A} {id other : ObjectId}
  {value : AccountObject K A}

variable {oldValues : List (Σ _ : ObjectId, AccountObject K A)}
  {newIds : List (Σ _ : ObjectId, Unit)}

theorem ExactAt.mendableAt (exact : ExactAt toAddress state id) :
    MendableAt toAddress oldValues newIds state id where
  untouched _ _ := exact
  old before value _ found := by
    rw [exact.row_eq found]
    exact ⟨Finset.sdiff_subset, Finset.inter_subset_left⟩
  new value _ found := by
    rw [exact.row_eq found]

theorem MendableAt.gone (touched : id ∈ newIds.keys ∨ id ∈ oldValues.keys)
    (missing : state.db.objs.find id = none) :
    MendableAt toAddress oldValues newIds state id where
  untouched notNew notOld := absurd touched (not_or.mpr ⟨notNew, notOld⟩)
  old before value _ found := by
    rw [missing] at found
    cases found
  new value _ found := by
    rw [missing] at found
    cases found

/-- Dropping an object that the session has touched. -/
theorem Mendable.drop (mendable : Mendable toAddress state)
    (touched : Touched state id) : Mendable toAddress (state.drop id) := by
  intro other
  by_cases same : other = id
  · subst same
    refine MendableAt.gone touched ?_
    rw [find_drop_state, if_pos rfl]
  · have found : (state.drop id).db.objs.find other =
        state.db.objs.find other := by
      rw [find_drop_state, if_neg same]
    obtain ⟨untouched, old, new⟩ := mendable other
    refine ⟨?_, ?_, ?_⟩
    · exact fun notNew notOld => (untouched notNew notOld).congr rfl found
    · rw [found]
      exact old
    · rw [found]
      exact new

section Recording

/-- Undo is on, and what was touched stays touched. -/
def Grows (state after : AccountIndex K A) : Prop :=
  after.db.undoDb.disabled = state.db.undoDb.disabled ∧
    ∀ id, Touched state id → Touched after id

omit [DecidableEq K] [DecidableEq A] in
theorem Grows.refl (state : AccountIndex K A) : Grows state state :=
  ⟨rfl, fun _ touched => touched⟩

omit [DecidableEq K] [DecidableEq A] in
theorem Grows.trans {middle : AccountIndex K A}
    (first : Grows state middle) (second : Grows middle after) :
    Grows state after :=
  ⟨second.1.trans first.1,
    fun id touched => second.2 id (first.2 id touched)⟩

omit [DecidableEq K] [DecidableEq A] in
theorem grows_of_undoDb (same : after.db.undoDb = state.db.undoDb) :
    Grows state after := by
  refine ⟨by rw [same], ?_⟩
  intro id touched
  unfold Touched AccountIndex.back at touched ⊢
  rw [same]
  exact touched

variable (toAddress) in
theorem back_opened (enabled : state.db.undoDb.disabled = false) :
    (opened toAddress id value state).back =
      state.back.recordModify id value := by
  simp [opened, aboutToModify, AccountIndex.back, UndoDatabase.onModify,
    UndoDatabase.record, UndoDatabase.backOrNew, UndoDatabase.setBack,
    enabled]

omit [DecidableEq K] [DecidableEq A] in
theorem recordModify_cases (back : UndoState (AccountObject K A))
    (id : ObjectId) (value : AccountObject K A) :
    ((id ∈ back.newIds ∨ id ∈ back.oldValues) ∧
      back.recordModify id value = back) ∨
    ¬ (id ∈ back.newIds ∨ id ∈ back.oldValues) ∧
      back.recordModify id value =
        { back with oldValues := back.oldValues.insert id value } := by
  unfold UndoState.recordModify
  split
  · next isNew => exact .inl ⟨.inl isNew, rfl⟩
  next notNew =>
    split
    · next isOld => exact .inl ⟨.inr isOld, rfl⟩
    · next notOld => exact .inr ⟨by simp [notNew, notOld], rfl⟩

variable (toAddress) in
theorem touched_opened (enabled : state.db.undoDb.disabled = false)
    (value : AccountObject K A) :
    Touched (opened toAddress id value state) id := by
  unfold Touched
  rw [back_opened toAddress enabled]
  rcases recordModify_cases state.back id value with
    ⟨touched, same⟩ | ⟨_, recorded⟩
  · rw [same]
    exact touched
  · rw [recorded]
    exact .inr ((AList.mem_insert _).mpr (.inl rfl))

theorem grows_opened : Grows state (opened toAddress id value state) := by
  cases enabled : state.db.undoDb.disabled with
  | true =>
      apply grows_of_undoDb
      simp [opened, aboutToModify, UndoDatabase.onModify, UndoDatabase.record,
        enabled]
  | false =>
      refine ⟨?_, ?_⟩
      · simp [opened, aboutToModify, UndoDatabase.onModify,
          UndoDatabase.record, UndoDatabase.setBack, enabled]
      · intro other touched
        unfold Touched
        rw [back_opened toAddress enabled]
        rcases recordModify_cases state.back id value with
          ⟨_, same⟩ | ⟨_, recorded⟩
        · rw [same]
          exact touched
        · rw [recorded]
          exact touched.imp_right fun old =>
            (AList.mem_insert _).mpr (.inr old)

end Recording

section Modifications

variable {run : AccountIndex K A → Outcome Fault (AccountIndex K A)}

variable (toAddress) in
theorem modifyWith_cases (run) (id : ObjectId) (state : AccountIndex K A) :
    (state.db.objs.find id = none ∧
      modifyWith toAddress run id state =
        .throw (.unableToFindObject id) state) ∨
    ∃ value, state.db.objs.find id = some value ∧
      ((∃ left, run (opened toAddress id value state) = .ok left ∧
        modifyWith toAddress run id state = closed toAddress id left) ∨
      ∃ fault left,
        run (opened toAddress id value state) = .throw fault left ∧
          modifyWith toAddress run id state =
            .throw fault (abandoned id left)) := by
  unfold modifyWith
  cases found : state.db.objs.find id with
  | none => exact .inl ⟨rfl, rfl⟩
  | some value =>
      refine .inr ⟨value, rfl, ?_⟩
      dsimp only
      cases runs : run (opened toAddress id value state) with
      | ok left => exact .inl ⟨left, rfl, rfl⟩
      | throw fault left => exact .inr ⟨fault, left, rfl, rfl⟩

theorem grows_closed : Grows state (closed toAddress id state).state := by
  rcases closed_cases toAddress id state with
    ⟨_, thrown⟩ | ⟨value, _, returned⟩ | dropped
  · rw [thrown]
    exact Grows.refl state
  · rw [returned]
    exact grows_of_undoDb rfl
  · rw [dropped]
    exact grows_of_undoDb rfl

omit [DecidableEq K] [DecidableEq A] in
theorem grows_abandoned : Grows state (abandoned id state) := by
  rcases abandoned_cases id state with same | dropped
  · rw [same]
    exact Grows.refl state
  · rw [dropped]
    exact grows_of_undoDb rfl

theorem modifyWith_grows (grows : ∀ before, Grows before (run before).state) :
    Grows state (modifyWith toAddress run id state).state := by
  rcases modifyWith_cases toAddress run id state with
    ⟨_, thrown⟩ |
      ⟨value, _, ⟨left, runs, same⟩ | ⟨fault, left, runs, same⟩⟩
  · rw [thrown]
    exact Grows.refl state
  · have within := grows (opened toAddress id value state)
    rw [runs] at within
    rw [same]
    exact (grows_opened.trans within).trans grows_closed
  · have within := grows (opened toAddress id value state)
    rw [runs] at within
    rw [same]
    exact (grows_opened.trans within).trans grows_abandoned

omit [DecidableEq K] [DecidableEq A] in
theorem write_grows (self : ObjectId)
    (callback : Callback (AccountObject K A)) :
    Grows state (write self callback state).state := by
  rcases write_cases self callback state with
    ⟨_, thrown⟩ | ⟨value, _, ⟨fault, _, thrown⟩ | ⟨_, returned⟩⟩
  · rw [thrown]
    exact Grows.refl state
  · rw [thrown]
    exact grows_of_undoDb rfl
  · rw [returned]
    exact grows_of_undoDb rfl

theorem runLambda_grows (self : ObjectId) (lambda : Lambda K A)
    (state : AccountIndex K A) :
    Grows state (runLambda toAddress self lambda state).state := by
  induction lambda generalizing self state with
  | plain callback => exact write_grows self callback
  | nested callback other inner rest innerHypothesis restHypothesis =>
      rw [runLambda]
      refine Outcome.bind_state_keeps (write_grows self callback) ?_
      intro written _ untilWritten
      refine Outcome.bind_state_keeps ?_ ?_
      · exact untilWritten.trans (modifyWith_grows (innerHypothesis other))
      · intro modified _ untilModified
        exact untilModified.trans (restHypothesis self modified)

/-- The index follows an account whose row is right, whatever it takes for the
members before. -/
theorem Exact.closed (exact : Exact toAddress state)
    (returns : closed toAddress id state = .ok after) :
    Exact toAddress after := by
  rcases closed_cases toAddress id state with
    ⟨_, thrown⟩ | ⟨value, found, returned⟩ | dropped
  · rw [thrown] at returns
    cases returns
  · rw [returned] at returns
    cases returns
    have only :
        ChangesOnly id state (objectModified toAddress id value state) :=
      fun other different => ⟨Memberships.row_change_of_ne different, rfl⟩
    refine exact.changesOnly only ?_
    unfold ExactAt
    rw [stored_of_find (show (objectModified toAddress id value
      state).db.objs.find id = some value from found)]
    exact Memberships.row_change_of_same ((exact id).row_eq found)
  · rw [dropped] at returns
    cases returns

/-- A modification whose lambda keeps the index exact, and mendable where it
throws, does so too. -/
theorem modifyWith_keeps (exact : Exact toAddress state)
    (grows : ∀ before, Grows before (run before).state)
    (returned :
      ∀ value left, state.db.objs.find id = some value →
        run (opened toAddress id value state) = .ok left →
        Exact toAddress left)
    (thrown :
      ∀ value fault left, state.db.objs.find id = some value →
        state.db.undoDb.disabled = false →
        run (opened toAddress id value state) = .throw fault left →
        Mendable toAddress left) :
    (∀ after, modifyWith toAddress run id state = .ok after →
      Exact toAddress after) ∧
    (state.db.undoDb.disabled = false →
      ∀ fault after,
        modifyWith toAddress run id state = .throw fault after →
        Mendable toAddress after) := by
  rcases modifyWith_cases toAddress run id state with
    ⟨_, missing⟩ |
      ⟨value, found, ⟨left, runs, same⟩ | ⟨fault, left, runs, same⟩⟩
  · rw [missing]
    refine ⟨?_, ?_⟩
    · intro after returns
      cases returns
    · intro _ fault after throws
      cases throws
      exact fun other => (exact other).mendableAt
  · have exactLeft := returned value left found runs
    rw [same]
    refine ⟨fun after returns => exactLeft.closed returns, ?_⟩
    intro enabled fault after throws
    have mendable : Mendable toAddress left :=
      fun other => (exactLeft other).mendableAt
    rcases closed_cases toAddress id left with
      ⟨_, missing⟩ | ⟨_, _, returns⟩ | dropped
    · rw [missing] at throws
      cases throws
      exact mendable
    · rw [returns] at throws
      cases throws
    · rw [dropped] at throws
      cases throws
      have within := grows (opened toAddress id value state)
      rw [runs] at within
      exact mendable.drop (within.2 id (touched_opened toAddress enabled value))
  · rw [same]
    refine ⟨?_, ?_⟩
    · intro after returns
      cases returns
    · intro enabled fault after throws
      cases throws
      have mendable := thrown value fault left found enabled runs
      rcases abandoned_cases id left with stays | dropped
      · rw [stays]
        exact mendable
      · have within := grows (opened toAddress id value state)
        rw [runs] at within
        rw [dropped]
        exact mendable.drop (within.2 id (touched_opened toAddress enabled value))

end Modifications

section Lambdas

variable (toAddress) in
def KeepsMembers (self : ObjectId) (callback : Callback (AccountObject K A))
    (state : AccountIndex K A) : Prop :=
  ∀ value, state.db.objs.find self = some value →
    members toAddress (callback value).1 = members toAddress value

variable (toAddress) in
/-- A lambda in which nothing is nested may do anything but throw; where it
throws, it has kept the members, or the session has not touched the account
before. -/
def SafeThrow (self : ObjectId) (callback : Callback (AccountObject K A))
    (state : AccountIndex K A) : Prop :=
  ∀ value, state.db.objs.find self = some value →
    (callback value).2.isSome →
      members toAddress (callback value).1 = members toAddress value ∨
        ¬ Touched state self

variable (toAddress) in
/-- What a modification asks of its lambda; `quiet` is asked of one in which
something is nested. -/
def ProperWith (quiet : AccountIndex K A → Prop) (id : ObjectId)
    (lambda : Lambda K A) (state : AccountIndex K A) : Prop :=
  match lambda with
  | .plain callback => SafeThrow toAddress id callback state
  | .nested _ _ _ _ =>
      ∀ value, state.db.objs.find id = some value →
        quiet (opened toAddress id value state)

variable (toAddress) in
/-- The writes of the lambda keep the members of its own account, and the
modifications in it are proper. -/
def Quiet (self : ObjectId) : Lambda K A → AccountIndex K A → Prop
  | .plain callback, state => KeepsMembers toAddress self callback state
  | .nested callback other inner rest, state =>
      KeepsMembers toAddress self callback state ∧
        ∀ written, write self callback state = .ok written →
          ProperWith toAddress (Quiet other inner) other inner written ∧
            ∀ modified, modify toAddress other inner written = .ok modified →
              Quiet self rest modified

variable (toAddress) in
/-- A modification that the index can follow. -/
def Proper (id : ObjectId) (lambda : Lambda K A) (state : AccountIndex K A) :
    Prop :=
  ProperWith toAddress (Quiet toAddress id lambda) id lambda state

theorem Exact.at_opened (exact : Exact toAddress state) (id : ObjectId)
    (value : AccountObject K A) :
    Exact toAddress (opened toAddress id value state) :=
  exact

variable {fresh : AccountObject K A} {callback : Callback (AccountObject K A)}

/-- A write that keeps the members keeps the index exact. -/
theorem Exact.put (exact : Exact toAddress state)
    (found : state.db.objs.find id = some value)
    (same : members toAddress fresh = members toAddress value) :
    Exact toAddress (state.put id fresh) := by
  have only : ChangesOnly id state (state.put id fresh) := by
    intro other different
    exact ⟨rfl, (find_put_state state id other fresh).trans
      (if_neg different)⟩
  refine exact.changesOnly only ?_
  have foundFresh : (state.put id fresh).db.objs.find id = some fresh :=
    (find_put_state state id id fresh).trans (if_pos rfl)
  unfold ExactAt
  rw [stored_of_find foundFresh, same]
  exact (exact id).row_eq found

/-- The end of a modification in which the index still has the members from
before. -/
theorem Exact.written (exact : Exact toAddress state)
    (found : state.db.objs.find id = some value)
    (returns :
      Members.closed toAddress id
        ((opened toAddress id value state).put id fresh) = .ok after) :
    Exact toAddress after := by
  have foundFresh :
      ((opened toAddress id value state).put id fresh).db.objs.find id =
        some fresh :=
    (find_put_state _ id id fresh).trans (if_pos rfl)
  rcases closed_cases toAddress id
    ((opened toAddress id value state).put id fresh) with
    ⟨_, missing⟩ | ⟨left, foundLeft, returned⟩ | dropped
  · rw [missing] at returns
    cases returns
  · rw [foundFresh] at foundLeft
    cases foundLeft
    rw [returned] at returns
    cases returns
    have only :
        ChangesOnly id state
          (objectModified toAddress id fresh
            ((opened toAddress id value state).put id fresh)) := by
      intro other different
      refine ⟨Memberships.row_change_of_ne different, ?_⟩
      exact (find_put_state _ id other fresh).trans (if_neg different)
    refine exact.changesOnly only ?_
    unfold ExactAt
    rw [stored_of_find (show (objectModified toAddress id fresh
      ((opened toAddress id value state).put id fresh)).db.objs.find id =
        some fresh from foundFresh)]
    exact Memberships.row_change_of_row ((exact id).row_eq found)
  · rw [dropped] at returns
    cases returns

variable (toAddress) in
/-- A modification in which nothing is nested writes, and is closed or
abandoned. -/
theorem modify_plain_cases (id : ObjectId)
    (callback : Callback (AccountObject K A)) (state : AccountIndex K A) :
    (state.db.objs.find id = none ∧
      modify toAddress id (.plain callback) state =
        .throw (.unableToFindObject id) state) ∨
    ∃ value, state.db.objs.find id = some value ∧
      ((callback value).2 = none ∧
        modify toAddress id (.plain callback) state =
          closed toAddress id
            ((opened toAddress id value state).put id (callback value).1) ∨
      ∃ fault, (callback value).2 = some fault ∧
        modify toAddress id (.plain callback) state =
          .throw fault
            (abandoned id
              ((opened toAddress id value state).put id
                (callback value).1))) := by
  unfold modify modifyWith
  cases found : state.db.objs.find id with
  | none => exact .inl ⟨rfl, rfl⟩
  | some value =>
      refine .inr ⟨value, rfl, ?_⟩
      dsimp only [runLambda]
      rcases write_cases id callback (opened toAddress id value state) with
        ⟨none, _⟩ |
          ⟨present, isPresent, ⟨fault, throws, thrown⟩ | ⟨returns, written⟩⟩
      · exact absurd (Eq.trans found.symm none) (by simp)
      · cases Option.some.inj (Eq.trans found.symm isPresent)
        rw [thrown]
        exact .inr ⟨fault, throws, rfl⟩
      · cases Option.some.inj (Eq.trans found.symm isPresent)
        rw [written]
        exact .inl ⟨returns, rfl⟩

/-- Writing and closing: the index follows from what it has noted. -/
theorem Exact.plain (exact : Exact toAddress state)
    (returns : modify toAddress id (.plain callback) state = .ok after) :
    Exact toAddress after := by
  rcases modify_plain_cases toAddress id callback state with
    ⟨_, missing⟩ | ⟨value, found, ⟨_, same⟩ | ⟨_, _, thrown⟩⟩
  · rw [missing] at returns
    cases returns
  · rw [same] at returns
    exact exact.written found returns
  · rw [thrown] at returns
    cases returns

theorem Exact.others_written (exact : Exact toAddress state)
    (value fresh : AccountObject K A) (different : other ≠ id) :
    ExactAt toAddress ((opened toAddress id value state).put id fresh)
      other :=
  (exact other).congr rfl
    ((find_put_state _ id other fresh).trans (if_neg different))

/-- The first modification of an account in its session: the index still has
what undo will write back. -/
theorem MendableAt.written (exact : Exact toAddress state)
    (enabled : state.db.undoDb.disabled = false)
    (found : state.db.objs.find id = some value)
    (untouched : ¬ Touched state id) (fresh : AccountObject K A) :
    MendableAt toAddress
      ((opened toAddress id value state).put id fresh).back.oldValues.entries
      ((opened toAddress id value state).put id fresh).back.newIds.entries
      ((opened toAddress id value state).put id fresh) id := by
  have back :
      ((opened toAddress id value state).put id fresh).back =
        { state.back with
          oldValues := state.back.oldValues.insert id value } := by
    refine (back_opened toAddress enabled).trans ?_
    rcases recordModify_cases state.back id value with
      ⟨touched, _⟩ | ⟨_, recorded⟩
    · exact absurd touched untouched
    · exact recorded
  have row :
      ((opened toAddress id value state).put id fresh).memberships.row id =
        members toAddress value :=
    (exact id).row_eq found
  refine ⟨?_, ?_, ?_⟩
  · intro notNew notOld
    exact absurd (touched_opened toAddress enabled value)
      (not_or.mpr ⟨notNew, notOld⟩)
  · intro before present old _
    have looked := AList.mem_lookup_iff.mpr old
    rw [back, Option.mem_def, AList.lookup_insert] at looked
    cases looked
    rw [row, Finset.sdiff_self]
    exact ⟨Finset.empty_subset _, Finset.inter_subset_right⟩
  · intro present new
    rw [back] at new
    exact absurd (.inl new) untouched

theorem Exact.mendable_dropped (exact : Exact toAddress state)
    (enabled : state.db.undoDb.disabled = false) :
    Mendable toAddress
      (((opened toAddress id value state).put id fresh).drop id) := by
  intro other
  by_cases here : other = id
  · subst here
    refine MendableAt.gone (touched_opened toAddress enabled value) ?_
    rw [find_drop_state, if_pos rfl]
  · refine ExactAt.mendableAt ?_
    refine (exact.others_written value fresh here).congr rfl ?_
    rw [find_drop_state, if_neg here]

/-- A lambda in which nothing is nested, and that throws safely. -/
theorem Exact.plain_mendable (exact : Exact toAddress state)
    (enabled : state.db.undoDb.disabled = false)
    (safe : SafeThrow toAddress id callback state) {fault : Fault}
    (throws :
      modify toAddress id (.plain callback) state = .throw fault after) :
    Mendable toAddress after := by
  rcases modify_plain_cases toAddress id callback state with
    ⟨_, missing⟩ | ⟨value, found, ⟨_, same⟩ | ⟨thrownFault, isFault, thrown⟩⟩
  · rw [missing] at throws
    cases throws
    exact fun other => (exact other).mendableAt
  · -- The lambda has returned, so its keys were taken.
    rw [same] at throws
    rcases closed_cases toAddress id
      ((opened toAddress id value state).put id (callback value).1) with
      ⟨none, _⟩ | ⟨_, _, returned⟩ | dropped
    · rw [find_put_state, if_pos rfl] at none
      cases none
    · rw [returned] at throws
      cases throws
    · rw [dropped] at throws
      cases throws
      exact exact.mendable_dropped enabled
  · rw [thrown] at throws
    cases throws
    have written :
        Mendable toAddress
          ((opened toAddress id value state).put id (callback value).1) := by
      intro other
      by_cases here : other = id
      · subst here
        rcases safe value found (by simp [isFault]) with kept | untouched
        · exact ((exact.at_opened other value).put found kept other).mendableAt
        · exact MendableAt.written exact enabled found untouched _
      · exact (exact.others_written value _ here).mendableAt
    rcases abandoned_cases id
      ((opened toAddress id value state).put id (callback value).1) with
      stays | dropped
    · rw [stays]
      exact written
    · rw [dropped]
      exact written.drop (touched_opened toAddress enabled value)

theorem Exact.quiet_write (exact : Exact toAddress state) {self : ObjectId}
    (keeps : KeepsMembers toAddress self callback state) :
    Exact toAddress (write self callback state).state := by
  rcases write_cases self callback state with
    ⟨_, missing⟩ | ⟨value, found, ⟨_, _, thrown⟩ | ⟨_, written⟩⟩
  · rw [missing]
    exact exact
  · rw [thrown]
    exact exact.put found (keeps value found)
  · rw [written]
    exact exact.put found (keeps value found)

/-- What holds of a call that starts from an exact index: it is exact where the
call returns, and mendable where it throws. -/
def Follows (state : AccountIndex K A) (toAddress : K → A)
    (outcome : Outcome Fault (AccountIndex K A)) : Prop :=
  (∀ after, outcome = .ok after → Exact toAddress after) ∧
    (state.db.undoDb.disabled = false →
      ∀ fault after, outcome = .throw fault after →
        Mendable toAddress after)

theorem follows_of_exact {outcome : Outcome Fault (AccountIndex K A)}
    (exact : Exact toAddress outcome.state) :
    Follows state toAddress outcome := by
  refine ⟨?_, ?_⟩
  · intro after returned
    rw [returned] at exact
    exact exact
  · intro _ fault after thrown
    rw [thrown] at exact
    exact fun other => (exact other).mendableAt

/-- A proper modification, if a quiet lambda follows from the opened state. -/
theorem modify_follows_of_quiet (exact : Exact toAddress state)
    (lambda : Lambda K A)
    (quietly :
      ∀ before, Exact toAddress before →
        Quiet toAddress id lambda before →
        Follows before toAddress (runLambda toAddress id lambda before))
    (proper : Proper toAddress id lambda state) :
    Follows state toAddress (modify toAddress id lambda state) := by
  cases lambda with
  | plain callback =>
      exact ⟨fun after returns => exact.plain returns,
        fun enabled fault after throws =>
          exact.plain_mendable enabled proper throws⟩
  | nested callback other inner rest =>
      refine modifyWith_keeps exact (runLambda_grows id _) ?_ ?_
      · intro value left found runs
        exact (quietly _ (exact.at_opened id value)
          (proper value found)).1 left runs
      · intro value fault left found enabled runs
        refine (quietly _ (exact.at_opened id value)
          (proper value found)).2 ?_ fault left runs
        exact grows_opened.1.trans enabled

theorem runLambda_follows (self : ObjectId) (lambda : Lambda K A)
    (state : AccountIndex K A) (exact : Exact toAddress state)
    (quiet : Quiet toAddress self lambda state) :
    Follows state toAddress (runLambda toAddress self lambda state) := by
  induction lambda generalizing self state with
  | plain callback => exact follows_of_exact (exact.quiet_write quiet)
  | nested callback other inner rest innerHypothesis restHypothesis =>
      obtain ⟨keeps, proceeds⟩ := quiet
      have exactWritten := exact.quiet_write keeps
      have growsWritten := @write_grows K A state self callback
      rw [runLambda]
      cases writes : write self callback state with
      | throw fault left =>
          rw [writes] at exactWritten
          exact follows_of_exact exactWritten
      | ok written =>
          rw [writes] at exactWritten growsWritten
          obtain ⟨proper, later⟩ := proceeds written writes
          have inside :=
            modify_follows_of_quiet exactWritten inner
              (fun before exactBefore quietBefore =>
                innerHypothesis other before exactBefore quietBefore)
              proper
          have growsInside :
              Grows written (modify toAddress other inner written).state :=
            modifyWith_grows (runLambda_grows other inner)
          rw [Outcome.bind_ok]
          change Follows state toAddress
            ((modify toAddress other inner written).bind _)
          cases modifies : modify toAddress other inner written with
          | throw fault left =>
              refine ⟨?_, ?_⟩
              · intro after returns
                cases returns
              · intro enabled fault after throws
                cases throws
                exact inside.2 (growsWritten.1.trans enabled) _ _ modifies
          | ok modified =>
              rw [modifies] at growsInside
              have rests :=
                restHypothesis self modified (inside.1 modified modifies)
                  (later modified modifies)
              refine ⟨rests.1, fun enabled => rests.2 ?_⟩
              exact growsInside.1.trans (growsWritten.1.trans enabled)

/-- A proper modification keeps the index exact where it returns, and mendable
where it throws. -/
theorem modify_follows (exact : Exact toAddress state)
    {lambda : Lambda K A} (proper : Proper toAddress id lambda state) :
    Follows state toAddress (modify toAddress id lambda state) :=
  modify_follows_of_quiet exact lambda (runLambda_follows id lambda) proper

end Lambdas

end GxbCore.Members
