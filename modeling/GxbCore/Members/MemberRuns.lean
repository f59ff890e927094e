import GxbCore.Members.Mending

/-!
# Runs of the account index

Undo makes a mendable index exact.  So in every run in which the modifications
are proper, and a modification that throws is undone, the index is the inverse
of membership in the stored accounts.
-/

namespace GxbCore.Members

open GxbCore.Db

variable {K A : Type} [DecidableEq K] [DecidableEq A] {toAddress : K → A}
  {walk : IterationOrder} {state after : AccountIndex K A} {id : ObjectId}

section Undo

variable {oldValues : List (Σ _ : ObjectId, AccountObject K A)}
  {newIds : List (Σ _ : ObjectId, Unit)}
  {item : Σ _ : ObjectId, AccountObject K A}

theorem restoreOldValue_spec
    (returns : restoreOldValue toAddress item state = .ok after) :
    ChangesOnly item.1 state after ∧
      ∃ value, state.db.objs.find item.1 = some value ∧
        after.db.objs.find item.1 = some item.2 ∧
        after.memberships =
          state.memberships.change (members toAddress value)
            (members toAddress item.2) item.1 := by
  unfold restoreOldValue at returns
  rcases modify_plain_cases toAddress item.1 (fun _ => (item.2, none)) state
    with ⟨_, missing⟩ | ⟨value, found, ⟨_, same⟩ | ⟨_, isFault, _⟩⟩
  · rw [missing] at returns
    cases returns
  · rw [same] at returns
    have foundOld :
        ((opened toAddress item.1 value state).put item.1
          item.2).db.objs.find item.1 = some item.2 :=
      (find_put_state _ _ _ _).trans (if_pos rfl)
    rcases closed_cases toAddress item.1
      ((opened toAddress item.1 value state).put item.1 item.2) with
      ⟨_, missing⟩ | ⟨left, foundLeft, returned⟩ | dropped
    · rw [missing] at returns
      cases returns
    · rw [foundOld] at foundLeft
      cases foundLeft
      rw [returned] at returns
      cases returns
      refine ⟨?_, value, found, foundOld, rfl⟩
      intro other different
      refine ⟨Memberships.row_change_of_ne different, ?_⟩
      exact (find_put_state _ item.1 other item.2).trans (if_neg different)
    · rw [dropped] at returns
      cases returns
  · cases isFault

theorem MendableAt.changesOnly {other : ObjectId}
    (mendable : MendableAt toAddress oldValues newIds state other)
    (only : ChangesOnly id state after) (different : other ≠ id) :
    MendableAt toAddress oldValues newIds after other := by
  obtain ⟨sameRow, sameObject⟩ := only other different
  obtain ⟨untouched, old, new⟩ := mendable
  refine ⟨fun notNew notOld => (untouched notNew notOld).congr sameRow
    sameObject, ?_, ?_⟩
  · rw [sameRow, sameObject]
    exact old
  · rw [sameRow, sameObject]
    exact new

/-- What is not among the items that are done is still to be mended. -/
theorem MendableAt.tail_old
    (mendable : MendableAt toAddress (item :: oldValues) newIds state id)
    (different : id ≠ item.1) :
    MendableAt toAddress oldValues newIds state id where
  untouched notNew notOld := by
    refine mendable.untouched notNew ?_
    rw [List.keys_cons]
    exact List.not_mem_cons_of_ne_of_not_mem different notOld
  old before value old :=
    mendable.old before value (List.mem_cons_of_mem _ old)
  new := mendable.new

theorem MendableAt.tail_new {item : Σ _ : ObjectId, Unit}
    (mendable : MendableAt toAddress oldValues (item :: newIds) state id)
    (different : id ≠ item.1) :
    MendableAt toAddress oldValues newIds state id where
  untouched notNew notOld := by
    refine mendable.untouched ?_ notOld
    rw [List.keys_cons]
    exact List.not_mem_cons_of_ne_of_not_mem different notNew
  old := mendable.old
  new value new := by
    refine mendable.new value ?_
    rw [List.keys_cons]
    exact List.mem_cons_of_mem _ new

theorem restoreOldValues_mend
    (mendable : ∀ id, MendableAt toAddress oldValues newIds state id)
    (returns :
      forEach (restoreOldValue toAddress) oldValues state = .ok after) :
    ∀ id, MendableAt toAddress [] newIds after id := by
  induction oldValues generalizing state with
  | nil =>
      cases returns
      exact mendable
  | cons item rest ih =>
      rw [forEach_cons, Outcome.bind_eq_ok] at returns
      obtain ⟨middle, first, later⟩ := returns
      refine ih ?_ later
      obtain ⟨only, value, found, restored, follows⟩ :=
        restoreOldValue_spec first
      intro id
      by_cases here : id = item.1
      · subst here
        refine ExactAt.mendableAt ?_
        unfold ExactAt
        rw [stored_of_find restored, follows]
        exact Memberships.row_change_eq_iff.mpr
          ((mendable item.1).old item.2 value List.mem_cons_self found)
      · exact ((mendable id).tail_old here).changesOnly only here

theorem removeNewIds_mend
    (mendable : ∀ id, MendableAt toAddress [] newIds state id)
    (returns : forEach (removeNewId toAddress) newIds state = .ok after) :
    Exact toAddress after := by
  induction newIds generalizing state with
  | nil =>
      cases returns
      exact fun id => (mendable id).untouched List.not_mem_nil
        List.not_mem_nil
  | cons item rest ih =>
      rw [forEach_cons, Outcome.bind_eq_ok] at returns
      obtain ⟨middle, first, later⟩ := returns
      refine ih ?_ later
      obtain ⟨value, found, only, gone, row⟩ := remove_spec first
      intro id
      by_cases here : id = item.1
      · subst here
        refine ExactAt.mendableAt ?_
        unfold ExactAt
        rw [stored_of_none gone, row]
        refine Finset.sdiff_eq_empty_iff_subset.mpr ?_
        refine (mendable item.1).new value ?_ found
        rw [List.keys_cons]
        exact List.mem_cons_self
      · exact ((mendable id).tail_new here).changesOnly only here

theorem Exact.congr_objs (exact : Exact toAddress state)
    (sameRows : after.memberships = state.memberships)
    (sameObjects : ∀ id, after.db.objs.find id = state.db.objs.find id) :
    Exact toAddress after :=
  fun id => (exact id).congr (by rw [sameRows]) (sameObjects id)

theorem Exact.restoreNextIds (exact : Exact toAddress state)
    {items : List (Σ _ : IndexId, ObjectId)}
    (returns :
      forEach (fun item => onDb (restoreNextId item)) items state =
        .ok after) : Exact toAddress after := by
  have kept :
      Exact toAddress
        (forEach (fun item => onDb (restoreNextId item)) items
          state).state := by
    refine forEach_state_keeps ?_ exact
    intro item _ before exactBefore
    exact exactBefore.congr_objs rfl fun id => Objects.find_setNextId _ _ _ _
  rw [returns] at kept
  exact kept

theorem Exact.reinsertRemoved (exact : Exact toAddress state)
    {items : List (Σ _ : ObjectId, AccountObject K A)}
    (returns : forEach (reinsertRemoved toAddress) items state = .ok after) :
    Exact toAddress after := by
  induction items generalizing state with
  | nil =>
      cases returns
      exact exact
  | cons item rest ih =>
      rw [forEach_cons, Outcome.bind_eq_ok] at returns
      obtain ⟨middle, first, later⟩ := returns
      exact ih (exact.insert first) later

theorem MendableAt.perm {otherValues : List (Σ _ : ObjectId, AccountObject K A)}
    {otherIds : List (Σ _ : ObjectId, Unit)}
    (mendable : MendableAt toAddress oldValues newIds state id)
    (values : otherValues.Perm oldValues) (ids : otherIds.Perm newIds) :
    MendableAt toAddress otherValues otherIds state id where
  untouched notNew notOld :=
    mendable.untouched
      (fun new => notNew ((ids.map Sigma.fst).mem_iff.mpr new))
      (fun old => notOld ((values.map Sigma.fst).mem_iff.mpr old))
  old before value old := mendable.old before value (values.mem_iff.mp old)
  new value new :=
    mendable.new value ((ids.map Sigma.fst).mem_iff.mp new)

theorem restore_exact {back : UndoState (AccountObject K A)}
    (mendable :
      ∀ id, MendableAt toAddress back.oldValues.entries back.newIds.entries
        state id)
    (returns : restore toAddress walk back state = .ok after) :
    Exact toAddress after := by
  unfold restore at returns
  rw [Outcome.bind_eq_ok] at returns
  obtain ⟨first, restored, returns⟩ := returns
  rw [Outcome.bind_eq_ok] at returns
  obtain ⟨second, removed, returns⟩ := returns
  rw [Outcome.bind_eq_ok] at returns
  obtain ⟨third, counted, inserted⟩ := returns
  have valuesMended :=
    restoreOldValues_mend
      (fun id => (mendable id).perm (walk.perm _) (walk.perm _)) restored
  have exactSecond := removeNewIds_mend valuesMended removed
  exact (exactSecond.restoreNextIds counted).reinsertRemoved inserted

theorem undo_enabled (returns : undo toAddress walk state = .ok after) :
    state.db.undoDb.disabled = false := by
  cases disabled : state.db.undoDb.disabled with
  | false => rfl
  | true =>
      rw [undo, if_pos disabled] at returns
      cases returns

theorem undo_exact (mendable : Mendable toAddress state)
    (returns : undo toAddress walk state = .ok after) :
    Exact toAddress after := by
  unfold undo at returns
  split at returns
  · cases returns
  split at returns
  · cases returns
  cases stack : state.db.undoDb.stack with
  | nil =>
      rw [stack] at returns
      cases returns
  | cons back older =>
      rw [stack] at returns
      obtain ⟨restored, restores, ended⟩ := Outcome.bind_eq_ok.mp returns
      cases ended
      have isBack : state.back = back := by
        simp [AccountIndex.back, UndoDatabase.backOrNew, stack]
      have exact : Exact toAddress restored := by
        refine restore_exact ?_ restores
        intro id
        have atId := mendable id
        rw [isBack] at atId
        exact ⟨atId.untouched, atId.old, atId.new⟩
      exact exact.congr_objs rfl fun id => rfl

theorem popCommit_exact (exact : Exact toAddress state)
    (returns : popCommit toAddress walk state = .ok after) :
    Exact toAddress after := by
  unfold popCommit at returns
  split at returns
  · split at returns
    · cases returns
    · split at returns
      · next restores =>
          cases returns
          have disabled :
              Exact toAddress
                { state with db := setDisabled true state.db } :=
            exact.congr_objs rfl fun id => rfl
          have restored :=
            restore_exact (fun id => (disabled id).mendableAt) restores
          exact restored.congr_objs rfl fun id => rfl
      · cases returns
  · cases returns

end Undo

section Runs

/-- What happens to the accounts. -/
inductive Action (K A : Type) where
  | create (value : AccountObject K A)
  | modify (id : ObjectId) (lambda : Lambda K A)
  | remove (id : ObjectId)
  /-- a modification that throws, and the session is undone -/
  | fail (id : ObjectId) (lambda : Lambda K A)
  | undo
  | popCommit
  /-- `start_undo_session`, `merge`, `commit`, `disable`, `enable` and
  `set_max_size` -/
  | session (call : Database (AccountObject K A) →
      Outcome Fault (Database (AccountObject K A)))

/-- The calls of the undo database that leave the objects alone. -/
inductive SessionCall (walk : IterationOrder) :
    (Database (AccountObject K A) →
      Outcome Fault (Database (AccountObject K A))) → Prop
  | start (forceEnable : Bool) :
      SessionCall walk fun db => .ok (startUndoSession forceEnable db)
  | merge : SessionCall walk (merge walk)
  | commit : SessionCall walk commit
  | disable (disabled : Bool) :
      SessionCall walk fun db => .ok (setDisabled disabled db)
  | maxSize (size : Nat) :
      SessionCall walk fun db => .ok (setMaxSize size db)

/-- The state after an action that returns. -/
inductive Step (toAddress : K → A) (walk : IterationOrder) :
    AccountIndex K A → Action K A → AccountIndex K A → Prop
  | create {state after : AccountIndex K A} (value : AccountObject K A)
      (returns : create toAddress value state = .ok after) :
      Step toAddress walk state (.create value) after
  | modify {state after : AccountIndex K A} (id : ObjectId)
      (lambda : Lambda K A)
      (returns : modify toAddress id lambda state = .ok after) :
      Step toAddress walk state (.modify id lambda) after
  | remove {state after : AccountIndex K A} (id : ObjectId)
      (returns : remove toAddress id state = .ok after) :
      Step toAddress walk state (.remove id) after
  | fail {state left after : AccountIndex K A} (id : ObjectId)
      (lambda : Lambda K A) {fault : Fault}
      (throws : modify toAddress id lambda state = .throw fault left)
      (undoes : undo toAddress walk left = .ok after) :
      Step toAddress walk state (.fail id lambda) after
  | undo {state after : AccountIndex K A}
      (returns : undo toAddress walk state = .ok after) :
      Step toAddress walk state .undo after
  | popCommit {state after : AccountIndex K A}
      (returns : popCommit toAddress walk state = .ok after) :
      Step toAddress walk state .popCommit after
  | session {state after : AccountIndex K A}
      {call : Database (AccountObject K A) →
        Outcome Fault (Database (AccountObject K A))}
      (isSession : SessionCall walk call)
      (returns : onDb call state = .ok after) :
      Step toAddress walk state (.session call) after

/-- The states that a run reaches from a database without accounts, if all its
actions are proper. -/
inductive Run (toAddress : K → A) (walk : IterationOrder)
    (proper : AccountIndex K A → Action K A → Prop) :
    AccountIndex K A → Prop
  | start (nextId : IndexId → Nat)
      (undoDb : UndoDatabase (AccountObject K A)) :
      Run toAddress walk proper
        { db := { objs := { objects := ∅, nextId := nextId }
                  undoDb := undoDb }
          memberships := ∅
          beforeMembers := ∅ }
  | step {state after : AccountIndex K A} {action : Action K A}
      (reached : Run toAddress walk proper state)
      (allowed : proper state action)
      (steps : Step toAddress walk state action after) :
      Run toAddress walk proper after

/-- The modifications, those that throw too, are proper. -/
def ProperAction (toAddress : K → A) (state : AccountIndex K A) :
    Action K A → Prop
  | .modify id lambda => Proper toAddress id lambda state
  | .fail id lambda => Proper toAddress id lambda state
  | _ => True

omit [DecidableEq K] [DecidableEq A] in
theorem SessionCall.objs
    {call : Database (AccountObject K A) →
      Outcome Fault (Database (AccountObject K A))}
    (isSession : SessionCall walk call)
    {db left : Database (AccountObject K A)} (returns : call db = .ok left) :
    left.objs = db.objs := by
  cases isSession with
  | start forceEnable =>
      cases returns
      unfold startUndoSession
      split
      · rfl
      · rfl
  | merge =>
      unfold Db.merge at returns
      dsimp only at returns
      split at returns
      · cases returns
      split at returns
      · cases returns
        rfl
      split at returns
      · cases returns
        rfl
      · cases returns
  | commit =>
      unfold Db.commit at returns
      split at returns
      · cases returns
        rfl
      · cases returns
  | disable disabled =>
      cases returns
      rfl
  | maxSize size =>
      cases returns
      rfl

theorem Exact.step {action : Action K A} (exact : Exact toAddress state)
    (allowed : ProperAction toAddress state action)
    (steps : Step toAddress walk state action after) :
    Exact toAddress after := by
  cases steps with
  | create value returns => exact exact.create returns
  | modify id lambda returns => exact (modify_follows exact allowed).1 after returns
  | remove id returns => exact exact.remove returns
  | fail id lambda throws undoes =>
      have grows : Grows state (modify toAddress id lambda state).state :=
        modifyWith_grows (runLambda_grows id lambda)
      rw [throws] at grows
      refine undo_exact ?_ undoes
      refine (modify_follows exact allowed).2 ?_ _ _ throws
      exact grows.1.symm.trans (undo_enabled undoes)
  | undo returns =>
      exact undo_exact (fun id => (exact id).mendableAt) returns
  | popCommit returns => exact popCommit_exact exact returns
  | session isSession returns =>
      obtain ⟨db, called, rfl⟩ := hooked_eq_ok returns
      refine exact.congr_objs rfl ?_
      intro id
      exact congrArg (fun objs => objs.find id) (isSession.objs called)

theorem Run.exact (run : Run toAddress walk (ProperAction toAddress) state) :
    Exact toAddress state := by
  induction run with
  | start nextId undoDb => exact fun id => rfl
  | step _ allowed steps ih =>
      exact ih.step allowed steps

/-- In every run whose modifications are proper, the three maps are the inverse
of membership in the stored accounts. -/
theorem member_index_exact
    (run : Run toAddress walk (ProperAction toAddress) state) :
    (∀ member owner, (.account member, owner) ∈ state.memberships ↔
      ∃ a, state.db.objs.find owner = some a ∧
        member ∈ getAccountMembers a) ∧
    (∀ member owner, (.key member, owner) ∈ state.memberships ↔
      ∃ a, state.db.objs.find owner = some a ∧ member ∈ getKeyMembers a) ∧
    ∀ member owner, (.address member, owner) ∈ state.memberships ↔
      ∃ a, state.db.objs.find owner = some a ∧
        member ∈ getAddressMembers toAddress a := by
  have pairs :
      ∀ member owner, (member, owner) ∈ state.memberships ↔
        ∃ a, state.db.objs.find owner = some a ∧
          member ∈ members toAddress a := by
    intro member owner
    rw [← Memberships.mem_row, run.exact owner]
    unfold AccountIndex.stored
    cases state.db.objs.find owner with
    | none => simp
    | some a => simp
  refine ⟨?_, ?_, ?_⟩
  · intro member owner
    rw [pairs]
    simp [members]
  · intro member owner
    rw [pairs]
    simp [members]
  · intro member owner
    rw [pairs]
    simp [members]

end Runs

section Sample

def plainAddress (key : Nat) : Nat :=
  key + 100

def plainAccount (name : String) (key : Nat) : AccountObject Nat Nat where
  name := name
  owner := ⟨[], [(key, 1)], []⟩
  active := ⟨[], [(key, 1)], []⟩
  memoKey := key

def emptyIndex : AccountIndex Nat Nat where
  db :=
    { objs := { objects := ∅, nextId := fun _ => 0 }
      undoDb :=
        { activeSessions := 0, disabled := false, stack := [],
          maxSize := 256 } }
  memberships := ∅
  beforeMembers := ∅

/-- The id of the account that is created first, and of the next. -/
def alice : ObjectId :=
  ⟨accountSpace, 0⟩

def bob : ObjectId :=
  ⟨accountSpace, 1⟩

/-- Alice has key 1 and Bob has key 2; then a session is started. -/
def twoAccounts : AccountIndex Nat Nat :=
  (onDb (fun db => .ok (startUndoSession true db))
    (create plainAddress (plainAccount "bob" 2)
      (create plainAddress (plainAccount "alice" 1)
        emptyIndex).state).state).state

theorem twoAccounts_reached
    (proper : AccountIndex Nat Nat → Action Nat Nat → Prop)
    (creates : ∀ state value, proper state (.create value))
    (sessions : ∀ state call, proper state (.session call)) :
    Run plainAddress IterationOrder.asListed proper twoAccounts := by
  have first :
      Run plainAddress IterationOrder.asListed proper
        (create plainAddress (plainAccount "alice" 1) emptyIndex).state :=
    .step (.start _ _) (creates _ _) (.create (plainAccount "alice" 1) rfl)
  have second :
      Run plainAddress IterationOrder.asListed proper
        (create plainAddress (plainAccount "bob" 2)
          (create plainAddress (plainAccount "alice" 1)
            emptyIndex).state).state :=
    .step first (creates _ _) (.create (plainAccount "bob" 2) rfl)
  exact .step second (sessions _ _) (.session (.start true) rfl)

/-- Nothing that the index looks at is written. -/
def unchanged : Callback (AccountObject Nat Nat) :=
  fun a => (a, none)

/-- As an account upgrade: Bob is modified in the lambda of Alice. -/
def upgrade : Lambda Nat Nat :=
  .nested unchanged bob (.plain unchanged) (.plain unchanged)

theorem upgrade_proper (state : AccountIndex Nat Nat) :
    Proper plainAddress alice upgrade state := by
  intro value _
  refine ⟨fun _ _ => rfl, ?_⟩
  intro written _
  refine ⟨?_, ?_⟩
  · intro _ _ throws
    cases throws
  · exact fun modified _ _ _ => rfl

def upgraded : AccountIndex Nat Nat :=
  (modify plainAddress alice upgrade twoAccounts).state

theorem member_index_exact_upgraded :
    (.key 1, alice) ∈ upgraded.memberships ∧
      ∀ member owner, (.key member, owner) ∈ upgraded.memberships ↔
        ∃ a, upgraded.db.objs.find owner = some a ∧
          member ∈ getKeyMembers a := by
  have reached :
      Run plainAddress IterationOrder.asListed (ProperAction plainAddress)
        upgraded := by
    refine .step
      (twoAccounts_reached _ (fun _ _ => trivial) (fun _ _ => trivial)) ?_
      (.modify alice upgrade rfl)
    exact upgrade_proper twoAccounts
  exact ⟨by decide, (member_index_exact reached).2.1⟩

/-- Bob is modified, and then Alice gets key 3. -/
def rekeyAround : Lambda Nat Nat :=
  .nested unchanged bob (.plain unchanged)
    (.plain fun _ => (plainAccount "alice" 3, none))

def rekeyed : AccountIndex Nat Nat :=
  (modify plainAddress alice rekeyAround twoAccounts).state

/-- Alice gets key 3. -/
def withKeyThree : AccountIndex Nat Nat :=
  (modify plainAddress alice
    (.plain fun _ => (plainAccount "alice" 3, none)) twoAccounts).state

def throwingRekey : Lambda Nat Nat :=
  .plain fun _ => (plainAccount "alice" 4, some (.callback 0))

def undone : AccountIndex Nat Nat :=
  (undo plainAddress IterationOrder.asListed
    (modify plainAddress alice throwingRekey withKeyThree).state).state

/-- A key of the account around a nested modification stays in the index, and
so does one that a session has added when a later modification in it throws. -/
theorem member_index_stale :
    (Run plainAddress IterationOrder.asListed (fun _ _ => True) rekeyed ∧
      (.key 1, alice) ∈ rekeyed.memberships ∧
      rekeyed.db.objs.find alice = some (plainAccount "alice" 3) ∧
      1 ∉ getKeyMembers (plainAccount "alice" 3)) ∧
    Run plainAddress IterationOrder.asListed (fun _ _ => True) undone ∧
      (.key 3, alice) ∈ undone.memberships ∧
      undone.db.objs.find alice = some (plainAccount "alice" 1) ∧
      3 ∉ getKeyMembers (plainAccount "alice" 1) := by
  have reached :
      Run plainAddress IterationOrder.asListed (fun _ _ => True)
        twoAccounts :=
    twoAccounts_reached _ (fun _ _ => trivial) (fun _ _ => trivial)
  refine ⟨⟨?_, by decide, by decide, by decide⟩, ?_, by decide, by decide,
    by decide⟩
  · exact .step reached trivial (.modify alice rekeyAround rfl)
  · have modified :
        Run plainAddress IterationOrder.asListed (fun _ _ => True)
          withKeyThree :=
      .step reached trivial
        (.modify alice (.plain fun _ => (plainAccount "alice" 3, none)) rfl)
    exact .step modified trivial (.fail alice throwingRekey rfl rfl)

end Sample

end GxbCore.Members
