import GxbCore.Db.FailedModify
import GxbCore.Members.MemberIndex

/-!
# The account index as a secondary index

For a lambda that modifies no other object, `account_member_index` follows the
accounts as the secondary indexes of `Indexed` do, with the members of an
account.
-/

namespace GxbCore.Members

open GxbCore.Db

variable {K A : Type} [DecidableEq K] [DecidableEq A] {toAddress : K → A}
  {walk : IterationOrder} {state : AccountIndex K A} {id : ObjectId}

def AccountIndex.indexed (state : AccountIndex K A) :
    Indexed (AccountObject K A) (Member K A) :=
  ⟨state.db, state.memberships, state.beforeMembers⟩

def accountMembers (toAddress : K → A) (_ : ObjectId)
    (a : AccountObject K A) : Finset (Member K A) :=
  members toAddress a

omit [DecidableEq K] [DecidableEq A] in
theorem hooked_indexed (call : Outcome Fault (Database (AccountObject K A)))
    {hook : AccountIndex K A → AccountIndex K A}
    {follows : Memberships (Member K A) ObjectId →
      Memberships (Member K A) ObjectId}
    (same :
      ∀ db, (hook { state with db := db }).indexed =
        ⟨db, follows state.memberships, state.beforeMembers⟩) :
    (hooked call hook state).map AccountIndex.indexed =
      Indexed.hooked call follows state.indexed := by
  cases call with
  | ok db => exact congrArg Outcome.ok (same db)
  | throw fault db => rfl

theorem create_indexed (value : AccountObject K A) :
    (create toAddress value state).map AccountIndex.indexed =
      Indexed.create accountSchema (accountMembers toAddress) accountSpace
        value state.indexed :=
  hooked_indexed _ fun _ => rfl

theorem insert_indexed (value : AccountObject K A) :
    (insert toAddress id value state).map AccountIndex.indexed =
      Indexed.insert accountSchema (accountMembers toAddress) id value
        state.indexed :=
  hooked_indexed _ fun _ => rfl

theorem remove_indexed :
    (remove toAddress id state).map AccountIndex.indexed =
      Indexed.remove (accountMembers toAddress) id state.indexed := by
  rw [remove, Indexed.remove]
  cases found : state.db.objs.find id with
  | none => simp [AccountIndex.indexed, found, Outcome.map]
  | some value =>
      simp only [AccountIndex.indexed, found]
      exact hooked_indexed _ fun _ => rfl

/-- A write in place, and one that takes the object out before. -/
theorem put_of_drop {V : Type} (objs : Objects V) (id : ObjectId) (value : V) :
    (objs.drop id).put id value = objs.put id value := by
  simp only [Objects.put, Objects.drop, Objects.mk.injEq, and_true]
  apply AList.ext
  have gone := List.notMem_keys_kerase id objs.objects.nodupKeys
  exact congrArg (List.cons ⟨id, value⟩) (List.kerase_of_notMem_keys gone)

theorem drop_of_put {V : Type} (objs : Objects V) (id : ObjectId) (value : V) :
    (objs.put id value).drop id = objs.drop id := by
  simp only [Objects.put, Objects.drop, Objects.mk.injEq, and_true]
  apply AList.ext
  exact List.kerase_cons_eq rfl

theorem modify_indexed (callback : Callback (AccountObject K A)) :
    (modify toAddress id (.plain callback) state).map AccountIndex.indexed =
      Indexed.modify accountSchema (accountMembers toAddress) id callback
        state.indexed := by
  rw [modify, modifyWith, Indexed.modify]
  cases found : state.db.objs.find id with
  | none => simp [AccountIndex.indexed, found, Outcome.map]
  | some value =>
      have foundPut :
          (state.db.objs.put id (callback value).1).find id =
            some (callback value).1 := by
        simp
      by_cases admitted :
          (state.db.objs.drop id).admits accountSchema id
            (callback value).1 = true
      · cases thrown : (callback value).2 with
        | none =>
            simp [AccountIndex.indexed, runLambda, write, opened,
              aboutToModify, Db.modify, found, AccountIndex.put, closed,
              foundPut, drop_of_put, put_of_drop, admitted, thrown,
              Indexed.hooked, Outcome.map, objectModified, accountMembers]
        | some fault =>
            simp [AccountIndex.indexed, runLambda, write, opened,
              aboutToModify, Db.modify, found, AccountIndex.put, abandoned,
              foundPut, drop_of_put, put_of_drop, admitted, thrown,
              Indexed.hooked, Outcome.map, AccountIndex.reposition,
              accountMembers]
      · cases thrown : (callback value).2 with
        | none =>
            simp [AccountIndex.indexed, runLambda, write, opened,
              aboutToModify, Db.modify, found, AccountIndex.put, closed,
              foundPut, drop_of_put, admitted, thrown, Indexed.hooked,
              Outcome.map, AccountIndex.reposition, AccountIndex.drop,
              accountMembers]
        | some fault =>
            simp [AccountIndex.indexed, runLambda, write, opened,
              aboutToModify, Db.modify, found, AccountIndex.put, abandoned,
              foundPut, drop_of_put, admitted, thrown, Indexed.hooked,
              Outcome.map, AccountIndex.reposition, AccountIndex.drop,
              accountMembers]

theorem restoreOldValue_indexed (item : Σ _ : ObjectId, AccountObject K A) :
    (restoreOldValue toAddress item state).map AccountIndex.indexed =
      Indexed.restoreOldValue accountSchema (accountMembers toAddress) item
        state.indexed :=
  modify_indexed _

theorem removeNewId_indexed (item : Σ _ : ObjectId, Unit) :
    (removeNewId toAddress item state).map AccountIndex.indexed =
      Indexed.removeNewId (accountMembers toAddress) item state.indexed :=
  remove_indexed

theorem reinsertRemoved_indexed (item : Σ _ : ObjectId, AccountObject K A) :
    (reinsertRemoved toAddress item state).map AccountIndex.indexed =
      Indexed.reinsertRemoved accountSchema (accountMembers toAddress) item
        state.indexed :=
  insert_indexed _

omit [DecidableEq K] [DecidableEq A] in
theorem restoreNextId_indexed (item : Σ _ : IndexId, ObjectId) :
    (onDb (restoreNextId item) state).map AccountIndex.indexed =
      Indexed.onDb (restoreNextId item) state.indexed :=
  hooked_indexed _ fun _ => rfl

theorem restore_indexed (back : UndoState (AccountObject K A)) :
    (restore toAddress walk back state).map AccountIndex.indexed =
      Indexed.restore accountSchema (accountMembers toAddress) walk back
        state.indexed := by
  refine Outcome.map_bind
    (forEach_map (fun item _ => restoreOldValue_indexed item) _ _)
      fun _ => ?_
  refine Outcome.map_bind
    (forEach_map (fun item _ => removeNewId_indexed item) _ _) fun _ => ?_
  refine Outcome.map_bind
    (forEach_map (fun item _ => restoreNextId_indexed item) _ _) fun _ => ?_
  exact forEach_map (fun item _ => reinsertRemoved_indexed item) _ _

theorem undo_indexed :
    (undo toAddress walk state).map AccountIndex.indexed =
      Indexed.undo accountSchema (accountMembers toAddress) walk
        state.indexed := by
  rw [undo, Indexed.undo]
  have sameDb : state.indexed.db = state.db := rfl
  rw [sameDb]
  split
  · rfl
  · split
    · rfl
    · cases state.db.undoDb.stack with
      | nil => rfl
      | cons back older =>
          exact Outcome.map_bind (restore_indexed back) fun _ => rfl

end GxbCore.Members
