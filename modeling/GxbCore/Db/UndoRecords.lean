import GxbCore.Db.UndoDatabase
import GxbCore.Lib.Patch

/-!
# What an undo state records

`Records state old current` says that `state` is the difference between the
objects `old`, at the moment the state was opened, and the objects `current`:
read as a patch it turns `current` back into `old`.  The recording functions
keep this relation, and `merge` composes it.

That ids are never given out twice is what rules out the combinations which the
comment in `undo_database::merge` marks as impossible: `below` of `WellFormed`
says it.
-/

namespace GxbCore.Db

variable {V : Type} {schema : Schema V}

namespace Objects

@[simp]
theorem find_put (objs : Objects V) (id other : ObjectId) (value : V) :
    (objs.put id value).find other =
      if other = id then some value else objs.find other := by
  unfold put find
  by_cases same : other = id
  · subst same
    simp
  · simp [same, AList.lookup_insert_ne same]

@[simp]
theorem find_drop (objs : Objects V) (id other : ObjectId) :
    (objs.drop id).find other =
      if other = id then none else objs.find other := by
  unfold drop find
  by_cases same : other = id
  · subst same
    simp
  · simp [same, AList.lookup_erase_ne same]

@[simp]
theorem find_setNextId
    (objs : Objects V) (index : IndexId) (id other : ObjectId) :
    (objs.setNextId index id).find other = objs.find other :=
  rfl

@[simp]
theorem nextId_put (objs : Objects V) (id : ObjectId) (value : V) :
    (objs.put id value).nextId = objs.nextId :=
  rfl

@[simp]
theorem nextId_drop (objs : Objects V) (id : ObjectId) :
    (objs.drop id).nextId = objs.nextId :=
  rfl

@[simp]
theorem nextId_setNextId
    (objs : Objects V) (index other : IndexId) (id : ObjectId) :
    (objs.setNextId index id).nextId other =
      if other = index then id.number else objs.nextId other :=
  rfl

/-- An index admits an object exactly when no object it holds has the same id
or a common unique key. -/
theorem admits_iff {objs : Objects V} {id : ObjectId} {value : V} :
    objs.admits schema id value = true ↔
      ∀ other found, objs.find other = some found →
        other ≠ id ∧ schema.clashes id value other found = false := by
  unfold admits
  rw [List.all_eq_true]
  constructor
  · intro all other found present
    have member : (⟨other, found⟩ : Σ _ : ObjectId, V) ∈ objs.objects.entries :=
      AList.mem_lookup_iff.mp present
    simpa using all _ member
  · intro all entry member
    have present : objs.find entry.1 = some entry.2 :=
      AList.mem_lookup_iff.mpr member
    simpa using all entry.1 entry.2 present

end Objects

theorem Schema.sharesKey_comm (schema : Schema V)
    (index : IndexId) (left right : V) :
    schema.sharesKey index left right =
      schema.sharesKey index right left := by
  unfold Schema.sharesKey
  congr 1
  funext key
  simp only [decide_eq_decide]
  exact eq_comm

theorem Schema.clashes_comm (id other : ObjectId) (value found : V) :
    schema.clashes id value other found =
      schema.clashes other found id value := by
  unfold Schema.clashes
  by_cases same : id.index = other.index
  · simp [same, schema.sharesKey_comm _ value found]
  · simp [same, Ne.symm same]

structure SameObjects (left right : Objects V) : Prop where
  find : left.find = right.find
  nextId : left.nextId = right.nextId

theorem SameObjects.refl (objs : Objects V) : SameObjects objs objs :=
  ⟨rfl, rfl⟩

theorem SameObjects.symm {left right : Objects V}
    (same : SameObjects left right) : SameObjects right left :=
  ⟨same.find.symm, same.nextId.symm⟩

theorem SameObjects.trans {left middle right : Objects V}
    (first : SameObjects left middle) (second : SameObjects middle right) :
    SameObjects left right :=
  ⟨first.find.trans second.find, first.nextId.trans second.nextId⟩

/-- No two objects share a unique key, and every id was given out by the
counter of its index. -/
structure WellFormed (schema : Schema V) (objs : Objects V) : Prop where
  unique :
    ∀ id value other found, objs.find id = some value →
      objs.find other = some found → other ≠ id →
      schema.clashes id value other found = false
  below :
    ∀ id value, objs.find id = some value →
      id.number < objs.nextId id.index

variable {objs : Objects V}

theorem WellFormed.of_entries
    (unique :
      ∀ entry ∈ objs.objects.entries, ∀ other ∈ objs.objects.entries,
        other.1 ≠ entry.1 →
          schema.clashes entry.1 entry.2 other.1 other.2 = false)
    (below :
      ∀ entry ∈ objs.objects.entries,
        entry.1.number < objs.nextId entry.1.index) :
    WellFormed schema objs where
  unique id value other found isThere isThereToo different :=
    unique ⟨id, value⟩ (AList.mem_lookup_iff.mp isThere) ⟨other, found⟩
      (AList.mem_lookup_iff.mp isThereToo) different
  below id value isThere :=
    below ⟨id, value⟩ (AList.mem_lookup_iff.mp isThere)

theorem WellFormed.congr {left right : Objects V}
    (same : SameObjects left right) (holds : WellFormed schema left) :
    WellFormed schema right :=
  { unique := by
      rw [← same.find]
      exact holds.unique
    below := by
      rw [← same.find, ← same.nextId]
      exact holds.below }

/-- The id that `create` uses is free. -/
theorem WellFormed.find_getNextId
    (holds : WellFormed schema objs) (index : IndexId) :
    objs.find (objs.getNextId index) = none := by
  cases found : objs.find (objs.getNextId index) with
  | none => rfl
  | some value =>
      have bound := holds.below _ value found
      simp [Objects.getNextId] at bound

/-- Adding an admitted object under an id below the counter. -/
theorem WellFormed.put {id : ObjectId} {value : V}
    (holds : WellFormed schema objs)
    (room :
      ∀ other found, objs.find other = some found → other ≠ id →
        schema.clashes id value other found = false)
    (bound : id.number < objs.nextId id.index) :
    WellFormed schema (objs.put id value) :=
  { unique := by
      intro first left second right firstFound secondFound different
      simp only [Objects.find_put] at firstFound secondFound
      by_cases firstSame : first = id
      · subst firstSame
        simp only [if_true, Option.some.injEq] at firstFound
        rw [if_neg different] at secondFound
        exact firstFound ▸ room second right secondFound different
      · rw [if_neg firstSame] at firstFound
        by_cases secondSame : second = id
        · subst secondSame
          simp only [if_true, Option.some.injEq] at secondFound
          rw [Schema.clashes_comm]
          exact secondFound ▸
            room first left firstFound firstSame
        · rw [if_neg secondSame] at secondFound
          exact holds.unique _ _ _ _ firstFound secondFound different
    below := by
      intro other found present
      simp only [Objects.find_put] at present
      by_cases same : other = id
      · subst same
        exact bound
      · rw [if_neg same] at present
        exact holds.below other found present }

theorem WellFormed.drop (holds : WellFormed schema objs) (id : ObjectId) :
    WellFormed schema (objs.drop id) :=
  { unique := by
      intro first left second right firstFound secondFound different
      simp only [Objects.find_drop] at firstFound secondFound
      split at firstFound
      · cases firstFound
      · split at secondFound
        · cases secondFound
        · exact holds.unique _ _ _ _ firstFound secondFound different
    below := by
      intro other found present
      simp only [Objects.find_drop] at present
      split at present
      · cases present
      · exact holds.below other found present }

theorem WellFormed.raiseNextId {index : IndexId} {id : ObjectId}
    (holds : WellFormed schema objs) (up : objs.nextId index ≤ id.number) :
    WellFormed schema (objs.setNextId index id) :=
  { unique := holds.unique
    below := by
      intro other found present
      have bound := holds.below other found present
      simp only [Objects.nextId_setNextId]
      split
      · rename_i same
        rw [same] at bound
        omega
      · exact bound }

theorem WellFormed.create {objs : Objects V} {index : IndexId} {value : V}
    (holds : WellFormed schema objs)
    (admitted : objs.admits schema (objs.getNextId index) value = true) :
    WellFormed schema
      ((objs.put (objs.getNextId index) value).setNextId index
        ⟨index, objs.nextId index + 1⟩) := by
  have raised :
      WellFormed schema
        (objs.setNextId index ⟨index, objs.nextId index + 1⟩) :=
    holds.raiseNextId (Nat.le_succ _)
  have room :
      ∀ other found, objs.find other = some found →
        other ≠ objs.getNextId index →
        schema.clashes (objs.getNextId index) value other found = false :=
    fun other found present _ =>
      (Objects.admits_iff.mp admitted other found present).2
  exact raised.put room (by simp [Objects.getNextId])

/-- Changing the contents of an object to contents its index admits. -/
theorem WellFormed.modify {objs : Objects V} {id : ObjectId} {value after : V}
    (holds : WellFormed schema objs) (present : objs.find id = some value)
    (admitted : (objs.drop id).admits schema id after = true) :
    WellFormed schema ((objs.drop id).put id after) := by
  refine (holds.drop id).put ?_ ?_
  · intro other found isThere _
    exact (Objects.admits_iff.mp admitted other found isThere).2
  · exact holds.below id value present

/-- `modify` returns exactly when the object is there, the callback did not
throw and the index admits what it left. -/
theorem modify_eq_ok {id : ObjectId} {callback : Callback V}
    {db after : Database V} :
    modify schema id callback db = .ok after ↔
      ∃ value, db.objs.find id = some value ∧
        ((db.objs.drop id).admits schema id (callback value).1 = true ∧
          (callback value).2 = none) ∧
        after =
          ⟨(db.objs.drop id).put id (callback value).1,
            db.undoDb.onModify id value⟩ := by
  unfold Db.modify
  cases present : db.objs.find id with
  | none =>
      simp
  | some value =>
      by_cases admitted :
          (db.objs.drop id).admits schema id (callback value).1 = true
      · cases thrown : (callback value).2 with
        | none =>
            simp only [Option.some.injEq, exists_eq_left', admitted,
              thrown, if_true, Outcome.ok.injEq, and_self, true_and]
            exact eq_comm
        | some fault => simp [admitted, thrown]
      · cases thrown : (callback value).2 with
        | none => simp [admitted, thrown]
        | some fault => simp [admitted, thrown]

def UndoState.patch (state : UndoState V) : Patch ObjectId V :=
  fun id =>
    if id ∈ state.newIds then
      some none
    else
      match state.oldValues.lookup id with
      | some old => some (some old)
      | none => (state.removed.lookup id).map some

/-- `state` holds the difference between `old` and `current`. -/
structure Records (state : UndoState V) (old current : Objects V) :
    Prop where
  leads : state.patch.Leads old.find current.find
  newPresent : ∀ id ∈ state.newIds, (current.find id).isSome
  newOnly :
    ∀ id ∈ state.newIds, id ∉ state.oldValues ∧ id ∉ state.removed
  newFresh : ∀ id ∈ state.newIds, old.nextId id.index ≤ id.number
  oldPresent : ∀ id ∈ state.oldValues, (current.find id).isSome
  removedAbsent : ∀ id ∈ state.removed, current.find id = none
  oldNextId :
    ∀ index id, state.oldIndexNextIds.lookup index = some id →
      id = ⟨index, old.nextId index⟩
  sameNextId :
    ∀ index, index ∉ state.oldIndexNextIds →
      old.nextId index = current.nextId index
  monotone : ∀ index, old.nextId index ≤ current.nextId index

namespace Records

variable {state : UndoState V} {old current : Objects V}

theorem at_id (records : Records state old current) (id : ObjectId) :
    (state.patch id).getD (current.find id) = old.find id :=
  congrFun records.leads id

variable {id : ObjectId}

theorem old_of_new (records : Records state old current)
    (isNew : id ∈ state.newIds) : old.find id = none := by
  rw [← records.at_id id]
  simp [UndoState.patch, isNew]

theorem old_of_oldValue (records : Records state old current) {value : V}
    (recorded : state.oldValues.lookup id = some value) :
    old.find id = some value := by
  have notNew : id ∉ state.newIds := by
    intro isNew
    have member : id ∈ state.oldValues :=
      AList.lookup_isSome.mp (by simp [recorded])
    exact (records.newOnly id isNew).1 member
  rw [← records.at_id id]
  simp [UndoState.patch, notNew, recorded]

theorem old_of_removed (records : Records state old current) {value : V}
    (recorded : state.removed.lookup id = some value) :
    old.find id = some value := by
  have member : id ∈ state.removed :=
    AList.lookup_isSome.mp (by simp [recorded])
  have notNew : id ∉ state.newIds := fun isNew =>
    (records.newOnly id isNew).2 member
  have notOld : state.oldValues.lookup id = none := by
    rw [AList.lookup_eq_none]
    intro isOld
    have present := records.oldPresent id isOld
    simp [records.removedAbsent id member] at present
  rw [← records.at_id id]
  simp [UndoState.patch, notNew, notOld, recorded]

theorem old_of_untouched (records : Records state old current)
    (notNew : id ∉ state.newIds)
    (notOld : id ∉ state.oldValues) (notRemoved : id ∉ state.removed) :
    old.find id = current.find id := by
  rw [← records.at_id id]
  simp [UndoState.patch, notNew, AList.lookup_eq_none.mpr notOld,
    AList.lookup_eq_none.mpr notRemoved]

/-- An id that is not below the counters of `old` was not in `old`. -/
theorem old_of_fresh (records : Records state old current)
    (formed : WellFormed schema old) (index : IndexId) :
    old.find (current.getNextId index) = none := by
  cases found : old.find (current.getNextId index) with
  | none => rfl
  | some value =>
      have bound := formed.below _ value found
      have grown := records.monotone index
      simp only [Objects.getNextId] at bound
      omega

theorem opened (objs : Objects V) : Records UndoState.empty objs objs :=
  { leads := rfl
    newPresent := by simp [UndoState.empty]
    newOnly := by simp [UndoState.empty]
    newFresh := by simp [UndoState.empty]
    oldPresent := by simp [UndoState.empty]
    removedAbsent := by simp [UndoState.empty]
    oldNextId := by simp [UndoState.empty]
    sameNextId := fun _ _ => rfl
    monotone := fun _ => Nat.le_refl _ }

theorem congr {old' current' : Objects V} (records : Records state old current)
    (sameOld : SameObjects old old')
    (sameCurrent : SameObjects current current') :
    Records state old' current' :=
  { leads := by
      rw [← sameOld.find, ← sameCurrent.find]
      exact records.leads
    newPresent := by
      rw [← sameCurrent.find]
      exact records.newPresent
    newOnly := records.newOnly
    newFresh := by
      rw [← sameOld.nextId]
      exact records.newFresh
    oldPresent := by
      rw [← sameCurrent.find]
      exact records.oldPresent
    removedAbsent := by
      rw [← sameCurrent.find]
      exact records.removedAbsent
    oldNextId := by
      rw [← sameOld.nextId]
      exact records.oldNextId
    sameNextId := by
      rw [← sameOld.nextId, ← sameCurrent.nextId]
      exact records.sameNextId
    monotone := by
      rw [← sameOld.nextId, ← sameCurrent.nextId]
      exact records.monotone }

/-- `on_create`, for an object made under the next id of its index. -/
theorem create (records : Records state old current)
    (formed : WellFormed schema old) (formedNow : WellFormed schema current)
    (index : IndexId) (value : V) :
    Records (state.recordCreate (current.getNextId index)) old
      ((current.put (current.getNextId index) value).setNextId index
        ⟨index, current.nextId index + 1⟩) := by
  have freshOld := records.old_of_fresh formed index
  have freshNow := formedNow.find_getNextId index
  generalize idCase : current.getNextId index = id at *
  have indexOfId : id.index = index := by rw [← idCase]; rfl
  have numberOfId : id = ⟨index, current.nextId index⟩ := idCase.symm
  have notOld : id ∉ state.oldValues := by
    intro member
    have present := records.oldPresent id member
    simp [freshNow] at present
  have notRemoved : id ∉ state.removed := by
    intro member
    obtain ⟨value, recorded⟩ :=
      Option.isSome_iff_exists.mp (AList.lookup_isSome.mpr member)
    have wasThere := records.old_of_removed recorded
    simp [freshOld] at wasThere
  refine
    { leads := ?_
      newPresent := ?_
      newOnly := ?_
      newFresh := ?_
      oldPresent := ?_
      removedAbsent := ?_
      oldNextId := ?_
      sameNextId := ?_
      monotone := ?_ }
  · funext other
    by_cases same : other = id
    · subst same
      simp [Patch.revert, UndoState.patch, UndoState.recordCreate,
        freshOld]
    · have before := records.at_id other
      simpa [Patch.revert, UndoState.patch, UndoState.recordCreate,
        same] using before
  · intro other member
    simp only [UndoState.recordCreate, AList.mem_insert] at member
    by_cases same : other = id
    · simp [same]
    · have isNew := member.resolve_left same
      simpa [same] using records.newPresent other isNew
  · intro other member
    simp only [UndoState.recordCreate, AList.mem_insert] at member ⊢
    rcases member with same | isNew
    · exact same ▸ ⟨notOld, notRemoved⟩
    · exact records.newOnly other isNew
  · intro other member
    rcases (AList.mem_insert _).mp member with same | isNew
    · rw [same, numberOfId]
      exact records.monotone index
    · exact records.newFresh other isNew
  · intro other member
    have present := records.oldPresent other member
    have different : other ≠ id := fun same => notOld (same ▸ member)
    simpa [different] using present
  · intro other member
    have different : other ≠ id := fun same => notRemoved (same ▸ member)
    simpa [different] using records.removedAbsent other member
  · intro otherIndex recordedId recorded
    simp only [UndoState.recordCreate, indexOfId] at recorded
    split at recorded
    · exact records.oldNextId otherIndex recordedId recorded
    · rename_i notYet
      by_cases same : otherIndex = index
      · subst same
        simp only [AList.lookup_insert, Option.some.injEq] at recorded
        rw [← recorded, numberOfId,
          records.sameNextId otherIndex notYet]
      · rw [AList.lookup_insert_ne same] at recorded
        exact records.oldNextId otherIndex recordedId recorded
  · intro otherIndex notRecorded
    simp only [UndoState.recordCreate, indexOfId] at notRecorded
    split at notRecorded
    · rename_i already
      have different : otherIndex ≠ index := fun same =>
        notRecorded (same ▸ already)
      simpa [different] using
        records.sameNextId otherIndex notRecorded
    · simp only [AList.mem_insert, not_or] at notRecorded
      simpa [notRecorded.1] using
        records.sameNextId otherIndex notRecorded.2
  · intro otherIndex
    have grown := records.monotone otherIndex
    simp only [Objects.nextId_setNextId, Objects.nextId_put]
    split
    · rename_i same
      rw [same] at grown ⊢
      omega
    · exact grown

/-- `on_modify`, called just before `id` changes from `value` to `after`. -/
theorem modify (records : Records state old current) {id : ObjectId}
    {value after : V} (present : current.find id = some value) :
    Records (state.recordModify id value) old
      ((current.drop id).put id after) := by
  have findAfter :
      ∀ other, ((current.drop id).put id after).find other =
        if other = id then some after else current.find other := by
    intro other
    by_cases same : other = id
    · simp [same]
    · simp [same]
  have notRemoved : id ∉ state.removed := by
    intro member
    simp [records.removedAbsent id member] at present
  have presentAfter :
      ∀ other, (current.find other).isSome →
        (((current.drop id).put id after).find other).isSome := by
    intro other found
    rw [findAfter]
    split
    · rfl
    · exact found
  unfold UndoState.recordModify
  by_cases isNew : id ∈ state.newIds
  · rw [if_pos isNew]
    refine
      { records with
        leads := ?_
        newPresent := fun other member =>
          presentAfter other (records.newPresent other member)
        oldPresent := fun other member =>
          presentAfter other (records.oldPresent other member)
        removedAbsent := ?_ }
    · funext other
      rw [Patch.revert, findAfter]
      by_cases same : other = id
      · subst same
        simp [UndoState.patch, isNew, records.old_of_new isNew]
      · simpa [same] using records.at_id other
    · intro other member
      have different : other ≠ id := fun same =>
        notRemoved (same ▸ member)
      rw [findAfter, if_neg different]
      exact records.removedAbsent other member
  · rw [if_neg isNew]
    have oldPresent :
        ∀ other, other = id ∨ other ∈ state.oldValues →
          (((current.drop id).put id after).find other).isSome := by
      rintro other (same | member)
      · simp [same]
      · exact presentAfter other (records.oldPresent other member)
    have removedAbsent :
        ∀ other ∈ state.removed,
          ((current.drop id).put id after).find other = none := by
      intro other member
      have different : other ≠ id := fun same =>
        notRemoved (same ▸ member)
      rw [findAfter, if_neg different]
      exact records.removedAbsent other member
    by_cases isOld : id ∈ state.oldValues
    · rw [if_pos isOld]
      refine
        { records with
          leads := ?_
          newPresent := fun other member =>
            presentAfter other (records.newPresent other member)
          oldPresent := fun other member =>
            oldPresent other (Or.inr member)
          removedAbsent := removedAbsent }
      funext other
      rw [Patch.revert, findAfter]
      by_cases same : other = id
      · subst same
        obtain ⟨recordedValue, recorded⟩ :=
          Option.isSome_iff_exists.mp (AList.lookup_isSome.mpr isOld)
        simp [UndoState.patch, isNew, recorded,
          records.old_of_oldValue recorded]
      · simpa [same] using records.at_id other
    · rw [if_neg isOld]
      have wasSame : old.find id = some value :=
        (records.old_of_untouched isNew isOld notRemoved).trans present
      refine
        { records with
          leads := ?_
          newPresent := fun other member =>
            presentAfter other (records.newPresent other member)
          newOnly := ?_
          oldPresent := fun other member =>
            oldPresent other ((AList.mem_insert _).mp member)
          removedAbsent := removedAbsent }
      · funext other
        rw [Patch.revert, findAfter]
        by_cases same : other = id
        · subst same
          simp [UndoState.patch, isNew, wasSame]
        · have before := records.at_id other
          simpa [UndoState.patch, same,
            AList.lookup_insert_ne same] using before
      · intro other member
        have different : other ≠ id := fun same =>
          isNew (same ▸ member)
        simpa [different] using records.newOnly other member

/-- `on_remove`, called just before `id`, which holds `value`, goes. -/
theorem remove (records : Records state old current) {id : ObjectId} {value : V}
    (present : current.find id = some value) :
    Records (state.recordRemove id value) old (current.drop id) := by
  have notRemoved : id ∉ state.removed := by
    intro member
    simp [records.removedAbsent id member] at present
  have stillPresent :
      ∀ other, other ≠ id → (current.find other).isSome →
        ((current.drop id).find other).isSome := by
    intro other different found
    simpa [different] using found
  have stillAbsent :
      ∀ other, current.find other = none →
        (current.drop id).find other = none := by
    intro other absent
    simp [absent]
  unfold UndoState.recordRemove
  by_cases isNew : id ∈ state.newIds
  · -- a new object leaves no trace
    rw [if_pos isNew]
    refine
      { records with
        leads := ?_
        newPresent := ?_
        newOnly := ?_
        newFresh := fun other member =>
          records.newFresh other (AList.mem_erase.mp member).2
        oldPresent := ?_
        removedAbsent := fun other member =>
          stillAbsent other (records.removedAbsent other member) }
    · funext other
      by_cases same : other = id
      · subst same
        have nowhere := records.newOnly other isNew
        simp [Patch.revert, UndoState.patch,
          AList.lookup_eq_none.mpr nowhere.1,
          AList.lookup_eq_none.mpr nowhere.2,
          records.old_of_new isNew]
      · have before := records.at_id other
        simpa [Patch.revert, UndoState.patch, same] using before
    · intro other member
      have parts := AList.mem_erase.mp member
      exact stillPresent other parts.1
        (records.newPresent other parts.2)
    · intro other member
      exact records.newOnly other (AList.mem_erase.mp member).2
    · intro other member
      have different : other ≠ id := fun same =>
        (records.newOnly id isNew).1 (same ▸ member)
      exact stillPresent other different
        (records.oldPresent other member)
  · rw [if_neg isNew]
    have newPresent :
        ∀ other ∈ state.newIds,
          ((current.drop id).find other).isSome := by
      intro other member
      exact stillPresent other (fun same => isNew (same ▸ member))
        (records.newPresent other member)
    cases recorded : state.oldValues.lookup id with
    | some oldValue =>
        have wasOld := records.old_of_oldValue recorded
        refine
          { records with
            leads := ?_
            newPresent := newPresent
            newOnly := ?_
            oldPresent := ?_
            removedAbsent := ?_ }
        · funext other
          by_cases same : other = id
          · subst same
            simp [Patch.revert, UndoState.patch, isNew, wasOld]
          · have before := records.at_id other
            simpa [Patch.revert, UndoState.patch, same,
              AList.lookup_insert_ne same,
              AList.lookup_erase_ne same] using before
        · intro other member
          have different : other ≠ id := fun same =>
            isNew (same ▸ member)
          simpa [different] using records.newOnly other member
        · intro other member
          have parts := AList.mem_erase.mp member
          exact stillPresent other parts.1
            (records.oldPresent other parts.2)
        · intro other member
          rcases (AList.mem_insert _).mp member with same | isRemoved
          · simp [same]
          · exact stillAbsent other
              (records.removedAbsent other isRemoved)
    | none =>
        have notOld : id ∉ state.oldValues :=
          AList.lookup_eq_none.mp recorded
        have wasSame : old.find id = some value :=
          (records.old_of_untouched isNew notOld notRemoved).trans
            present
        simp only [if_neg notRemoved]
        refine
          { records with
            leads := ?_
            newPresent := newPresent
            newOnly := ?_
            oldPresent := ?_
            removedAbsent := ?_ }
        · funext other
          by_cases same : other = id
          · subst same
            simp [Patch.revert, UndoState.patch, isNew, recorded,
              wasSame]
          · have before := records.at_id other
            simpa [Patch.revert, UndoState.patch, same,
              AList.lookup_insert_ne same] using before
        · intro other member
          have different : other ≠ id := fun same =>
            isNew (same ▸ member)
          simpa [different] using records.newOnly other member
        · intro other member
          exact stillPresent other
            (fun same => notOld (same ▸ member))
            (records.oldPresent other member)
        · intro other member
          rcases (AList.mem_insert _).mp member with same | isRemoved
          · simp [same]
          · exact stillAbsent other
              (records.removedAbsent other isRemoved)

end Records

end GxbCore.Db
