import GxbCore.Db.UndoRecords

/-!
# When the restoring loops succeed, and what they restore

The loops of `undo` and `pop_commit` restore the old contents of modified
objects first, while the objects created in the session are still there and the
objects later in the walk still have their new contents.  A restored value
whose unique key one of those holds is refused by the container.

`RestoresFreely` says that this never happens.  It is exactly the condition
under which the loops return, and then they leave the objects as they were when
the state was opened.
-/

namespace GxbCore.Db

variable {V : Type} {schema : Schema V} {walk : IterationOrder}

/-- No value restored in the walk `items` shares a unique key with an object
that is new, or that is restored later in the walk. -/
def RestoresFreely (schema : Schema V) (state : UndoState V)
    (current : Objects V) (items : List (Σ _ : ObjectId, V)) : Prop :=
  ∀ before id value after, items = before ++ ⟨id, value⟩ :: after →
    ∀ other found, current.find other = some found →
      other ∈ state.newIds ∨ other ∈ after.keys →
      schema.clashes id value other found = false

variable {state : UndoState V}

theorem restoresFreely_cons {current : Objects V} {id : ObjectId} {value : V}
    {later : List (Σ _ : ObjectId, V)} :
    RestoresFreely schema state current (⟨id, value⟩ :: later) ↔
      (∀ other found, current.find other = some found →
        other ∈ state.newIds ∨ other ∈ later.keys →
        schema.clashes id value other found = false) ∧
      RestoresFreely schema state current later := by
  constructor
  · intro free
    refine ⟨free [] id value later rfl, ?_⟩
    intro before otherId otherValue after shape
    exact free (⟨id, value⟩ :: before) otherId otherValue after
      (by rw [shape]; rfl)
  · rintro ⟨firstFree, laterFree⟩ before otherId otherValue after shape
    cases before with
    | nil =>
        simp only [List.nil_append, List.cons.injEq, Sigma.mk.injEq,
          heq_eq_eq] at shape
        obtain ⟨⟨rfl, rfl⟩, rfl⟩ := shape
        exact firstFree
    | cons head tail =>
        simp only [List.cons_append, List.cons.injEq] at shape
        exact laterFree tail otherId otherValue after shape.2

theorem restoresFreely_nil (state : UndoState V) (current : Objects V) :
    RestoresFreely schema state current [] := by
  intro before id value after shape
  simp at shape

/-- The objects in the middle of the first loop: those in `done` have their old
contents back. -/
def PartlyRestored (done : List ObjectId) (old current objs : Objects V) :
    Prop :=
  (∀ id, objs.find id =
    if id ∈ done then old.find id else current.find id) ∧
  objs.nextId = current.nextId

theorem restoreOldValue_eq {db : Database V} {id : ObjectId} {value : V}
    (disabled : db.undoDb.disabled = true)
    (present : (db.objs.find id).isSome) :
    restoreOldValue schema ⟨id, value⟩ db =
      if (db.objs.drop id).admits schema id value then
        .ok ⟨(db.objs.drop id).put id value, db.undoDb⟩
      else
        .throw .couldNotModifyObject ⟨db.objs.drop id, db.undoDb⟩ := by
  obtain ⟨found, foundEq⟩ := Option.isSome_iff_exists.mp present
  simp [restoreOldValue, modify, foundEq, UndoDatabase.onModify,
    UndoDatabase.record, disabled]

/-- One round of the first loop is refused exactly when the restored value
clashes with an object that is new or still to be restored. -/
theorem admits_restored (rest : List (Σ _ : ObjectId, V))
    {old current objs : Objects V} {done : List ObjectId} {id : ObjectId}
    {value : V} (records : Records state old current)
    (formed : WellFormed schema old)
    (covers : ∀ other ∈ state.oldValues,
      other ∈ done ∨ other = id ∨ other ∈ rest.keys)
    (doneIsOld : ∀ other ∈ done, other ∈ state.oldValues)
    (wasOld : old.find id = some value) (idIsOld : id ∈ state.oldValues)
    (apart : id ∉ rest.keys ∧ ∀ other ∈ rest.keys, other ∉ done)
    (middle : PartlyRestored done old current objs) :
    (objs.drop id).admits schema id value = true ↔
      ∀ other found, current.find other = some found →
        other ∈ state.newIds ∨ other ∈ rest.keys →
        schema.clashes id value other found = false := by
  rw [Objects.admits_iff]
  constructor
  · intro admitted other found present isLater
    have notDone : other ∉ done := by
      rcases isLater with isNew | inRest
      · exact fun inDone =>
          (records.newOnly other isNew).1 (doneIsOld other inDone)
      · exact apart.2 other inRest
    have different : other ≠ id := by
      rintro rfl
      rcases isLater with isNew | inRest
      · exact (records.newOnly other isNew).1 idIsOld
      · exact apart.1 inRest
    have presentNow : (objs.drop id).find other = some found := by
      rw [Objects.find_drop, if_neg different, middle.1,
        if_neg notDone]
      exact present
    exact (admitted other found presentNow).2
  · intro free other found presentNow
    rw [Objects.find_drop] at presentNow
    split at presentNow
    · cases presentNow
    · rename_i different
      refine ⟨different, ?_⟩
      rw [middle.1] at presentNow
      split at presentNow
      · exact formed.unique id value other found wasOld presentNow
          different
      · rename_i notDone
        by_cases isNew : other ∈ state.newIds
        · exact free other found presentNow (Or.inl isNew)
        · by_cases inRest : other ∈ rest.keys
          · exact free other found presentNow (Or.inr inRest)
          · -- untouched by the session: it was there before, unchanged
            have notOld : other ∉ state.oldValues := by
              intro isOld
              rcases covers other isOld with inDone | same | later
              · exact notDone inDone
              · exact different same
              · exact inRest later
            have notRemoved : other ∉ state.removed := by
              intro isRemoved
              simp [records.removedAbsent other isRemoved]
                at presentNow
            have wasThere : old.find other = some found :=
              (records.old_of_untouched isNew notOld notRemoved).trans
                presentNow
            exact formed.unique id value other found wasOld wasThere
              different

theorem PartlyRestored.step {old current objs : Objects V}
    {done : List ObjectId} {id : ObjectId} {value : V}
    (middle : PartlyRestored done old current objs)
    (wasOld : old.find id = some value) :
    PartlyRestored (done ++ [id]) old current
      ((objs.drop id).put id value) := by
  refine ⟨?_, middle.2⟩
  intro other
  rw [Objects.find_put]
  by_cases same : other = id
  · subst same
    simp [wasOld]
  · rw [if_neg same, Objects.find_drop, if_neg same, middle.1]
    simp [same]

theorem restoreOldValues_from {old current : Objects V}
    (records : Records state old current) (formed : WellFormed schema old)
    (done rest : List (Σ _ : ObjectId, V))
    (walked : ((done ++ rest).Perm state.oldValues.entries)) (db : Database V)
    (disabled : db.undoDb.disabled = true)
    (middle : PartlyRestored done.keys old current db.objs) :
    (RestoresFreely schema state current rest ∧
      ∃ objs, forEach (restoreOldValue schema) rest db =
          .ok ⟨objs, db.undoDb⟩ ∧
        PartlyRestored (done ++ rest).keys old current objs) ∨
    (¬ RestoresFreely schema state current rest ∧
      (forEach (restoreOldValue schema) rest db).returned = false) := by
  induction rest generalizing done db with
  | nil =>
      refine Or.inl ⟨?_, db.objs, by simp, by simpa using middle⟩
      intro before id value after shape
      simp at shape
  | cons item later ih =>
      obtain ⟨id, value⟩ := item
      have keysNodup : (done.keys ++ id :: later.keys).Nodup := by
        have keysPerm := walked.map Sigma.fst
        have nodup := keysPerm.nodup_iff.mpr state.oldValues.keys_nodup
        simpa [List.keys] using nodup
      have memberIff :
          ∀ other, other ∈ state.oldValues ↔
            other ∈ done.keys ∨ other = id ∨ other ∈ later.keys := by
        intro other
        have keysPerm := walked.map Sigma.fst
        have same := keysPerm.mem_iff (a := other)
        simp only [List.map_append, List.map_cons, List.mem_append,
          List.mem_cons] at same
        exact (AList.mem_keys.trans same.symm)
      have recorded : state.oldValues.lookup id = some value :=
        AList.mem_lookup_iff.mpr (walked.subset (by simp))
      have wasOld := records.old_of_oldValue recorded
      have idIsOld : id ∈ state.oldValues :=
        (memberIff id).mpr (Or.inr (Or.inl rfl))
      have splitNodup := List.nodup_append.mp keysNodup
      have idNotDone : id ∉ done.keys := fun member =>
        splitNodup.2.2 id member id List.mem_cons_self rfl
      have idNotLater : id ∉ later.keys :=
        (List.nodup_cons.mp splitNodup.2.1).1
      have laterNotDone : ∀ other ∈ later.keys, other ∉ done.keys :=
        fun other inLater inDone =>
          splitNodup.2.2 other inDone other
            (List.mem_cons_of_mem id inLater) rfl
      have present : (db.objs.find id).isSome := by
        rw [middle.1, if_neg idNotDone]
        exact records.oldPresent id idIsOld
      have admitted :=
        admits_restored later records formed
          (fun other isOld => (memberIff other).mp isOld)
          (fun other inDone => (memberIff other).mpr (Or.inl inDone))
          wasOld idIsOld ⟨idNotLater, laterNotDone⟩ middle
      rw [forEach_cons, restoreOldValue_eq disabled present]
      by_cases room : (db.objs.drop id).admits schema id value = true
      · rw [if_pos room, Outcome.bind_ok]
        have stepped := middle.step wasOld
        have remaining :=
          ih (done ++ [⟨id, value⟩])
            (by simpa using walked)
            ⟨(db.objs.drop id).put id value, db.undoDb⟩ disabled
            (by simpa [List.keys] using stepped)
        rw [restoresFreely_cons]
        rcases remaining with ⟨free, objs, returns, final⟩ | ⟨stuck, fails⟩
        · exact Or.inl
            ⟨⟨admitted.mp room, free⟩, objs, returns,
              by simpa using final⟩
        · exact Or.inr ⟨fun free => stuck free.2, fails⟩
      · rw [if_neg room, Outcome.bind_throw, restoresFreely_cons]
        exact Or.inr
          ⟨fun free => room (admitted.mpr free.1), rfl⟩

/-- The loop over `new_ids` always returns: every new object is there. -/
theorem removeNewIds_from
    (items : List (Σ _ : ObjectId, Unit)) (nodup : items.keys.Nodup)
    (db : Database V) (disabled : db.undoDb.disabled = true)
    (present : ∀ id ∈ items.keys, (db.objs.find id).isSome) :
    ∃ objs, forEach removeNewId items db = .ok ⟨objs, db.undoDb⟩ ∧
      (∀ id, objs.find id =
        if id ∈ items.keys then none else db.objs.find id) ∧
      objs.nextId = db.objs.nextId := by
  induction items generalizing db with
  | nil =>
      exact ⟨db.objs, rfl, by simp, rfl⟩
  | cons item rest ih =>
      obtain ⟨id, _⟩ := item
      have split := List.nodup_cons.mp nodup
      obtain ⟨found, foundEq⟩ :=
        Option.isSome_iff_exists.mp (present id List.mem_cons_self)
      have stillPresent :
          ∀ other ∈ rest.keys, ((db.objs.drop id).find other).isSome := by
        intro other member
        have different : other ≠ id := fun same => split.1 (same ▸ member)
        simpa [different] using
          present other (List.mem_cons_of_mem id member)
      obtain ⟨objs, returns, finds, counters⟩ :=
        ih split.2 ⟨db.objs.drop id, db.undoDb⟩ disabled
          stillPresent
      refine ⟨objs, ?_, ?_, counters⟩
      · simpa [removeNewId, remove, foundEq, UndoDatabase.onRemove,
          UndoDatabase.record, disabled] using returns
      · intro other
        rw [finds, Objects.find_drop]
        by_cases same : other = id
        · simp [same]
        · simp [same]

/-- The loop over `old_index_next_ids` sets exactly the counters it lists. -/
theorem restoreNextIds_from (items : List (Σ _ : IndexId, ObjectId))
    (nodup : items.keys.Nodup) (db : Database V) :
    ∃ objs, forEach restoreNextId items db = .ok ⟨objs, db.undoDb⟩ ∧
      objs.find = db.objs.find ∧
      ∀ index, objs.nextId index =
        ((items.dlookup index).map ObjectId.number).getD
          (db.objs.nextId index) := by
  induction items generalizing db with
  | nil =>
      exact ⟨db.objs, rfl, rfl, by simp⟩
  | cons item rest ih =>
      obtain ⟨index, id⟩ := item
      have split := List.nodup_cons.mp nodup
      obtain ⟨objs, returns, finds, counters⟩ :=
        ih split.2
          { db with objs := db.objs.setNextId index id }
      refine ⟨objs, returns, finds, ?_⟩
      intro other
      rw [counters]
      by_cases same : other = index
      · subst same
        have absent : rest.dlookup other = none :=
          List.dlookup_eq_none.mpr split.1
        simp [absent]
      · simp [same, List.dlookup_cons_ne rest ⟨index, id⟩ same]

/-- The loop over `removed`: the objects it inserts were there together before,
so none of them is refused. -/
theorem reinsertRemoved_from {old : Objects V} (formed : WellFormed schema old)
    (items : List (Σ _ : ObjectId, V)) (nodup : items.keys.Nodup)
    (db : Database V) (disabled : db.undoDb.disabled = true)
    (wasOld : ∀ item ∈ items, old.find item.1 = some item.2)
    (absent : ∀ id ∈ items.keys, db.objs.find id = none)
    (within : ∀ id value, db.objs.find id = some value →
      old.find id = some value) :
    ∃ objs, forEach (reinsertRemoved schema) items db =
        .ok ⟨objs, db.undoDb⟩ ∧
      (∀ id, objs.find id =
        if id ∈ items.keys then old.find id else db.objs.find id) ∧
      objs.nextId = db.objs.nextId := by
  induction items generalizing db with
  | nil =>
      exact ⟨db.objs, rfl, by simp, rfl⟩
  | cons item rest ih =>
      obtain ⟨id, value⟩ := item
      have split := List.nodup_cons.mp nodup
      have idOld : old.find id = some value :=
        wasOld ⟨id, value⟩ List.mem_cons_self
      have idAbsent : db.objs.find id = none :=
        absent id List.mem_cons_self
      have room : db.objs.admits schema id value = true := by
        rw [Objects.admits_iff]
        intro other found present
        have different : other ≠ id := by
          rintro rfl
          simp [idAbsent] at present
        exact
          ⟨different,
            formed.unique id value other found idOld
              (within other found present) different⟩
      have restAbsent :
          ∀ other ∈ rest.keys, (db.objs.put id value).find other = none := by
        intro other member
        have different : other ≠ id := fun same => split.1 (same ▸ member)
        simpa [different] using
          absent other (List.mem_cons_of_mem id member)
      have stillWithin :
          ∀ other found, (db.objs.put id value).find other = some found →
            old.find other = some found := by
        intro other found present
        rw [Objects.find_put] at present
        split at present
        · rename_i same
          rw [same, idOld, present]
        · exact within other found present
      obtain ⟨objs, returns, finds, counters⟩ :=
        ih split.2 ⟨db.objs.put id value, db.undoDb⟩
          disabled
          (fun later member =>
            wasOld later (List.mem_cons_of_mem _ member))
          restAbsent stillWithin
      refine ⟨objs, ?_, ?_, counters⟩
      · simpa [reinsertRemoved, insert, room, UndoDatabase.onCreate,
          UndoDatabase.record, disabled] using returns
      · intro other
        rw [finds, Objects.find_put]
        by_cases same : other = id
        · subst same
          simp [idOld]
        · simp [same]

theorem walk_keys_mem {κ : Type} {β : Type} [DecidableEq κ]
    (table : AList (fun _ : κ => β)) (key : κ) :
    key ∈ (walk.order table.entries).keys ↔ key ∈ table :=
  ((walk.perm table.entries).map Sigma.fst).mem_iff

theorem walk_keys_nodup {κ : Type} {β : Type} (table : AList (fun _ : κ => β)) :
    (walk.order table.entries).keys.Nodup :=
  ((walk.perm table.entries).map Sigma.fst).nodup_iff.mpr
    table.keys_nodup

/-- The restoring loops return exactly when no restored value clashes, and then
the objects are those at the opening of the state. -/
theorem restore_spec (walk : IterationOrder) (db : Database V) {old : Objects V}
    (records : Records state old db.objs) (formed : WellFormed schema old)
    (disabled : db.undoDb.disabled = true) :
    (RestoresFreely schema state db.objs
        (walk.order state.oldValues.entries) ∧
      ∃ objs, restore schema walk state db = .ok ⟨objs, db.undoDb⟩ ∧
        SameObjects objs old) ∨
    (¬ RestoresFreely schema state db.objs
        (walk.order state.oldValues.entries) ∧
      (restore schema walk state db).returned = false) := by
  have firstLoop :=
    restoreOldValues_from records formed []
      (walk.order state.oldValues.entries)
      (by simpa using walk.perm state.oldValues.entries) db disabled
      ⟨by simp [List.keys], rfl⟩
  rcases firstLoop with ⟨free, objs₁, returns₁, finds₁, counters₁⟩ | ⟨stuck, fails⟩
  · refine Or.inl ⟨free, ?_⟩
    have finds₁ :
        ∀ id, objs₁.find id =
          if id ∈ state.oldValues then old.find id
          else db.objs.find id := by
      intro id
      rw [finds₁]
      simp only [List.nil_append, walk_keys_mem]
    obtain ⟨objs₂, returns₂, finds₂, counters₂⟩ :=
      removeNewIds_from (walk.order state.newIds.entries)
        (walk_keys_nodup state.newIds) ⟨objs₁, db.undoDb⟩ disabled
        (by
          intro id member
          rw [walk_keys_mem] at member
          rw [finds₁, if_neg (records.newOnly id member).1]
          exact records.newPresent id member)
    obtain ⟨objs₃, returns₃, finds₃, counters₃⟩ :=
      restoreNextIds_from (walk.order state.oldIndexNextIds.entries)
        (walk_keys_nodup state.oldIndexNextIds) ⟨objs₂, db.undoDb⟩
    have findsMiddle :
        ∀ id, objs₃.find id =
          if id ∈ state.removed then none else old.find id := by
      intro id
      rw [finds₃, finds₂, finds₁]
      simp only [walk_keys_mem]
      by_cases isNew : id ∈ state.newIds
      · rw [if_pos isNew, if_neg (records.newOnly id isNew).2,
          records.old_of_new isNew]
      · rw [if_neg isNew]
        by_cases isOld : id ∈ state.oldValues
        · have notRemoved : id ∉ state.removed := by
            intro isRemoved
            have present := records.oldPresent id isOld
            simp [records.removedAbsent id isRemoved] at present
          rw [if_pos isOld, if_neg notRemoved]
        · rw [if_neg isOld]
          split
          · rename_i isRemoved
            exact records.removedAbsent id isRemoved
          · rename_i notRemoved
            exact (records.old_of_untouched isNew isOld notRemoved).symm
    obtain ⟨objs₄, returns₄, finds₄, counters₄⟩ :=
      reinsertRemoved_from formed (walk.order state.removed.entries)
        (walk_keys_nodup state.removed) ⟨objs₃, db.undoDb⟩ disabled
        (by
          intro item member
          exact records.old_of_removed
            (AList.mem_lookup_iff.mpr
              ((walk.perm state.removed.entries).subset member)))
        (by
          intro id member
          rw [walk_keys_mem] at member
          rw [findsMiddle, if_pos member])
        (by
          intro id value present
          rw [findsMiddle] at present
          split at present
          · cases present
          · exact present)
    refine ⟨objs₄, ?_, ?_, ?_⟩
    · simp only [restore, returns₁, returns₂, returns₃, returns₄,
        Outcome.bind_ok]
    · funext id
      rw [finds₄, findsMiddle]
      simp only [walk_keys_mem]
      split
      · rfl
      · rfl
    · funext index
      rw [counters₄, counters₃]
      have lookupWalk :
          (walk.order state.oldIndexNextIds.entries).dlookup index =
            state.oldIndexNextIds.lookup index :=
        List.perm_dlookup index
          (walk_keys_nodup state.oldIndexNextIds)
          (walk.perm state.oldIndexNextIds.entries)
      rw [lookupWalk]
      cases recorded : state.oldIndexNextIds.lookup index with
      | some id =>
          simp [records.oldNextId index id recorded]
      | none =>
          rw [records.sameNextId index
            (AList.lookup_eq_none.mp recorded)]
          simp [counters₂, counters₁]
  · refine Or.inr ⟨stuck, ?_⟩
    cases outcome :
        forEach (restoreOldValue schema)
          (walk.order state.oldValues.entries) db with
    | ok left =>
        simp [outcome] at fails
    | throw fault left =>
        simp [restore, outcome]

end GxbCore.Db
