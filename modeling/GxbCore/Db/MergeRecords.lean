import GxbCore.Db.Restore

/-!
# `merge` composes records

The parent state records the way from `old` to `middle`, the child state the
way from `middle` to `current`; the state that `merge` leaves records the way
from `old` to `current`.

Each of the four loops of `merge` is first described on its own, key by key.
The impossible entries of the table in the source are the cases in which the
two relations contradict each other.
-/

namespace GxbCore.Db

variable {V : Type} {schema : Schema V} {walk : IterationOrder}

variable {κ β : Type}

theorem dlookup_cons_const [DecidableEq κ]
    (key other : κ) (value : β) (rest : List (Σ _ : κ, β)) :
    List.dlookup other (⟨key, value⟩ :: rest) =
      if other = key then some value else rest.dlookup other := by
  by_cases same : other = key
  · subst same
    simp
  · rw [if_neg same, List.dlookup_cons_ne rest ⟨key, value⟩ same]

theorem lookup_insert_const [DecidableEq κ]
    (table : AList (fun _ : κ => β)) (key other : κ) (value : β) :
    (table.insert key value).lookup other =
      if other = key then some value else table.lookup other := by
  by_cases same : other = key
  · subst same
    simp
  · rw [if_neg same, AList.lookup_insert_ne same]

theorem lookup_erase_const [DecidableEq κ]
    (table : AList (fun _ : κ => β)) (key other : κ) :
    (table.erase key).lookup other =
      if other = key then none else table.lookup other := by
  by_cases same : other = key
  · subst same
    simp
  · rw [if_neg same, AList.lookup_erase_ne same]

theorem mergeOldValue_step (parent : UndoState V) (id : ObjectId) (value : V) :
    (mergeOldValue parent ⟨id, value⟩).newIds = parent.newIds ∧
    (mergeOldValue parent ⟨id, value⟩).removed = parent.removed ∧
    (mergeOldValue parent ⟨id, value⟩).oldIndexNextIds =
      parent.oldIndexNextIds ∧
    ∀ other, (mergeOldValue parent ⟨id, value⟩).oldValues.lookup other =
      (parent.oldValues.lookup other).or
        (if other = id ∧ other ∉ parent.newIds then some value
          else none) := by
  unfold mergeOldValue
  by_cases isNew : id ∈ parent.newIds
  · simp only [if_pos isNew, true_and]
    intro other
    have excluded : ¬ (other = id ∧ other ∉ parent.newIds) :=
      fun both => both.2 (both.1 ▸ isNew)
    rw [if_neg excluded, Option.or_none]
  · simp only [if_neg isNew]
    by_cases isOld : id ∈ parent.oldValues
    · simp only [if_pos isOld, true_and]
      intro other
      obtain ⟨old, recorded⟩ :=
        Option.isSome_iff_exists.mp (AList.lookup_isSome.mpr isOld)
      by_cases same : other = id
      · subst same
        simp [recorded]
      · simp [same]
    · simp only [if_neg isOld, true_and]
      intro other
      rw [lookup_insert_const]
      by_cases same : other = id
      · subst same
        simp [isNew, AList.lookup_eq_none.mpr isOld]
      · simp [same]

theorem foldl_mergeOldValue
    (items : List (Σ _ : ObjectId, V)) (parent : UndoState V) :
    (items.foldl mergeOldValue parent).newIds = parent.newIds ∧
    (items.foldl mergeOldValue parent).removed = parent.removed ∧
    (items.foldl mergeOldValue parent).oldIndexNextIds =
      parent.oldIndexNextIds ∧
    ∀ other, (items.foldl mergeOldValue parent).oldValues.lookup other =
      (parent.oldValues.lookup other).or
        (if other ∈ parent.newIds then none
          else items.dlookup other) := by
  induction items generalizing parent with
  | nil =>
      simp
  | cons item rest ih =>
      obtain ⟨id, value⟩ := item
      obtain ⟨newIds, removed, counters, lookups⟩ :=
        ih (mergeOldValue parent ⟨id, value⟩)
      obtain ⟨newIds₁, removed₁, counters₁, lookups₁⟩ :=
        mergeOldValue_step parent id value
      refine
        ⟨newIds.trans newIds₁, removed.trans removed₁,
          counters.trans counters₁, ?_⟩
      intro other
      rw [List.foldl_cons, lookups, lookups₁, newIds₁,
        dlookup_cons_const, Option.or_assoc]
      by_cases isNew : other ∈ parent.newIds
      · simp [isNew]
      · by_cases same : other = id
        · subst same
          simp [isNew]
        · simp [isNew, same]

theorem foldl_mergeNewId
    (items : List (Σ _ : ObjectId, Unit)) (parent : UndoState V) :
    (items.foldl mergeNewId parent).oldValues = parent.oldValues ∧
    (items.foldl mergeNewId parent).removed = parent.removed ∧
    (items.foldl mergeNewId parent).oldIndexNextIds =
      parent.oldIndexNextIds ∧
    ∀ id, id ∈ (items.foldl mergeNewId parent).newIds ↔
      id ∈ parent.newIds ∨ id ∈ items.keys := by
  induction items generalizing parent with
  | nil =>
      simp [List.keys]
  | cons item rest ih =>
      obtain ⟨oldValues, removed, counters, members⟩ :=
        ih (mergeNewId parent item)
      refine ⟨oldValues, removed, counters, ?_⟩
      intro id
      rw [List.foldl_cons, members, List.keys_cons, List.mem_cons]
      simp only [mergeNewId, AList.mem_insert]
      tauto

theorem mergeNextId_step
    (parent : UndoState V) (index : IndexId) (id : ObjectId) :
    (mergeNextId parent ⟨index, id⟩).oldValues = parent.oldValues ∧
    (mergeNextId parent ⟨index, id⟩).removed = parent.removed ∧
    (mergeNextId parent ⟨index, id⟩).newIds = parent.newIds ∧
    ∀ other,
      (mergeNextId parent ⟨index, id⟩).oldIndexNextIds.lookup other =
        (parent.oldIndexNextIds.lookup other).or
          (if other = index then some id else none) := by
  unfold mergeNextId
  by_cases isThere : index ∈ parent.oldIndexNextIds
  · simp only [if_pos isThere, true_and]
    intro other
    obtain ⟨old, recorded⟩ :=
      Option.isSome_iff_exists.mp (AList.lookup_isSome.mpr isThere)
    by_cases same : other = index
    · subst same
      simp [recorded]
    · simp [same]
  · simp only [if_neg isThere, true_and]
    intro other
    rw [lookup_insert_const]
    by_cases same : other = index
    · subst same
      simp [AList.lookup_eq_none.mpr isThere]
    · simp [same]

theorem foldl_mergeNextId
    (items : List (Σ _ : IndexId, ObjectId)) (parent : UndoState V) :
    (items.foldl mergeNextId parent).oldValues = parent.oldValues ∧
    (items.foldl mergeNextId parent).removed = parent.removed ∧
    (items.foldl mergeNextId parent).newIds = parent.newIds ∧
    ∀ other,
      (items.foldl mergeNextId parent).oldIndexNextIds.lookup other =
        (parent.oldIndexNextIds.lookup other).or
          (items.dlookup other) := by
  induction items generalizing parent with
  | nil =>
      simp
  | cons item rest ih =>
      obtain ⟨index, id⟩ := item
      obtain ⟨oldValues, removed, newIds, lookups⟩ :=
        ih (mergeNextId parent ⟨index, id⟩)
      obtain ⟨oldValues₁, removed₁, newIds₁, lookups₁⟩ :=
        mergeNextId_step parent index id
      refine
        ⟨oldValues.trans oldValues₁, removed.trans removed₁,
          newIds.trans newIds₁, ?_⟩
      intro other
      rw [List.foldl_cons, lookups, lookups₁, dlookup_cons_const,
        Option.or_assoc]
      by_cases same : other = index
      · subst same
        simp
      · simp [same]

theorem mergeRemoved_step (parent : UndoState V) (id : ObjectId) (value : V) :
    (mergeRemoved parent ⟨id, value⟩).oldIndexNextIds =
      parent.oldIndexNextIds ∧
    (∀ other, other ∈ (mergeRemoved parent ⟨id, value⟩).newIds ↔
      other ∈ parent.newIds ∧ other ≠ id) ∧
    (∀ other,
      (mergeRemoved parent ⟨id, value⟩).oldValues.lookup other =
        if other = id ∧ other ∉ parent.newIds then none
        else parent.oldValues.lookup other) ∧
    ∀ other,
      (mergeRemoved parent ⟨id, value⟩).removed.lookup other =
        if other = id ∧ other ∉ parent.newIds then
          (parent.oldValues.lookup other).or (some value)
        else parent.removed.lookup other := by
  unfold mergeRemoved
  by_cases isNew : id ∈ parent.newIds
  · simp only [if_pos isNew, true_and, AList.mem_erase]
    have excluded : ∀ other, ¬ (other = id ∧ other ∉ parent.newIds) :=
      fun other both => both.2 (both.1 ▸ isNew)
    refine ⟨fun other => and_comm, ?_, ?_⟩
    · intro other
      rw [if_neg (excluded other)]
    · intro other
      rw [if_neg (excluded other)]
  · simp only [if_neg isNew]
    have notSame : ∀ other ∈ parent.newIds, other ≠ id :=
      fun other member same => isNew (same ▸ member)
    cases recorded : parent.oldValues.lookup id with
    | some old =>
        refine ⟨rfl, ?_, ?_, ?_⟩
        · intro other
          exact ⟨fun member => ⟨member, notSame other member⟩, And.left⟩
        · intro other
          rw [lookup_erase_const]
          by_cases same : other = id
          · subst same
            simp [isNew]
          · simp [same]
        · intro other
          rw [lookup_insert_const]
          by_cases same : other = id
          · subst same
            simp [isNew, recorded]
          · simp [same]
    | none =>
        refine ⟨rfl, ?_, ?_, ?_⟩
        · intro other
          exact ⟨fun member => ⟨member, notSame other member⟩, And.left⟩
        · intro other
          by_cases same : other = id
          · subst same
            simp [recorded]
          · simp [same]
        · intro other
          rw [lookup_insert_const]
          by_cases same : other = id
          · subst same
            simp [isNew, recorded]
          · simp [same]

theorem foldl_mergeRemoved (items : List (Σ _ : ObjectId, V))
    (nodup : items.keys.Nodup) (parent : UndoState V) :
    (items.foldl mergeRemoved parent).oldIndexNextIds =
      parent.oldIndexNextIds ∧
    (∀ other, other ∈ (items.foldl mergeRemoved parent).newIds ↔
      other ∈ parent.newIds ∧ other ∉ items.keys) ∧
    (∀ other, (items.foldl mergeRemoved parent).oldValues.lookup other =
      if other ∈ items.keys ∧ other ∉ parent.newIds then none
      else parent.oldValues.lookup other) ∧
    ∀ other, (items.foldl mergeRemoved parent).removed.lookup other =
      if other ∈ items.keys ∧ other ∉ parent.newIds then
        (parent.oldValues.lookup other).or (items.dlookup other)
      else parent.removed.lookup other := by
  induction items generalizing parent with
  | nil =>
      simp [List.keys]
  | cons item rest ih =>
      obtain ⟨id, value⟩ := item
      have restAbsent : id ∉ rest.keys := (List.nodup_cons.mp nodup).1
      obtain ⟨counters, newIds, oldValues, removed⟩ :=
        ih (List.nodup_cons.mp nodup).2
          (mergeRemoved parent ⟨id, value⟩)
      obtain ⟨counters₁, newIds₁, oldValues₁, removed₁⟩ :=
        mergeRemoved_step parent id value
      simp only [List.foldl_cons, List.keys_cons, List.mem_cons]
      refine ⟨counters.trans counters₁, ?_, ?_, ?_⟩
      · intro other
        rw [newIds, newIds₁]
        tauto
      · intro other
        simp only [oldValues, newIds₁, oldValues₁]
        by_cases same : other = id
        · subst same
          simp [restAbsent]
        · simp [same]
      · intro other
        simp only [removed, newIds₁, oldValues₁, removed₁,
          dlookup_cons_const]
        by_cases same : other = id
        · subst same
          simp [restAbsent]
        · simp [same]

structure MergedWith (parent child merged : UndoState V) : Prop where
  newIds : ∀ id, id ∈ merged.newIds ↔
    (id ∈ parent.newIds ∨ id ∈ child.newIds) ∧ id ∉ child.removed
  oldValues : ∀ id, merged.oldValues.lookup id =
    if id ∈ child.removed ∧ ¬ (id ∈ parent.newIds ∨ id ∈ child.newIds)
    then none
    else (parent.oldValues.lookup id).or
      (if id ∈ parent.newIds then none else child.oldValues.lookup id)
  removed : ∀ id, merged.removed.lookup id =
    if id ∈ child.removed ∧ ¬ (id ∈ parent.newIds ∨ id ∈ child.newIds)
    then ((parent.oldValues.lookup id).or
      (if id ∈ parent.newIds then none
        else child.oldValues.lookup id)).or (child.removed.lookup id)
    else parent.removed.lookup id
  counters : ∀ index, merged.oldIndexNextIds.lookup index =
    (parent.oldIndexNextIds.lookup index).or
      (child.oldIndexNextIds.lookup index)

theorem walk_dlookup [DecidableEq κ]
    (table : AList (fun _ : κ => β)) (key : κ) :
    (walk.order table.entries).dlookup key = table.lookup key :=
  List.perm_dlookup key (walk_keys_nodup table) (walk.perm table.entries)

theorem mergeStates_mergedWith (parent child : UndoState V) :
    MergedWith parent child (mergeStates walk parent child) := by
  obtain ⟨newIds₁, removed₁, counters₁, oldValues₁⟩ :=
    foldl_mergeOldValue (walk.order child.oldValues.entries) parent
  generalize afterOld :
    (walk.order child.oldValues.entries).foldl mergeOldValue parent =
      first at newIds₁ removed₁ counters₁ oldValues₁
  obtain ⟨oldValues₂, removed₂, counters₂, newIds₂⟩ :=
    foldl_mergeNewId (walk.order child.newIds.entries) first
  generalize afterNew :
    (walk.order child.newIds.entries).foldl mergeNewId first =
      second at newIds₂ removed₂ counters₂ oldValues₂
  obtain ⟨oldValues₃, removed₃, newIds₃, counters₃⟩ :=
    foldl_mergeNextId (walk.order child.oldIndexNextIds.entries) second
  generalize afterNext :
    (walk.order child.oldIndexNextIds.entries).foldl mergeNextId second =
      third at newIds₃ removed₃ counters₃ oldValues₃
  obtain ⟨counters₄, newIds₄, oldValues₄, removed₄⟩ :=
    foldl_mergeRemoved (walk.order child.removed.entries)
      (walk_keys_nodup child.removed) third
  have mergedEq :
      mergeStates walk parent child =
        (walk.order child.removed.entries).foldl mergeRemoved third := by
    simp only [mergeStates, afterOld, afterNew, afterNext]
  have isNewIff : ∀ id, id ∈ third.newIds ↔
      id ∈ parent.newIds ∨ id ∈ child.newIds := by
    intro id
    rw [newIds₃, newIds₂, newIds₁, walk_keys_mem]
  have oldEq : ∀ id, third.oldValues.lookup id =
      (parent.oldValues.lookup id).or
        (if id ∈ parent.newIds then none
          else child.oldValues.lookup id) := by
    intro id
    rw [oldValues₃, oldValues₂, oldValues₁, walk_dlookup]
  rw [mergedEq]
  exact
    { newIds := by
        intro id
        rw [newIds₄, isNewIff, walk_keys_mem]
      oldValues := by
        intro id
        simp only [oldValues₄, walk_keys_mem, isNewIff, oldEq]
      removed := by
        intro id
        simp only [removed₄, walk_keys_mem, isNewIff, oldEq,
          walk_dlookup, removed₃, removed₂, removed₁]
      counters := by
        intro index
        rw [counters₄, counters₃, counters₂, counters₁, walk_dlookup] }

section Compose

variable {parent child merged : UndoState V}
  {old middle current : Objects V}

/-- The state of one id in a pair of adjacent records: the entries of the
table in `undo_database::merge` that are not `N/A`. -/
inductive MergeCase (parent child : UndoState V) (id : ObjectId) : Prop
  | childNew
      (isNew : id ∈ child.newIds) (notNew : id ∉ parent.newIds)
      (notOld : id ∉ parent.oldValues) (notRemoved : id ∉ parent.removed)
      (notChildOld : id ∉ child.oldValues)
      (notChildRemoved : id ∉ child.removed)
  | childRemoved
      (isRemoved : id ∈ child.removed) (notChildNew : id ∉ child.newIds)
      (notChildOld : id ∉ child.oldValues)
      (notRemoved : id ∉ parent.removed)
  | childOld
      (isOld : id ∈ child.oldValues) (notChildNew : id ∉ child.newIds)
      (notChildRemoved : id ∉ child.removed)
      (notRemoved : id ∉ parent.removed)
  | childNop
      (notChildNew : id ∉ child.newIds)
      (notChildOld : id ∉ child.oldValues)
      (notChildRemoved : id ∉ child.removed)

/-- Ids are never given out twice, so nothing else can happen. -/
theorem mergeCase (first : Records parent old middle)
    (second : Records child middle current) (formed : WellFormed schema old)
    (id : ObjectId) : MergeCase parent child id := by
  by_cases isNew : id ∈ child.newIds
  · have wasAbsent := second.old_of_new isNew
    have notNew : id ∉ parent.newIds := by
      intro member
      have present := first.newPresent id member
      simp [wasAbsent] at present
    have notOld : id ∉ parent.oldValues := by
      intro member
      have present := first.oldPresent id member
      simp [wasAbsent] at present
    have notRemoved : id ∉ parent.removed := by
      intro member
      obtain ⟨value, recorded⟩ :=
        Option.isSome_iff_exists.mp (AList.lookup_isSome.mpr member)
      have bound := formed.below id value (first.old_of_removed recorded)
      have fresh := second.newFresh id isNew
      have grown := first.monotone id.index
      omega
    exact .childNew isNew notNew notOld notRemoved
      (second.newOnly id isNew).1 (second.newOnly id isNew).2
  · by_cases isRemoved : id ∈ child.removed
    · obtain ⟨value, recorded⟩ :=
        Option.isSome_iff_exists.mp (AList.lookup_isSome.mpr isRemoved)
      have wasThere := second.old_of_removed recorded
      refine .childRemoved isRemoved isNew ?_ ?_
      · intro member
        have present := second.oldPresent id member
        simp [second.removedAbsent id isRemoved] at present
      · intro member
        simp [first.removedAbsent id member] at wasThere
    · by_cases isOld : id ∈ child.oldValues
      · obtain ⟨value, recorded⟩ :=
          Option.isSome_iff_exists.mp (AList.lookup_isSome.mpr isOld)
        have wasThere := second.old_of_oldValue recorded
        refine .childOld isOld isNew isRemoved ?_
        intro member
        simp [first.removedAbsent id member] at wasThere
      · exact .childNop isNew isOld isRemoved

structure MergedAt (parent child merged : UndoState V) (id : ObjectId) :
    Prop where
  isNew : id ∈ merged.newIds ↔
    (id ∈ parent.newIds ∧ id ∉ child.removed) ∨ id ∈ child.newIds
  oldValue : merged.oldValues.lookup id =
    if id ∈ child.removed then none
    else (parent.oldValues.lookup id).or
      (if id ∈ parent.newIds then none else child.oldValues.lookup id)
  removed : merged.removed.lookup id =
    if id ∈ child.removed ∧ id ∉ parent.newIds then
      (parent.oldValues.lookup id).or (child.removed.lookup id)
    else parent.removed.lookup id

theorem MergedWith.at_id (shape : MergedWith parent child merged)
    (first : Records parent old middle) (id : ObjectId)
    (split : MergeCase parent child id) : MergedAt parent child merged id := by
  have parentOldOfNew :
      id ∈ parent.newIds → parent.oldValues.lookup id = none :=
    fun isNew => AList.lookup_eq_none.mpr (first.newOnly id isNew).1
  cases split with
  | childNew isNew notNew notOld notRemoved notChildOld notChildRemoved =>
      exact
        { isNew := by simp [shape.newIds, isNew, notChildRemoved]
          oldValue := by simp [shape.oldValues, notChildRemoved]
          removed := by simp [shape.removed, notChildRemoved] }
  | childRemoved isRemoved notChildNew notChildOld notRemoved =>
      refine
        { isNew := by simp [shape.newIds, isRemoved, notChildNew]
          oldValue := ?_
          removed := ?_ }
      · by_cases isNew : id ∈ parent.newIds
        · simp [shape.oldValues, isRemoved, isNew, parentOldOfNew isNew]
        · simp [shape.oldValues, isRemoved, isNew, notChildNew]
      · by_cases isNew : id ∈ parent.newIds
        · simp [shape.removed, isNew]
        · simp [shape.removed, isRemoved, isNew, notChildNew,
            AList.lookup_eq_none.mpr notChildOld]
  | childOld isOld notChildNew notChildRemoved notRemoved =>
      exact
        { isNew := by simp [shape.newIds, notChildNew, notChildRemoved]
          oldValue := by simp [shape.oldValues, notChildRemoved]
          removed := by simp [shape.removed, notChildRemoved] }
  | childNop notChildNew notChildOld notChildRemoved =>
      exact
        { isNew := by simp [shape.newIds, notChildNew, notChildRemoved]
          oldValue := by simp [shape.oldValues, notChildRemoved]
          removed := by simp [shape.removed, notChildRemoved] }

/-- At every id the merged patch reverts like the composition of the two. -/
theorem merged_patch_revert (second : Records child middle current)
    {id : ObjectId} (split : MergeCase parent child id)
    (here : MergedAt parent child merged id) :
    (merged.patch id).getD (current.find id) =
      ((parent.patch.compose child.patch) id).getD (current.find id) := by
  cases split with
  | childNew isNew notNew notOld notRemoved notChildOld notChildRemoved =>
      have mergedNew : id ∈ merged.newIds := here.isNew.mpr (Or.inr isNew)
      simp [UndoState.patch, Patch.compose, mergedNew, isNew, notNew,
        AList.lookup_eq_none.mpr notOld,
        AList.lookup_eq_none.mpr notRemoved]
  | childRemoved isRemoved notChildNew notChildOld notRemoved =>
      have notMergedNew : id ∉ merged.newIds := by
        simp [here.isNew, isRemoved, notChildNew]
      have noOld : merged.oldValues.lookup id = none := by
        simp [here.oldValue, isRemoved]
      have removedEq := here.removed
      have absent := second.removedAbsent id isRemoved
      by_cases isNew : id ∈ parent.newIds
      · have gone : merged.removed.lookup id = none := by
          simp [removedEq, isNew, AList.lookup_eq_none.mpr notRemoved]
        simp [UndoState.patch, Patch.compose, notMergedNew, noOld, gone,
          isNew, absent]
      · simp only [isRemoved, isNew, not_false_eq_true, and_self,
          if_true] at removedEq
        cases parentOld : parent.oldValues.lookup id with
        | some old =>
            simp [UndoState.patch, Patch.compose, notMergedNew, noOld,
              removedEq, isNew, parentOld]
        | none =>
            simp [UndoState.patch, Patch.compose, notMergedNew, noOld,
              removedEq, isNew, parentOld, notChildNew,
              AList.lookup_eq_none.mpr notChildOld,
              AList.lookup_eq_none.mpr notRemoved]
  | childOld isOld notChildNew notChildRemoved notRemoved =>
      have removedEq : merged.removed.lookup id = none := by
        simp [here.removed, notChildRemoved,
          AList.lookup_eq_none.mpr notRemoved]
      have oldEq := here.oldValue
      simp only [notChildRemoved, if_false] at oldEq
      by_cases isNew : id ∈ parent.newIds
      · have mergedNew : id ∈ merged.newIds :=
          here.isNew.mpr (Or.inl ⟨isNew, notChildRemoved⟩)
        simp [UndoState.patch, Patch.compose, mergedNew, isNew]
      · have notMergedNew : id ∉ merged.newIds := by
          simp [here.isNew, isNew, notChildNew]
        simp only [isNew, if_false] at oldEq
        cases parentOld : parent.oldValues.lookup id with
        | some old =>
            simp [UndoState.patch, Patch.compose, notMergedNew, oldEq,
              isNew, parentOld]
        | none =>
            obtain ⟨value, recorded⟩ :=
              Option.isSome_iff_exists.mp (AList.lookup_isSome.mpr isOld)
            simp [UndoState.patch, Patch.compose, notMergedNew, oldEq,
              isNew, parentOld, recorded, notChildNew,
              AList.lookup_eq_none.mpr notRemoved]
  | childNop notChildNew notChildOld notChildRemoved =>
      have removedEq : merged.removed.lookup id = parent.removed.lookup id := by
        simp [here.removed, notChildRemoved]
      have oldEq : merged.oldValues.lookup id = parent.oldValues.lookup id := by
        simp [here.oldValue, notChildRemoved,
          AList.lookup_eq_none.mpr notChildOld]
      have newIff : id ∈ merged.newIds ↔ id ∈ parent.newIds := by
        simp [here.isNew, notChildNew, notChildRemoved]
      have samePatch : merged.patch id = parent.patch id := by
        simp [UndoState.patch, newIff, oldEq, removedEq]
      have noChild : child.patch id = none := by
        simp [UndoState.patch, notChildNew,
          AList.lookup_eq_none.mpr notChildOld,
          AList.lookup_eq_none.mpr notChildRemoved]
      simp [Patch.compose, samePatch, noChild]

/-- An object the parent made or changed, and the child neither removed nor
made, is there now. -/
theorem present_of_middle (second : Records child middle current)
    {id : ObjectId} (present : (middle.find id).isSome)
    (notRemoved : id ∉ child.removed) : (current.find id).isSome := by
  by_cases isNew : id ∈ child.newIds
  · exact second.newPresent id isNew
  · by_cases isOld : id ∈ child.oldValues
    · exact second.oldPresent id isOld
    · rw [← second.old_of_untouched isNew isOld notRemoved]
      exact present

/-- The merged state records the whole way from `old` to `current`. -/
theorem Records.merge (first : Records parent old middle)
    (second : Records child middle current) (formed : WellFormed schema old)
    (shape : MergedWith parent child merged) : Records merged old current := by
  have split := mergeCase first second formed
  have here := fun id => shape.at_id first id (split id)
  have memOld :
      ∀ id ∈ merged.oldValues, id ∉ child.removed ∧
        (id ∈ parent.oldValues ∨ id ∈ child.oldValues) ∧
        (id ∉ parent.newIds ∨ id ∈ parent.oldValues) := by
    intro id member
    have found := AList.lookup_isSome.mpr member
    rw [(here id).oldValue] at found
    by_cases isRemoved : id ∈ child.removed
    · simp [isRemoved] at found
    · refine ⟨isRemoved, ?_⟩
      by_cases isNew : id ∈ parent.newIds
      · simp only [isRemoved, isNew, if_false, if_true,
          Option.or_none] at found
        have isOld := AList.lookup_isSome.mp found
        exact ⟨Or.inl isOld, Or.inr isOld⟩
      · simp only [isRemoved, isNew, if_false, Option.isSome_or,
          Bool.or_eq_true, AList.lookup_isSome] at found
        exact ⟨found, Or.inl isNew⟩
  have memRemoved :
      ∀ id ∈ merged.removed,
        (id ∈ child.removed ∧ id ∉ parent.newIds) ∨
        (id ∈ parent.removed ∧ id ∉ child.removed) ∨
        (id ∈ parent.removed ∧ id ∈ parent.newIds) := by
    intro id member
    have found := AList.lookup_isSome.mpr member
    rw [(here id).removed] at found
    by_cases both : id ∈ child.removed ∧ id ∉ parent.newIds
    · exact Or.inl both
    · rw [if_neg both, AList.lookup_isSome] at found
      tauto
  refine
    { leads := ?_
      newPresent := ?_
      newOnly := ?_
      newFresh := ?_
      oldPresent := ?_
      removedAbsent := ?_
      oldNextId := ?_
      sameNextId := ?_
      monotone := fun index =>
        Nat.le_trans (first.monotone index) (second.monotone index) }
  · have composed :
        (parent.patch.compose child.patch).Leads old.find current.find :=
      Patch.Leads.compose first.leads second.leads
    exact Eq.trans
      (Patch.revert_congr fun id =>
        merged_patch_revert second (split id) (here id))
      composed
  · intro id member
    rcases (here id).isNew.mp member with ⟨isNew, notRemoved⟩ | isNew
    · exact present_of_middle second (first.newPresent id isNew)
        notRemoved
    · exact second.newPresent id isNew
  · intro id member
    rcases (here id).isNew.mp member with ⟨isNew, notRemoved⟩ | isNew
    · have apart := first.newOnly id isNew
      constructor
      · intro isOld
        rcases (memOld id isOld).2.2 with notNew | parentOld
        · exact notNew isNew
        · exact apart.1 parentOld
      · intro isRemoved
        rcases memRemoved id isRemoved with
          ⟨_, notNew⟩ | ⟨parentRemoved, _⟩ | ⟨parentRemoved, _⟩
        · exact notNew isNew
        · exact apart.2 parentRemoved
        · exact apart.2 parentRemoved
    · have apart := second.newOnly id isNew
      have absent := second.old_of_new isNew
      cases split id with
      | childNew _ notNew notOld notRemoved _ _ =>
          constructor
          · intro isOld
            rcases (memOld id isOld).2.1 with parentOld | childOld
            · exact notOld parentOld
            · exact apart.1 childOld
          · intro isRemoved
            rcases memRemoved id isRemoved with
              ⟨childRemoved, _⟩ | ⟨parentRemoved, _⟩ | ⟨parentRemoved, _⟩
            · exact apart.2 childRemoved
            · exact notRemoved parentRemoved
            · exact notRemoved parentRemoved
      | childRemoved isRemoved => exact absurd isRemoved apart.2
      | childOld isOld => exact absurd isOld apart.1
      | childNop notChildNew => exact absurd isNew notChildNew
  · intro id member
    rcases (here id).isNew.mp member with ⟨isNew, _⟩ | isNew
    · exact first.newFresh id isNew
    · exact Nat.le_trans (first.monotone id.index)
        (second.newFresh id isNew)
  · intro id member
    obtain ⟨notRemoved, parentOld | childOld, _⟩ := memOld id member
    · exact present_of_middle second (first.oldPresent id parentOld)
        notRemoved
    · exact second.oldPresent id childOld
  · intro id member
    have gone : id ∈ parent.removed → id ∉ child.removed →
        current.find id = none := by
      intro isRemoved notChildRemoved
      have absent := first.removedAbsent id isRemoved
      cases split id with
      | childNew _ _ _ notRemoved => exact absurd isRemoved notRemoved
      | childRemoved childRemoved =>
          exact absurd childRemoved notChildRemoved
      | childOld _ _ _ notRemoved => exact absurd isRemoved notRemoved
      | childNop notNew notOld notRemoved =>
          rw [← second.old_of_untouched notNew notOld notRemoved]
          exact absent
    rcases memRemoved id member with
      ⟨isRemoved, _⟩ | ⟨isRemoved, notChild⟩ | ⟨isRemoved, isNew⟩
    · exact second.removedAbsent id isRemoved
    · exact gone isRemoved notChild
    · exact absurd isRemoved (first.newOnly id isNew).2
  · intro index id recorded
    rw [shape.counters] at recorded
    cases parentRecorded : parent.oldIndexNextIds.lookup index with
    | some parentId =>
        rw [parentRecorded, Option.some_or, Option.some.injEq]
          at recorded
        exact first.oldNextId index id (recorded ▸ parentRecorded)
    | none =>
        rw [parentRecorded, Option.none_or] at recorded
        rw [second.oldNextId index id recorded,
          first.sameNextId index (AList.lookup_eq_none.mp parentRecorded)]
  · intro index notRecorded
    have nowhere := AList.lookup_eq_none.mpr notRecorded
    rw [shape.counters, Option.or_eq_none_iff, AList.lookup_eq_none,
      AList.lookup_eq_none] at nowhere
    exact (first.sameNextId index nowhere.1).trans
      (second.sameNextId index nowhere.2)

end Compose

end GxbCore.Db
