import GxbCore.Chain.Runs

/-!
# A fork switch, step by step

The pops of a switch go on as long as there are snapshots on the undo stack and
the head of the fork database leads to an item that is still held; this module
says exactly how far they get and what they leave.  It follows the object
state, the snapshots and the fork database through the blocks that apply, up to
the block that does not, and through the restoring of the old branch.
-/

namespace GxbCore.Chain

variable {B X : Type} {rules : Rules B X} {known : Set (Block B)}

def ForkDatabase.popTimes (held : List (ForkItem B)) :
    Nat → ForkDatabase B → Option (ForkDatabase B)
  | 0, fork => some fork
  | count + 1, fork =>
      match fork.popBlock held with
      | .ok popped => popTimes held count popped
      | .throw _ _ => none

/-- The undo stack and the fork database have enough for `count` pops. -/
def CanPop (held : List (ForkItem B)) (count : Nat)
    (db : ChainDatabase B X) : Prop :=
  count ≤ db.objects.saved.length ∧
    (db.forkDb.popTimes held count).isSome

/-- `after` is `db` with `count` blocks popped. -/
structure Popped (held : List (ForkItem B)) (count : Nat)
    (db after : ChainDatabase B X) : Prop where
  objects :
    after.objects.current :: after.objects.saved =
      (db.objects.current :: db.objects.saved).drop count
  limit : after.objects.limit = db.objects.limit
  forkDb : db.forkDb.popTimes held count = some after.forkDb
  blockLog : after.blockLog = db.blockLog

variable {count : Nat} {held : List (ForkItem B)} {db : ChainDatabase B X}

theorem Popped.canPop
    {db after : ChainDatabase B X} (popped : Popped held count db after) :
    CanPop held count db := by
  constructor
  · have lengths := congrArg List.length popped.objects
    simp only [List.length_cons, List.length_drop] at lengths
    omega
  · rw [popped.forkDb]
    rfl

theorem ForkDatabase.popTimes_pred {fork : ForkDatabase B}
    (pops : (fork.popTimes held (count + 1)).isSome) :
    (fork.popTimes held count).isSome := by
  induction count generalizing fork with
  | zero => rfl
  | succ count ih =>
      unfold ForkDatabase.popTimes at pops ⊢
      split at pops
      · exact ih pops
      · cases pops

theorem CanPop.pred (able : CanPop held (count + 1) db) :
    CanPop held count db :=
  ⟨Nat.le_of_succ_le able.1, ForkDatabase.popTimes_pred able.2⟩

theorem CanPop.mono {few many : Nat} (able : CanPop held many db)
    (fewer : few ≤ many) : CanPop held few db := by
  induction many with
  | zero =>
      obtain rfl : few = 0 := by omega
      exact able
  | succ many ih =>
      by_cases same : few = many + 1
      · exact same ▸ able
      · exact ih able.pred (by omega)

/-- The number of pops that can be made is determined. -/
theorem CanPop.unique {left right : Nat} (leftAble : CanPop held left db)
    (leftStuck : ¬ CanPop held (left + 1) db) (rightAble : CanPop held right db)
    (rightStuck : ¬ CanPop held (right + 1) db) : left = right := by
  by_contra different
  rcases Nat.lt_or_gt_of_ne different with fewer | more
  · exact leftStuck (rightAble.mono fewer)
  · exact rightStuck (leftAble.mono more)

theorem Popped.unique {db left right : ChainDatabase B X}
    (leftPopped : Popped held count db left)
    (rightPopped : Popped held count db right) : left = right := by
  obtain ⟨⟨leftState, leftSaved, leftLimit⟩, leftFork, leftLog⟩ := left
  obtain ⟨⟨rightState, rightSaved, rightLimit⟩, rightFork, rightLog⟩ :=
    right
  have objects := leftPopped.objects.trans rightPopped.objects.symm
  have limit := leftPopped.limit.trans rightPopped.limit.symm
  have fork := leftPopped.forkDb.symm.trans rightPopped.forkDb
  have log := leftPopped.blockLog.trans rightPopped.blockLog.symm
  simp only [List.cons.injEq] at objects
  simp only at limit log
  simp only [Option.some.injEq] at fork
  rw [objects.1, objects.2, limit, fork, log]

theorem ForkDatabase.popTimes_index {fork popped : ForkDatabase B}
    (pops : fork.popTimes held count = some popped) :
    popped = { fork with head := popped.head } := by
  induction count generalizing fork with
  | zero =>
      cases pops
      rfl
  | succ count ih =>
      unfold ForkDatabase.popTimes at pops
      split at pops
      · rename_i middle returns
        obtain ⟨_, prev, _, _, rfl⟩ := ForkDatabase.popBlock_eq_ok returns
        have rest := ih pops
        rw [rest]
      · cases pops

section Pops

variable {held : List (ForkItem B)} {db : ChainDatabase B X}
  {older : List (Block B)} {fork : ForkDatabase B}

/-- Fetching looks at the index and the log only, which pops leave alone. -/
theorem fetchBlockById_popped {objects : Snapshots (ChainState B X)}
    (id : BlockId) (popped : db.forkDb.popBlock held = .ok fork) :
    fetchBlockById { db with forkDb := fork, objects := objects } id =
      fetchBlockById db id := by
  obtain ⟨_, _, _, _, rfl⟩ := ForkDatabase.popBlock_eq_ok popped
  rfl

theorem popBlock_spec {last : ChainState B X} {saved : List (ChainState B X)}
    (fetched : (fetchBlockById db db.headBlockId).isSome)
    (popped : db.forkDb.popBlock held = .ok fork)
    (stack : db.objects.saved = last :: saved) :
    popBlock held db =
      .ok
        { db with
          forkDb := fork
          objects :=
            { db.objects with current := last, saved := saved } } := by
  obtain ⟨block, isBlock⟩ := Option.isSome_iff_exists.mp fetched
  simp only [popBlock, isBlock, popped, Snapshots.restore, stack]

theorem popBlock_stuck (stuck : ¬ CanPop held 1 db) :
    ∃ fault after, popBlock held db = .throw fault after ∧
      after.objects = db.objects ∧ after.blockLog = db.blockLog := by
  rcases popBlock_cases held db with
    ⟨fork, objects, returns, popped, restored⟩ |
    ⟨fault, fork, throws, _⟩
  · exfalso
    apply stuck
    constructor
    · cases stack : db.objects.saved with
      | nil => simp [Snapshots.restore_of_nil stack] at restored
      | cons last saved => simp
    · simp [ForkDatabase.popTimes, popped]
  · exact ⟨fault, _, throws, rfl, rfl⟩

theorem canPop_succ {last : ChainState B X} {saved : List (ChainState B X)}
    (count : Nat) (popped : db.forkDb.popBlock held = .ok fork)
    (stack : db.objects.saved = last :: saved) :
    CanPop held (count + 1) db ↔
      CanPop held count
        { db with
          forkDb := fork
          objects :=
            { db.objects with current := last, saved := saved } } := by
  simp [CanPop, stack, ForkDatabase.popTimes, popped]

/-- How the pop loop ends: after all blocks above `older`, or stuck. -/
theorem popUntil_spec (held : List (ForkItem B)) {fuel : Nat}
    {newer : List (Block B)} (ok : ObjectsOk known rules db.objects)
    (shape : db.state.history = newer ++ older)
    (fetches : ∀ block ∈ newer, (fetchBlockById db block.id).isSome)
    (enough : db.objects.saved.length < fuel) :
    (∃ after, popUntil held (lastId older) fuel db = .ok after ∧
      Popped held newer.length db after) ∨
    (∃ count fault after,
      popUntil held (lastId older) fuel db = .throw fault after ∧
      count < newer.length ∧
      ¬ CanPop held (count + 1) db ∧
      CanPop held count db ∧
      after.objects.current :: after.objects.saved =
        (db.objects.current :: db.objects.saved).drop count ∧
      after.blockLog = db.blockLog) := by
  induction newer generalizing fuel db with
  | nil =>
      obtain ⟨fuel, rfl⟩ : ∃ rest, fuel = rest + 1 := ⟨fuel - 1, by omega⟩
      have atTarget : db.headBlockId = lastId older := by
        rw [ok.headBlockId_eq, shape, List.nil_append]
      refine Or.inl ⟨db, ?_, ⟨rfl, rfl, rfl, rfl⟩⟩
      simp [popUntil, atTarget]
  | cons block newer ih =>
      obtain ⟨fuel, rfl⟩ : ∃ rest, fuel = rest + 1 := ⟨fuel - 1, by omega⟩
      have linked := ok.current.linked
      rw [shape] at linked
      have notThere : db.headBlockId ≠ lastId older := by
        rw [ok.headBlockId_eq, shape]
        exact linked.lastId_append_ne (by simp)
      have headIs : db.headBlockId = block.id := by
        rw [ok.headBlockId_eq, shape]
        rfl
      have fetched : (fetchBlockById db db.headBlockId).isSome := by
        rw [headIs]
        exact fetches block List.mem_cons_self
      have unfolded :
          popUntil held (lastId older) (fuel + 1) db =
            (popBlock held db).bind
              (popUntil held (lastId older) fuel) := by
        simp [popUntil, notThere]
      rw [unfolded]
      by_cases first : CanPop held 1 db
      · obtain ⟨last, saved, stack⟩ :
            ∃ last saved, db.objects.saved = last :: saved := by
          cases stack : db.objects.saved with
          | nil => simp [CanPop, stack] at first
          | cons last saved => exact ⟨last, saved, rfl⟩
        obtain ⟨fork, popped⟩ :
            ∃ fork, db.forkDb.popBlock held = .ok fork := by
          cases popped : db.forkDb.popBlock held with
          | ok fork => exact ⟨fork, rfl⟩
          | throw fault left =>
              simp [CanPop, ForkDatabase.popTimes, popped] at first
        rw [popBlock_spec fetched popped stack, Outcome.bind_ok]
        have restored := Snapshots.restore_of_cons stack
        obtain ⟨okBelow, below, applies⟩ := ok.restore restored
        have shapeBelow : last.history = newer ++ older := by
          have extended := (applyState_extends applies).history
          rw [shape, List.cons_append, List.cons.injEq] at extended
          exact extended.2.symm
        have spec :=
          @ih
            { db with
              forkDb := fork
              objects :=
                { db.objects with current := last, saved := saved } }
            fuel okBelow shapeBelow
            (fun other member => by
              rw [fetchBlockById_popped other.id popped]
              exact fetches other (List.mem_cons_of_mem block member))
            (by
              rw [stack, List.length_cons] at enough
              simpa using Nat.lt_of_succ_lt_succ enough)
        rcases spec with
          ⟨after, returns, poppedAll⟩ |
          ⟨count, fault, after, throws, fewer, stuck, able, left, log⟩
        · refine Or.inl ⟨after, returns, ?_⟩
          exact
            { objects := by
                rw [poppedAll.objects, stack, List.length_cons,
                  List.drop_succ_cons]
              limit := poppedAll.limit
              forkDb := by
                simpa [ForkDatabase.popTimes, popped] using
                  poppedAll.forkDb
              blockLog := poppedAll.blockLog }
        · refine Or.inr
            ⟨count + 1, fault, after, throws, by simpa using fewer, ?_,
              ?_, ?_, log⟩
          · rw [canPop_succ _ popped stack]
            exact stuck
          · rw [canPop_succ _ popped stack]
            exact able
          · rw [left, stack, List.drop_succ_cons]
      · obtain ⟨fault, after, throws, same, log⟩ := popBlock_stuck first
        rw [throws, Outcome.bind_throw]
        refine Or.inr ⟨0, fault, after, rfl, by simp, first, ?_, ?_, log⟩
        · simp [CanPop, ForkDatabase.popTimes]
        · rw [same]
          rfl

end Pops

/-- The object state after applying these blocks, if all of them apply. -/
def applyAll (rules : Rules B X) :
    List (Block B) → ChainState B X → Option (ChainState B X)
  | [], state => some state
  | block :: later, state =>
      match applyState rules block state with
      | .error _ => none
      | .ok next => applyAll rules later next

theorem applyAll_append {rules : Rules B X} {earlier later : List (Block B)}
    {state : ChainState B X} :
    applyAll rules (earlier ++ later) state =
      (applyAll rules earlier state).bind (applyAll rules later) := by
  induction earlier generalizing state with
  | nil => rfl
  | cons block earlier ih =>
      simp only [List.cons_append, applyAll]
      split
      · rfl
      · exact ih

theorem applyAll_history {blocks : List (Block B)}
    {state after : ChainState B X}
    (applies : applyAll rules blocks state = some after) :
    after.history = blocks.reverse ++ state.history := by
  induction blocks generalizing state with
  | nil =>
      cases applies
      rfl
  | cons block later ih =>
      unfold applyAll at applies
      split at applies
      · cases applies
      · rename_i next applied
        rw [ih applies,
          (applyState_extends applied).history]
        simp

/-- The undo stack after sessions around these blocks, up to the start of the
session that does not commit. -/
def snapshotsAfter (rules : Rules B X) :
    List (Block B) → Snapshots (ChainState B X) →
      Snapshots (ChainState B X)
  | [], objects => objects
  | block :: later, objects =>
      match applyState rules block objects.current with
      | .error _ =>
          { objects with saved := objects.saved.take objects.limit }
      | .ok next =>
          snapshotsAfter rules later
            { current := next
              saved :=
                objects.current :: objects.saved.take objects.limit
              limit :=
                block.num - objects.current.lastIrreversibleBlockNum + 1 }

/-- The fork database after the `set_max_size` calls of these blocks. -/
def forkAfter (rules : Rules B X) :
    List (Block B) → ChainState B X → ForkDatabase B → ForkDatabase B
  | [], _, fork => fork
  | block :: later, state, fork =>
      match applyState rules block state with
      | .error _ => sizedFork rules block state fork
      | .ok next =>
          forkAfter rules later next (sizedFork rules block state fork)

/-- The log after these blocks are stored, each under the id that goes with
it. -/
def storeAll (idOf : ForkItem B → BlockId) (items : List (ForkItem B))
    (log : BlockLog B) : BlockLog B :=
  items.foldl (fun log item => log.store (idOf item) item.block) log

/-- The state below the top `newer` of the history, if the undo stack still has
it, leads to the present state through these blocks. -/
theorem ObjectsOk.applyAll_below {newer older : List (Block B)}
    {objects : Snapshots (ChainState B X)} {below : ChainState B X}
    (ok : ObjectsOk known rules objects)
    (shape : objects.current.history = newer ++ older)
    (found : (objects.current :: objects.saved)[newer.length]? = some below) :
    below.history = older ∧
      applyAll rules newer.reverse below = some objects.current := by
  induction newer generalizing objects with
  | nil =>
      simp only [List.length_nil, List.getElem?_cons_zero,
        Option.some.injEq] at found
      subst found
      exact ⟨shape, rfl⟩
  | cons block newer ih =>
      cases stack : objects.saved with
      | nil => simp [stack] at found
      | cons last saved =>
          obtain ⟨okBelow, applied, applies⟩ :=
            ok.restore (Snapshots.restore_of_cons stack)
          have extended := (applyState_extends applies).history
          rw [shape, List.cons_append, List.cons.injEq] at extended
          obtain ⟨isBlock, rest⟩ := extended
          simp only at applies
          rw [stack, List.length_cons, List.getElem?_cons_succ] at found
          obtain ⟨belowHistory, belowApplies⟩ :=
            ih okBelow rest.symm found
          refine ⟨belowHistory, ?_⟩
          rw [List.reverse_cons, applyAll_append, belowApplies,
            Option.bind_some, isBlock]
          simp [applyAll, applies]

theorem ObjectsOk.dropped_history {objects left : Snapshots (ChainState B X)}
    (ok : ObjectsOk known rules objects)
    (bound : count ≤ objects.current.history.length)
    (dropped :
      left.current :: left.saved =
        (objects.current :: objects.saved).drop count) :
    left.current.history = objects.current.history.drop count := by
  have isThere :
      (objects.current :: objects.saved)[count]? =
        some left.current := by
    have head :
        ((objects.current :: objects.saved).drop count)[0]? =
          some left.current := by
      rw [← dropped]
      rfl
    simpa [List.getElem?_drop] using head
  have length : (objects.current.history.take count).length = count := by
    rw [List.length_take]
    omega
  exact
    (ok.applyAll_below
      (List.take_append_drop count objects.current.history).symm
      (by rw [length]; exact isThere)).1

section Branch

variable {db : ChainDatabase B X}

theorem forEach_applyAndStore (idOf : ForkItem B → BlockId)
    {items : List (ForkItem B)} {after : ChainState B X}
    (applies :
      applyAll rules (items.map ForkItem.block) db.state = some after) :
    ∃ final,
      forEach
        (fun item : ForkItem B =>
          applyAndStore rules (idOf item) item.block) items db =
        .ok final ∧
      final.state = after ∧
      final.objects =
        snapshotsAfter rules (items.map ForkItem.block) db.objects ∧
      final.forkDb =
        forkAfter rules (items.map ForkItem.block) db.state db.forkDb ∧
      final.blockLog = storeAll idOf items db.blockLog := by
  induction items generalizing db with
  | nil =>
      cases applies
      exact ⟨db, rfl, rfl, rfl, rfl, rfl⟩
  | cons item items ih =>
      simp only [List.map_cons, applyAll] at applies
      split at applies
      · cases applies
      · rename_i next applied
        rcases applyAndStore_cases rules (idOf item) item.block db with
          ⟨middle, returns, isApplied⟩ | ⟨fault, middle, _, refused⟩
        · have stateEq : middle.state = next := by
            have both := isApplied.applies.symm.trans applied
            exact Except.ok.inj both
          rw [← stateEq] at applies
          obtain ⟨final, finalReturns, finalState, finalObjects,
            finalFork, finalLog⟩ := ih applies
          have objectsEq :
              middle.objects =
                ⟨next, db.state :: db.objects.saved.take db.objects.limit,
                  item.block.num - db.state.lastIrreversibleBlockNum + 1⟩ := by
            rw [← stateEq, ← isApplied.saved, ← isApplied.limit]
          refine ⟨final, ?_, finalState, ?_, ?_, ?_⟩
          · rw [forEach_cons, returns, Outcome.bind_ok]
            exact finalReturns
          · rw [finalObjects, objectsEq]
            simp only [List.map_cons, snapshotsAfter, applied]
          · rw [finalFork, isApplied.forkDb, stateEq]
            simp only [List.map_cons, forkAfter, applied]
          · rw [finalLog, isApplied.blockLog]
            rfl
        · exact absurd applied (refused.refused next)

/-- The loop over the new branch, past the blocks that apply. -/
theorem pushBranch_append (switch : Switch B) (bad : List (ForkItem B))
    {good : List (ForkItem B)} {middle : ChainDatabase B X}
    (applied :
      forEach
        (fun item : ForkItem B =>
          applyAndStore rules item.id item.block) good db = .ok middle) :
    pushBranch rules switch (good ++ bad) db =
      pushBranch rules switch bad middle := by
  induction good generalizing db with
  | nil =>
      simp only [forEach_nil, Outcome.ok.injEq] at applied
      rw [applied, List.nil_append]
  | cons item good ih =>
      obtain ⟨next, first, rest⟩ := Outcome.bind_eq_ok.mp applied
      simp only [List.cons_append, pushBranch, first]
      exact ih rest

/-- Either all blocks apply, or there is a first one that does not. -/
theorem applyAll_cases (rules : Rules B X) (items : List (ForkItem B))
    (state : ChainState B X) :
    (∃ after,
      applyAll rules (items.map ForkItem.block) state = some after) ∨
    ∃ good bad later reached, items = good ++ bad :: later ∧
      applyAll rules (good.map ForkItem.block) state = some reached ∧
      ∀ after, applyState rules bad.block reached ≠ .ok after := by
  induction items generalizing state with
  | nil => exact Or.inl ⟨state, rfl⟩
  | cons item items ih =>
      cases applied : applyState rules item.block state with
      | error fault =>
          refine Or.inr ⟨[], item, items, state, rfl, rfl, ?_⟩
          simp [applied]
      | ok next =>
          rcases ih next with
            ⟨after, applies⟩ | ⟨good, bad, later, reached, shape,
              applies, refused⟩
          · refine Or.inl ⟨after, ?_⟩
            simpa [applyAll, applied] using applies
          · refine Or.inr
              ⟨item :: good, bad, later, reached, by rw [shape]; rfl, ?_,
                refused⟩
            simpa [applyAll, applied] using applies

/-- After blocks that apply, the undo stack is a top part of the states passed
and the old stack; the state passed `count` blocks before the last is the one
after the others. -/
theorem snapshotsAfter_prefix {blocks : List (Block B)}
    {objects : Snapshots (ChainState B X)} {after : ChainState B X}
    (applies : applyAll rules blocks objects.current = some after) :
    (snapshotsAfter rules blocks objects).current = after ∧
    ∃ passed,
      passed.length = blocks.length ∧
      (∀ count ≤ blocks.length,
        (passed ++ [objects.current])[count]? =
          applyAll rules (blocks.take (blocks.length - count))
            objects.current) ∧
      after :: (snapshotsAfter rules blocks objects).saved <+:
        passed ++ objects.current :: objects.saved := by
  induction blocks generalizing objects with
  | nil =>
      cases applies
      refine ⟨rfl, [], rfl, ?_, List.prefix_refl _⟩
      intro count none
      obtain rfl : count = 0 := by simpa using none
      rfl
  | cons block later ih =>
      unfold applyAll at applies
      split at applies
      · cases applies
      · rename_i next applied
        have step :=
          @ih
            ⟨next, objects.current :: objects.saved.take objects.limit,
              block.num - objects.current.lastIrreversibleBlockNum + 1⟩
            applies
        obtain ⟨current, passed, length, states, isPrefix⟩ := step
        simp only [snapshotsAfter, applied]
        refine ⟨current, passed ++ [next], by simp [length], ?_, ?_⟩
        · intro count bound
          by_cases last : count = later.length + 1
          · subst last
            have whole : (passed ++ [next]).length = later.length + 1 := by
              simp [length]
            rw [List.getElem?_append_right (by omega), whole]
            simp [applyAll]
          · rw [List.length_cons] at bound ⊢
            have inside : count < (passed ++ [next]).length := by
              simp only [List.length_append, List.length_singleton,
                length]
              omega
            rw [List.getElem?_append_left inside,
              states count (by omega)]
            have more :
                later.length + 1 - count = later.length - count + 1 := by
              omega
            rw [more, List.take_succ_cons]
            simp only [applyAll, applied]
        · refine isPrefix.trans ?_
          rw [List.append_assoc, List.singleton_append]
          refine (List.prefix_append_right_inj passed).mpr ?_
          refine List.cons_prefix_cons.mpr ⟨rfl, ?_⟩
          exact List.cons_prefix_cons.mpr ⟨rfl, List.take_prefix _ _⟩

/-- The log has these blocks, each under its own number and id. -/
def LogHas (blocks : List (Block B)) (log : BlockLog B) : Prop :=
  ∀ block ∈ blocks, log block.num = some (block.id, block)

theorem LogHas.fetch {blocks : List (Block B)} {block : Block B}
    (has : LogHas blocks db.blockLog) (member : block ∈ blocks) :
    (fetchBlockById db block.id).isSome := by
  unfold fetchBlockById
  split
  · rfl
  · simp [BlockLog.fetchOptional, has block member]

theorem LogHas.store {newer older : List (Block B)} {block : Block B}
    {log : BlockLog B} (has : LogHas newer log)
    (linked : Linked (block :: (newer ++ older))) :
    LogHas (block :: newer) (log.store block.id block) := by
  intro other member
  rw [BlockLog.store_own]
  rcases List.mem_cons.mp member with same | inside
  · rw [same, if_pos rfl]
  · have below :=
      linked.2.num_le (List.mem_append_left older inside)
    have different : other.num ≠ block.num := by
      rw [linked.head_num]
      omega
    rw [if_neg different]
    exact has other inside

/-- Blocks applied in a row and stored under their own ids. -/
theorem forEach_own_log {items : List (ForkItem B)}
    {newer older : List (Block B)} {final : ChainDatabase B X}
    (ok : ObjectsOk known rules db.objects)
    (knownItems : ∀ item ∈ items, item.block ∈ known)
    (shape : db.state.history = newer ++ older) (has : LogHas newer db.blockLog)
    (returns :
      forEach
        (fun item : ForkItem B =>
          applyAndStore rules item.id item.block) items db = .ok final) :
    ObjectsOk known rules final.objects ∧
      final.state.history =
        (items.map ForkItem.block).reverse ++ newer ++ older ∧
      LogHas ((items.map ForkItem.block).reverse ++ newer)
        final.blockLog := by
  induction items generalizing db newer with
  | nil =>
      simp only [forEach_nil, Outcome.ok.injEq] at returns
      subst returns
      exact ⟨ok, shape, has⟩
  | cons item items ih =>
      obtain ⟨next, first, rest⟩ := Outcome.bind_eq_ok.mp returns
      rcases applyAndStore_cases rules item.id item.block db with
        ⟨middle, firstReturns, applied⟩ | ⟨fault, middle, throws, _⟩
      · obtain rfl : middle = next :=
          Outcome.ok.inj (firstReturns.symm.trans first)
        have okNext :=
          applied.objectsOk (knownItems item List.mem_cons_self) ok
        have history : middle.state.history =
            item.block :: newer ++ older := by
          rw [(applyState_extends applied.applies).history, shape]
          rfl
        have linked := okNext.current.linked
        rw [history] at linked
        have hasNext : LogHas (item.block :: newer) middle.blockLog := by
          rw [applied.blockLog]
          exact has.store linked
        obtain ⟨okFinal, historyFinal, hasFinal⟩ :=
          ih okNext
            (fun other member =>
              knownItems other (List.mem_cons_of_mem item member))
            history hasNext rest
        refine ⟨okFinal, ?_, ?_⟩
        · simpa using historyFinal
        · simpa using hasFinal
      · have impossible := throws.symm.trans first
        cases impossible

end Branch

/-- The fork database when the pops of the recovery begin. -/
def Switch.resetFork (switch : Switch B) (bad : List (ForkItem B))
    (fork : ForkDatabase B) : ForkDatabase B :=
  (bad.foldl (fun fork item => fork.remove switch.held item.id)
    fork).setHead switch.second.head?

theorem restoreBranch_eq (switch : Switch B) (bad : List (ForkItem B))
    (fault : ChainFault) (db : ChainDatabase B X) :
    restoreBranch rules switch bad fault db =
      (popTo switch.held switch.target
        { db with forkDb := switch.resetFork bad db.forkDb }).bind
        fun db =>
      (forEach
        (fun item : ForkItem B =>
          applyAndStore rules switch.newBlock.id item.block)
        switch.second.reverse db).bind fun db =>
      .throw fault db :=
  rfl

/-- The database when the pops of the recovery begin, after the blocks `good`
of the new branch applied and the first of `bad` did not. -/
def Switch.failed (rules : Rules B X) (switch : Switch B)
    (good bad : List (ForkItem B)) (db : ChainDatabase B X) :
    ChainDatabase B X :=
  let tried := (good ++ bad.take 1).map ForkItem.block
  { db with
    objects := snapshotsAfter rules tried db.objects
    forkDb :=
      switch.resetFork bad (forkAfter rules tried db.state db.forkDb) }

theorem getElem?_of_prefix {α : Type} {small large : List α} {n : Nat}
    {item : α} (isPrefix : small <+: large) (found : small[n]? = some item) :
    large[n]? = some item := by
  obtain ⟨rest, rfl⟩ := isPrefix
  have inside : n < small.length := by
    rw [List.getElem?_eq_some_iff] at found
    exact found.1
  rw [List.getElem?_append_left inside, found]

section Failed

variable {db below : ChainDatabase B X} {switch : Switch B}
  {good later : List (ForkItem B)} {bad : ForkItem B}
  {older : List (Block B)} {reached : ChainState B X}

theorem snapshotsAfter_append_refused {blocks : List (Block B)}
    {block : Block B} {objects : Snapshots (ChainState B X)}
    (applies : applyAll rules blocks objects.current = some reached)
    (refused : ∀ after, applyState rules block reached ≠ .ok after) :
    (snapshotsAfter rules (blocks ++ [block]) objects).saved =
      (snapshotsAfter rules blocks objects).saved.take
        (snapshotsAfter rules blocks objects).limit := by
  induction blocks generalizing objects with
  | nil =>
      cases applies
      cases stops : applyState rules block objects.current with
      | error fault => simp [snapshotsAfter, stops]
      | ok after => exact absurd stops (refused after)
  | cons first rest ih =>
      unfold applyAll at applies
      split at applies
      · cases applies
      · rename_i next applied
        simp only [List.cons_append, snapshotsAfter, applied]
        exact ih applies

theorem forkAfter_append_refused {blocks : List (Block B)}
    {block : Block B} {state : ChainState B X} {fork : ForkDatabase B}
    (applies : applyAll rules blocks state = some reached)
    (refused : ∀ after, applyState rules block reached ≠ .ok after) :
    forkAfter rules (blocks ++ [block]) state fork =
      sizedFork rules block reached (forkAfter rules blocks state fork) := by
  induction blocks generalizing state fork with
  | nil =>
      cases applies
      cases stops : applyState rules block reached with
      | error fault => simp [forkAfter, stops]
      | ok after => exact absurd stops (refused after)
  | cons first rest ih =>
      unfold applyAll at applies
      split at applies
      · cases applies
      · rename_i next applied
        simp only [List.cons_append, forkAfter, applied]
        exact ih applies

/-- A database at which the pops of a recovery begin, after the blocks `good` of
the new branch applied and `bad` did not. -/
structure Begins (known : Set (Block B)) (rules : Rules B X)
    (switch : Switch B) (good : List (ForkItem B)) (bad : List (ForkItem B))
    (older : List (Block B)) (below begins : ChainDatabase B X) : Prop where
  saved : begins.objects.saved = (switch.failed rules good bad below).objects.saved
  forkDb : begins.forkDb = (switch.failed rules good bad below).forkDb
  blockLog : begins.blockLog = storeAll ForkItem.id good below.blockLog
  ok : ObjectsOk known rules begins.objects
  history :
    begins.state.history = (good.map ForkItem.block).reverse ++ older
  fetches :
    ∀ block ∈ (good.map ForkItem.block).reverse,
      (fetchBlockById begins block.id).isSome
  stack :
    ∃ count,
      begins.objects.current :: begins.objects.saved =
        begins.state ::
          (snapshotsAfter rules (good.map ForkItem.block)
            below.objects).saved.take count

theorem Begins.canPop {bad : List (ForkItem B)} {begins : ChainDatabase B X}
    (first : Begins known rules switch good bad older below begins)
    (count : Nat) :
    CanPop switch.held count begins ↔
      CanPop switch.held count (switch.failed rules good bad below) := by
  rw [CanPop, CanPop, first.saved, first.forkDb]

theorem pushBranch_begins (ok : ObjectsOk known rules below.objects)
    (history : below.state.history = older)
    (knownGood : ∀ item ∈ good, item.block ∈ known)
    (applies :
      applyAll rules (good.map ForkItem.block) below.state = some reached)
    (refused : ∀ after, applyState rules bad.block reached ≠ .ok after) :
    ∃ fault begins,
      Begins known rules switch good (bad :: later) older below begins ∧
      begins.state = reached ∧
      pushBranch rules switch (good ++ bad :: later) below =
        (popTo switch.held switch.target begins).bind fun db =>
        (forEach
          (fun item : ForkItem B =>
            applyAndStore rules switch.newBlock.id item.block)
          switch.second.reverse db).bind fun db =>
        .throw fault db := by
  obtain ⟨middle, returns, middleState, middleObjects, middleFork,
      middleStores⟩ :=
    forEach_applyAndStore ForkItem.id applies
  obtain ⟨okMiddle, middleHistory, middleLog⟩ :=
    forEach_own_log ok knownGood
      (history.trans (List.nil_append older).symm)
      (by intro block member; cases member) returns
  rw [pushBranch_append switch _ returns]
  rcases applyAndStore_cases rules bad.id bad.block middle with
    ⟨after, _, applied⟩ | ⟨fault, tried, throws, isRefused⟩
  · exact absurd (middleState ▸ applied.applies) (refused after.state)
  · have stateEq : tried.state = reached :=
      isRefused.current.trans middleState
    refine ⟨fault,
      { tried with forkDb := switch.resetFork (bad :: later) tried.forkDb },
      ?_, stateEq, ?_⟩
    · refine
        { saved := ?_
          forkDb := ?_
          blockLog := isRefused.blockLog.trans middleStores
          ok := isRefused.objectsOk okMiddle
          history := ?_
          fetches := ?_
          stack := ⟨middle.objects.limit, ?_⟩ }
      · simp only [Switch.failed, List.take_succ_cons, List.take_zero,
          List.map_append, List.map_cons, List.map_nil,
          snapshotsAfter_append_refused applies refused]
        rw [← middleObjects]
        exact isRefused.saved
      · simp only [Switch.failed, List.take_succ_cons, List.take_zero,
          List.map_append, List.map_cons, List.map_nil,
          forkAfter_append_refused applies refused]
        rw [isRefused.forkDb, middleState, middleFork]
      · have same : tried.state.history = middle.state.history :=
          congrArg ChainState.history isRefused.current
        rw [List.append_nil] at middleHistory
        exact same.trans middleHistory
      · rw [List.append_nil, ← isRefused.blockLog] at middleLog
        exact fun block member => LogHas.fetch middleLog member
      · rw [← middleObjects]
        exact congrArg (tried.objects.current :: ·) isRefused.saved
    · simp only [pushBranch, throws]
      rfl

/-- The states passed, as far as the undo stack still has them. -/
theorem Begins.stateAt {bad : List (ForkItem B)}
    {begins left : ChainDatabase B X} {count : Nat}
    (first : Begins known rules switch good bad older below begins)
    (applies :
      applyAll rules (good.map ForkItem.block) below.state =
        some begins.state)
    (bound : count ≤ good.length)
    (dropped :
      left.objects.current :: left.objects.saved =
        (begins.objects.current :: begins.objects.saved).drop count) :
    applyAll rules ((good.map ForkItem.block).take (good.length - count))
        below.state =
      some left.state := by
  obtain ⟨_, passed, passedLength, states, isPrefix⟩ :=
    snapshotsAfter_prefix applies
  obtain ⟨limit, stack⟩ := first.stack
  have stackPrefix :
      begins.objects.current :: begins.objects.saved <+:
        passed ++ below.objects.current :: below.objects.saved := by
    rw [stack]
    exact (List.cons_prefix_cons.mpr
      ⟨rfl, List.take_prefix _ _⟩).trans isPrefix
  have isThere :
      (passed ++ below.objects.current ::
        below.objects.saved)[count]? = some left.state := by
    refine getElem?_of_prefix stackPrefix ?_
    have head :
        ((begins.objects.current :: begins.objects.saved).drop
          count)[0]? = some left.state := by
      rw [← dropped]
      rfl
    simpa [List.getElem?_drop] using head
  have inside : count < (passed ++ [below.objects.current]).length := by
    rw [List.length_append, passedLength, List.length_map,
      List.length_singleton]
    omega
  rw [List.append_cons, List.getElem?_append_left inside,
    states count (by simpa using bound)] at isThere
  simpa using isThere

/-- How a failed switch ends, from the database with the old branch popped:
with the old branch restored, or stuck on blocks of the new one. -/
theorem pushBranch_failed {restored : ChainState B X}
    (ok : ObjectsOk known rules below.objects)
    (history : below.state.history = older)
    (target : switch.target = lastId older)
    (knownGood : ∀ item ∈ good, item.block ∈ known)
    (applies :
      applyAll rules (good.map ForkItem.block) below.state =
        some reached)
    (refused : ∀ after, applyState rules bad.block reached ≠ .ok after)
    (replays :
      applyAll rules (switch.second.reverse.map ForkItem.block)
        below.state = some restored) :
    (CanPop switch.held good.length
        (switch.failed rules good (bad :: later) below) ∧
      ∃ fault final,
        pushBranch rules switch (good ++ bad :: later) below =
          .throw fault final ∧
        final.state = restored ∧
        final.blockLog =
          storeAll (fun _ => switch.newBlock.id) switch.second.reverse
            (storeAll ForkItem.id good below.blockLog)) ∨
    (∃ count < good.length,
      CanPop switch.held count
        (switch.failed rules good (bad :: later) below) ∧
      ¬ CanPop switch.held (count + 1)
        (switch.failed rules good (bad :: later) below) ∧
      ∃ fault final,
        pushBranch rules switch (good ++ bad :: later) below =
          .throw fault final ∧
        applyAll rules
          ((good.map ForkItem.block).take (good.length - count))
          below.state = some final.state ∧
        final.blockLog = storeAll ForkItem.id good below.blockLog) := by
  obtain ⟨fault, begins, first, isReached, unfolded⟩ :=
    @pushBranch_begins _ _ _ _ below switch good later bad older reached ok
      history knownGood applies refused
  rw [← isReached] at applies
  rw [unfolded]
  rcases popUntil_spec switch.held first.ok first.history first.fetches
      (Nat.lt_succ_self begins.objects.saved.length) with
    ⟨popped, pops, isPopped⟩ |
    ⟨count, stuckFault, left, pops, fewer, stuck, able, dropped, log⟩
  · left
    rw [List.length_reverse, List.length_map] at isPopped
    refine ⟨(first.canPop _).mp isPopped.canPop, ?_⟩
    have back : popped.state = below.state := by
      have whole := first.stateAt applies (Nat.le_refl _) isPopped.objects
      simp only [Nat.sub_self, List.take_zero, applyAll,
        Option.some.injEq] at whole
      exact whole.symm
    obtain ⟨final, reapplied, finalState, _, _, finalLog⟩ :=
      forEach_applyAndStore (fun _ => switch.newBlock.id)
        (back ▸ replays)
    refine ⟨fault, final, ?_, finalState, ?_⟩
    · rw [popTo, target, pops, Outcome.bind_ok, reapplied, Outcome.bind_ok]
    · rw [finalLog, isPopped.blockLog, first.blockLog]
  · right
    rw [List.length_reverse, List.length_map] at fewer
    refine ⟨count, fewer, (first.canPop count).mp able,
      fun more => stuck ((first.canPop _).mpr more), stuckFault, left, ?_,
      first.stateAt applies (Nat.le_of_lt fewer) dropped,
      log.trans first.blockLog⟩
    rw [popTo, target, pops, Outcome.bind_throw]

end Failed

section Switching

variable {db : ChainDatabase B X} {newHead : ForkItem B}
  {first second : List (ForkItem B)}

theorem second_fetches (ok : DatabaseOk known rules db)
    (isHead : db.forkDb.head = some newHead)
    (higher : db.headBlockNum < newHead.num)
    (found :
      db.forkDb.fetchBranchFrom newHead.id db.headBlockId =
        some (first, second)) :
    ∀ block ∈ second.map ForkItem.block,
      (fetchBlockById db block.id).isSome := by
  obtain ⟨branches, _, secondItem, _, secondHead, secondIs⟩ :=
    ForkDatabase.fetchBranchFrom_spec ok.items (List.Subset.refl _) found
  intro block member
  obtain ⟨item, inSecond, rfl⟩ := List.mem_map.mp member
  have low : item.num ≤ secondItem.num :=
    branches.secondChain.num_le_head secondHead inSecond
  have secondNum : secondItem.num = db.headBlockNum := by
    have numbers := congrArg BlockId.num secondIs
    rw [ok.objects.headBlockId_eq,
      ok.objects.current.linked.lastId_num] at numbers
    rw [ok.objects.headBlockNum_eq]
    exact numbers
  have inIndex : item ∈ db.forkDb.index := by
    rcases ForkDatabase.mem_items.mp (branches.secondIn inSecond) with
      top | inside
    · rw [isHead, Option.some.injEq] at top
      rw [← top] at low
      omega
    · exact inside
  obtain ⟨found, isFound⟩ :=
    Option.isSome_iff_exists.mp
      (ForkDatabase.find_isSome inIndex rfl)
  have fetched : db.forkDb.find item.block.id = some found := isFound
  simp [fetchBlockById, fetched]

/-- The database with the old branch popped. -/
structure ForkPoint (known : Set (Block B)) (rules : Rules B X)
    (switch : Switch B) (older : List (Block B))
    (db below : ChainDatabase B X) : Prop where
  objects : ObjectsOk known rules below.objects
  history : below.state.history = older
  popped : Popped switch.held switch.second.length db below
  replays :
    applyAll rules (switch.second.reverse.map ForkItem.block)
      below.state = some db.state
  switchOk : SwitchOk known db.forkDb.items older switch

/-- A switch either reaches the fork point and goes on to the new branch, or it
gets stuck on the old one. -/
theorem switchForks_cases (newBlock : Block B) (free : CollisionFree known)
    (ok : DatabaseOk known rules db) (isHead : db.forkDb.head = some newHead)
    (higher : db.headBlockNum < newHead.num)
    (found :
      db.forkDb.fetchBranchFrom newHead.id db.headBlockId =
        some (first, second)) :
    ∃ older switch,
      switch = (⟨newBlock, newHead, first, second⟩ : Switch B) ∧
      db.state.history = switch.second.map ForkItem.block ++ older ∧
      ((∃ below,
        ForkPoint known rules switch older db below ∧
        switchForks rules newBlock newHead db =
          pushBranch rules switch switch.first.reverse below) ∨
      (∃ count fault left,
        switchForks rules newBlock newHead db = .throw fault left ∧
        count < switch.second.length ∧
        ¬ CanPop switch.held (count + 1) db ∧
        CanPop switch.held count db ∧
        left.objects.current :: left.objects.saved =
          (db.objects.current :: db.objects.saved).drop count ∧
        left.blockLog = db.blockLog)) := by
  obtain ⟨older, shape, switchOk⟩ :=
    switch_branches newBlock free ok isHead found
  generalize switchEq :
    (⟨newBlock, newHead, first, second⟩ : Switch B) = switch at switchOk
  have firstEq : switch.first = first := by rw [← switchEq]
  have secondEq : switch.second = second := by rw [← switchEq]
  have unfolded :
      switchForks rules newBlock newHead db =
        (popTo switch.held switch.target db).bind
          (pushBranch rules switch switch.first.reverse) := by
    simp only [switchForks, found, switchEq, firstEq]
  have lengthEq :
      (second.map ForkItem.block).length = switch.second.length := by
    rw [secondEq, List.length_map]
  have pops :=
    popUntil_spec switch.held ok.objects shape
      (second_fetches ok isHead higher found)
      (Nat.lt_succ_self db.objects.saved.length)
  rw [lengthEq] at pops
  refine ⟨older, switch, rfl, by rw [secondEq]; exact shape, ?_⟩
  rw [unfolded, popTo, switchOk.target]
  rcases pops with ⟨below, returns, popped⟩ |
    ⟨count, fault, left, throws, fewer, stuck, able, dropped, log⟩
  · left
    refine ⟨below, ?_, by rw [returns, Outcome.bind_ok]⟩
    have isThere :
        (db.objects.current :: db.objects.saved)[
          (second.map ForkItem.block).length]? = some below.state := by
      have head :
          ((db.objects.current :: db.objects.saved).drop
            switch.second.length)[0]? = some below.state := by
        rw [← popped.objects]
        rfl
      rw [lengthEq]
      simpa [List.getElem?_drop] using head
    obtain ⟨history, replays⟩ :=
      ok.objects.applyAll_below shape isThere
    have okBelow : ObjectsOk known rules below.objects := by
      have begins :
          Amid known rules db.forkDb.items db.forkDb.nextAddress older
            db :=
        { objects := ok.objects
          above := by
            rw [shape]
            exact List.suffix_append _ _
          items := List.Subset.refl _
          next := rfl }
      have amid :=
        begins.popUntil (db.objects.saved.length + 1) switchOk.held
      rw [returns] at amid
      exact amid.objects
    exact
      { objects := okBelow
        history := history
        popped := popped
        replays := by
          rw [secondEq, List.map_reverse]
          exact replays
        switchOk := switchOk }
  · right
    exact
      ⟨count, fault, left, by rw [throws, Outcome.bind_throw], fewer,
        stuck, able, dropped, log⟩

end Switching

end GxbCore.Chain
