import GxbCore.Chain.Branches
import GxbCore.Chain.ChainInvariant

/-!
# A fork switch never goes below the block where its branches meet

`Amid` is what holds at every moment of a switch, whichever of its calls
throws: the chain of blocks below the meeting point is still there, and the
fork database holds only items it held when the switch began.
-/

namespace GxbCore.Chain

variable {B X : Type} {rules : Rules B X} {known : Set (Block B)}

/-- The invariant between two pushes. -/
structure DatabaseOk (known : Set (Block B)) (rules : Rules B X)
    (db : ChainDatabase B X) : Prop where
  objects : ObjectsOk known rules db.objects
  items : ItemsOk known db.forkDb.nextAddress db.forkDb.items

/-- The invariant in the middle of a push: the chain ends in `older`. -/
structure Amid (known : Set (Block B)) (rules : Rules B X)
    (pool : List (ForkItem B)) (next : Nat) (older : List (Block B))
    (db : ChainDatabase B X) : Prop where
  objects : ObjectsOk known rules db.objects
  above : older <:+ db.state.history
  items : db.forkDb.items ⊆ pool
  next : db.forkDb.nextAddress = next

section Amid

variable {pool held : List (ForkItem B)} {next : Nat}
  {older : List (Block B)} {db after : ChainDatabase B X}

theorem sizedFork_items (rules : Rules B X) (block : Block B)
    (state : ChainState B X) (fork : ForkDatabase B) :
    (sizedFork rules block state fork).items ⊆ fork.items ∧
      (sizedFork rules block state fork).nextAddress =
        fork.nextAddress := by
  unfold sizedFork
  split
  · exact ⟨List.Subset.refl _, rfl⟩
  · exact
      ⟨ForkDatabase.setMaxSize_items_subset _,
        ForkDatabase.setMaxSize_nextAddress _⟩

theorem Amid.applyAndStore {block : Block B}
    (amid : Amid known rules pool next older db)
    (id : BlockId) (isKnown : block ∈ known) :
    Amid known rules pool next older
      (applyAndStore rules id block db).state := by
  rcases applyAndStore_cases rules id block db with
    ⟨after, returns, applied⟩ | ⟨fault, after, throws, refused⟩
  · rw [returns]
    have extended := applyState_extends applied.applies
    have fork := sizedFork_items rules block db.state db.forkDb
    rw [← applied.forkDb] at fork
    exact
      { objects := applied.objectsOk isKnown amid.objects
        above := by
          rw [Outcome.state_ok, extended.history]
          exact amid.above.trans (List.suffix_cons _ _)
        items := List.Subset.trans fork.1 amid.items
        next := fork.2.trans amid.next }
  · rw [throws]
    have fork := sizedFork_items rules block db.state db.forkDb
    rw [← refused.forkDb] at fork
    exact
      { objects := refused.objectsOk amid.objects
        above := by
          rw [Outcome.state_throw, refused.current]
          exact amid.above
        items := List.Subset.trans fork.1 amid.items
        next := fork.2.trans amid.next }

/-- What `pop_block` leaves: one block less, or an exception and the object
state as it was. -/
theorem popBlock_cases (held : List (ForkItem B)) (db : ChainDatabase B X) :
    (∃ fork objects, popBlock held db =
        .ok { db with forkDb := fork, objects := objects } ∧
      db.forkDb.popBlock held = .ok fork ∧
      db.objects.restore = some objects) ∨
    (∃ fault fork, popBlock held db =
        .throw fault { db with forkDb := fork } ∧
      (fork = db.forkDb ∨ db.forkDb.popBlock held = .ok fork)) := by
  unfold popBlock
  split
  · exact Or.inr ⟨_, db.forkDb, rfl, Or.inl rfl⟩
  · split
    · exact Or.inr ⟨_, db.forkDb, rfl, Or.inl rfl⟩
    · rename_i fork popped
      simp only
      split
      · exact Or.inr ⟨_, fork, rfl, Or.inr popped⟩
      · rename_i objects restored
        exact Or.inl ⟨fork, objects, rfl, popped, restored⟩

theorem popBlock_fork_next {fork : ForkDatabase B}
    (popped : db.forkDb.popBlock held = .ok fork) :
    fork.nextAddress = db.forkDb.nextAddress := by
  obtain ⟨_, _, _, _, rfl⟩ := ForkDatabase.popBlock_eq_ok popped
  rfl

theorem Amid.popBlock (amid : Amid known rules pool next older db)
    (heldInside : held ⊆ pool) (notThere : db.headBlockId ≠ lastId older) :
    Amid known rules pool next older (popBlock held db).state := by
  have forkInside :
      ∀ fork, db.forkDb.popBlock held = .ok fork → fork.items ⊆ pool :=
    fun fork popped =>
      List.Subset.trans (ForkDatabase.popBlock_items_subset popped)
        (List.append_subset.mpr ⟨amid.items, heldInside⟩)
  rcases popBlock_cases held db with
    ⟨fork, objects, returns, popped, restored⟩ |
    ⟨fault, fork, throws, forkCase⟩
  · rw [returns]
    obtain ⟨ok, block, applies⟩ := amid.objects.restore restored
    have extended := applyState_extends applies
    have stillAbove : older <:+ objects.current.history := by
      have above := amid.above
      have shape : db.state.history = block :: objects.current.history :=
        extended.history
      rw [shape, List.suffix_cons_iff] at above
      rcases above with same | smaller
      · exfalso
        apply notThere
        rw [same, ← shape]
        exact amid.objects.headBlockId_eq
      · exact smaller
    exact
      { objects := ok
        above := stillAbove
        items := forkInside fork popped
        next := (popBlock_fork_next popped).trans amid.next }
  · rw [throws]
    rcases forkCase with same | popped
    · rw [same]
      exact { amid with }
    · exact
        { objects := amid.objects
          above := amid.above
          items := forkInside fork popped
          next := (popBlock_fork_next popped).trans amid.next }

theorem Amid.popUntil (fuel : Nat) (amid : Amid known rules pool next older db)
    (heldInside : held ⊆ pool) :
    Amid known rules pool next older
      (popUntil held (lastId older) fuel db).state := by
  induction fuel generalizing db with
  | zero => exact amid
  | succ fuel ih =>
      unfold Chain.popUntil
      split
      · rename_i notThere
        refine Outcome.bind_state_keeps
          (amid.popBlock heldInside notThere) ?_
        intro middle _ amidMiddle
        exact ih amidMiddle
      · exact amid

theorem foldl_remove_items (bad : List (ForkItem B)) (heldInside : held ⊆ pool)
    {fork : ForkDatabase B} (inside : fork.items ⊆ pool) :
    (bad.foldl (fun fork item => fork.remove held item.id) fork).items ⊆
        pool ∧
      (bad.foldl (fun fork item => fork.remove held item.id)
          fork).nextAddress = fork.nextAddress := by
  induction bad generalizing fork with
  | nil => exact ⟨inside, rfl⟩
  | cons item bad ih =>
      have removed : (fork.remove held item.id).items ⊆ pool :=
        List.Subset.trans (ForkDatabase.remove_items_subset item.id)
          (List.append_subset.mpr ⟨inside, heldInside⟩)
      obtain ⟨items, next⟩ := ih removed
      exact
        ⟨items, next.trans (ForkDatabase.remove_nextAddress item.id)⟩

structure SwitchOk (known : Set (Block B)) (pool : List (ForkItem B))
    (older : List (Block B)) (switch : Switch B) : Prop where
  held : switch.held ⊆ pool
  known : ∀ item ∈ pool, item.block ∈ known
  target : switch.target = lastId older

variable {switch : Switch B}

theorem SwitchOk.first_subset (ok : SwitchOk known pool older switch) :
    switch.first ⊆ pool :=
  fun _ member => ok.held (by simp [Switch.held, member])

theorem SwitchOk.second_subset (ok : SwitchOk known pool older switch) :
    switch.second ⊆ pool :=
  fun _ member => ok.held (by simp [Switch.held, member])

theorem Amid.restoreBranch (bad : List (ForkItem B)) (fault : ChainFault)
    (amid : Amid known rules pool next older db)
    (ok : SwitchOk known pool older switch) :
    Amid known rules pool next older
      (restoreBranch rules switch bad fault db).state := by
  have removed := foldl_remove_items bad ok.held amid.items
  have headReset :
      Amid known rules pool next older
        { db with
          forkDb :=
            ForkDatabase.setHead switch.second.head?
              (bad.foldl
                (fun fork item => fork.remove switch.held item.id)
                db.forkDb) } :=
    { objects := amid.objects
      above := amid.above
      items := by
        intro item member
        rcases ForkDatabase.mem_items.mp member with isHead | inIndex
        · exact ok.second_subset (List.mem_of_head? isHead)
        · exact removed.1
            (ForkDatabase.mem_items.mpr (Or.inr inIndex))
      next := removed.2.trans amid.next }
  unfold Chain.restoreBranch
  refine Outcome.bind_state_keeps ?_ ?_
  · rw [popTo, ok.target]
    exact headReset.popUntil _ ok.held
  · intro popped _ amidPopped
    refine Outcome.bind_state_keeps ?_ ?_
    · refine forEach_state_keeps ?_ amidPopped
      intro item member before amidBefore
      exact amidBefore.applyAndStore _
        (ok.known item
          (ok.second_subset (List.mem_reverse.mp member)))
    · intro restored _ amidRestored
      exact amidRestored

theorem Amid.pushBranch {branch : List (ForkItem B)}
    (amid : Amid known rules pool next older db)
    (ok : SwitchOk known pool older switch) (inside : branch ⊆ pool) :
    Amid known rules pool next older
      (pushBranch rules switch branch db).state := by
  induction branch generalizing db with
  | nil => exact amid
  | cons item later ih =>
      have itemKnown := ok.known item (inside List.mem_cons_self)
      have stepped := amid.applyAndStore item.id itemKnown
      unfold Chain.pushBranch
      split
      · rename_i middle returns
        rw [returns] at stepped
        exact ih stepped
          (fun other member =>
            inside (List.mem_cons_of_mem item member))
      · rename_i fault middle throws
        rw [throws] at stepped
        exact stepped.restoreBranch (item :: later) fault ok

end Amid

variable {db : ChainDatabase B X} {newBlock : Block B}
  {newHead : ForkItem B} {first second : List (ForkItem B)}

/-- The old branch is the top of the main chain, and the switch aims at the
block below it. -/
theorem switch_branches (newBlock : Block B) (free : CollisionFree known)
    (ok : DatabaseOk known rules db) (isHead : db.forkDb.head = some newHead)
    (found :
      db.forkDb.fetchBranchFrom newHead.id db.headBlockId =
        some (first, second)) :
    ∃ older,
      db.state.history = second.map ForkItem.block ++ older ∧
      SwitchOk known db.forkDb.items older
        ⟨newBlock, newHead, first, second⟩ := by
  obtain ⟨branches, _, secondItem, _, secondHead, secondIs⟩ :=
    ForkDatabase.fetchBranchFrom_spec ok.items (List.Subset.refl _) found
  obtain ⟨tail, rfl⟩ : ∃ tail, second = secondItem :: tail := by
    cases second with
    | nil => cases secondHead
    | cons head tail =>
        simp only [List.head?_cons, Option.some.injEq] at secondHead
        exact ⟨tail, by rw [secondHead]⟩
  have current := ok.objects.current
  obtain ⟨older, shape, ends⟩ :=
    branches.secondChain.top_of_history free
      (fun item member => ok.items.known item (branches.secondIn member))
      current.linked current.known (secondIs.trans current.headId)
  refine
    ⟨older, shape,
      { held := ?_
        known := ok.items.known
        target := ?_ }⟩
  · intro item member
    simp only [Switch.held, List.mem_cons, List.mem_append] at member
    rcases member with isNew | inFirst | inSecond
    · rw [isNew]
      exact ForkDatabase.mem_items.mpr (Or.inl isHead)
    · exact branches.firstIn inFirst
    · exact branches.secondIn (by simpa using inSecond)
  · obtain ⟨_, secondLast, _, secondEnds, _⟩ := branches.meets
    simp only [Switch.target, secondEnds]
    exact ends secondLast secondEnds

/-- The main chain below the branches of a switch, or all of it when they do not
meet. -/
def belowSwitch (newHead : ForkItem B) (db : ChainDatabase B X) :
    List (Block B) :=
  match db.forkDb.fetchBranchFrom newHead.id db.headBlockId with
  | none => db.state.history
  | some branches => db.state.history.drop branches.2.length

theorem belowSwitch_of_none
    (missing : db.forkDb.fetchBranchFrom newHead.id db.headBlockId = none) :
    belowSwitch newHead db = db.state.history := by
  simp only [belowSwitch, missing]

theorem belowSwitch_of_some {older : List (Block B)}
    (found :
      db.forkDb.fetchBranchFrom newHead.id db.headBlockId =
        some (first, second))
    (shape : db.state.history = second.map ForkItem.block ++ older) :
    belowSwitch newHead db = older := by
  simp only [belowSwitch, found]
  rw [shape, ← List.length_map ForkItem.block]
  exact List.drop_left

/-- A switch, whether it returns or throws, leaves the chain below the meeting
point alone. -/
theorem switchForks_keeps (newBlock : Block B) (free : CollisionFree known)
    (ok : DatabaseOk known rules db) (isHead : db.forkDb.head = some newHead) :
    Amid known rules db.forkDb.items db.forkDb.nextAddress
      (belowSwitch newHead db)
      (switchForks rules newBlock newHead db).state := by
  unfold switchForks
  cases found :
      db.forkDb.fetchBranchFrom newHead.id db.headBlockId with
  | none =>
      rw [belowSwitch_of_none found]
      exact
        { objects := ok.objects
          above := List.suffix_refl _
          items := List.Subset.refl _
          next := rfl }
  | some branches =>
      obtain ⟨first, second⟩ := branches
      obtain ⟨older, shape, switchOk⟩ :=
        switch_branches newBlock free ok isHead found
      have begins :
          Amid known rules db.forkDb.items db.forkDb.nextAddress older
            db :=
        { objects := ok.objects
          above := by
            rw [shape]
            exact List.suffix_append _ _
          items := List.Subset.refl _
          next := rfl }
      rw [belowSwitch_of_some found shape]
      refine Outcome.bind_state_keeps ?_ ?_
      · rw [popTo, switchOk.target]
        exact begins.popUntil _ switchOk.held
      · intro popped _ amidPopped
        exact amidPopped.pushBranch switchOk
          (fun item member =>
            switchOk.first_subset (List.mem_reverse.mp member))

end GxbCore.Chain
