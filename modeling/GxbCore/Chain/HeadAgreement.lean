import GxbCore.Chain.ForkRecovery

/-!
# The head of the fork database and the head of the chain

`pop_block` moves the head of the fork database down from wherever it is.  In a
fork switch it is at the new block when the old branch is popped, and nothing
moves it back up when the new branch is applied; so every switch that succeeds
leaves the two heads apart, and so does one that fails after it applied a
block.

The heads agree along every run in which blocks extend the chain, or wait on a
branch that is not longer, or start a switch that is turned back at its first
block.
-/

namespace GxbCore.Chain

variable {B X : Type} {rules : Rules B X} {known : Set (Block B)}

/-- The head item of the fork database is the head block of the chain; it is
null before the first block. -/
def HeadsAgree (db : ChainDatabase B X) : Prop :=
  match db.forkDb.head with
  | none => db.headBlockId = .zero
  | some item => item.id = db.headBlockId

/-- The push starts a switch, the old branch can be popped, and the lowest block
of the new branch does not apply. -/
structure TurnsBack (rules : Rules B X) (db : ChainDatabase B X)
    (newBlock : Block B) (fork : ForkDatabase B) (newHead : ForkItem B)
    (first second : List (ForkItem B)) (below : ChainState B X)
    (lowest : ForkItem B) : Prop where
  attempts : Attempts db newBlock fork newHead
  found :
    fork.fetchBranchFrom newHead.id db.headBlockId = some (first, second)
  pops :
    CanPop (Switch.held ⟨newBlock, newHead, first, second⟩)
      second.length { db with forkDb := fork }
  isBelow : (db.state :: db.objects.saved)[second.length]? = some below
  isLowest : first.getLast? = some lowest
  refused : ∀ after, applyState rules lowest.block below ≠ .ok after

/-- The pushes after which the heads still agree. -/
inductive KeepsHeads (rules : Rules B X) (db : ChainDatabase B X) :
    Bool → Block B → Prop
  | builds {newBlock : Block B}
      (onHead : newBlock.previous = db.headBlockId) :
      KeepsHeads rules db false newBlock
  | low {newBlock : Block B} (notHigher : newBlock.num ≤ db.headBlockNum) :
      KeepsHeads rules db false newBlock
  | refused {newBlock : Block B} {fault : ChainFault}
      {left : ForkDatabase B}
      (refuses : db.forkDb.pushBlock newBlock = .throw fault left) :
      KeepsHeads rules db false newBlock
  | turnsBack {newBlock : Block B} {fork : ForkDatabase B}
      {newHead : ForkItem B} {first second : List (ForkItem B)}
      {below : ChainState B X} {lowest : ForkItem B}
      (turns :
        TurnsBack rules db newBlock fork newHead first second below
          lowest) :
      KeepsHeads rules db false newBlock
  | skipped {newBlock : Block B}
      (doesNotApply :
        ∀ after, applyState rules newBlock db.state ≠ .ok after)
      (another : newBlock.id ≠ db.headBlockId) :
      KeepsHeads rules db true newBlock

section Sizes

variable {fork : ForkDatabase B} {held : List (ForkItem B)}

theorem ForkDatabase.insertItem_maxSize (item : ForkItem B) :
    (fork.insertItem item).maxSize = fork.maxSize := by
  unfold ForkDatabase.insertItem
  simp only
  split
  · rfl
  · split
    · rfl
    · rfl

theorem ForkDatabase.remove_maxSize (id : BlockId) :
    (fork.remove held id).maxSize = fork.maxSize := by
  unfold ForkDatabase.remove
  simp only
  split
  · rfl
  · split
    · split
      · rename_i popped returns
        obtain ⟨_, _, _, _, rfl⟩ := ForkDatabase.popBlock_eq_ok returns
        rfl
      · rename_i fault left throws
        rw [ForkDatabase.popBlock_throw throws]
        rfl
    · rfl

theorem ForkDatabase.setMaxSize_maxSize (size : Nat) :
    (fork.setMaxSize size).maxSize = size := by
  unfold ForkDatabase.setMaxSize
  simp only
  split
  · rfl
  · rfl

theorem sizedFork_maxSize_pos (block : Block B) (state : ChainState B X)
    (sized : 0 < fork.maxSize) :
    0 < (sizedFork rules block state fork).maxSize := by
  unfold sizedFork
  split
  · exact sized
  · rw [ForkDatabase.setMaxSize_maxSize]
    exact Nat.succ_pos _

theorem sizedFork_head (block : Block B) (state : ChainState B X) :
    (sizedFork rules block state fork).head = fork.head := by
  unfold sizedFork
  split
  · rfl
  · exact ForkDatabase.setMaxSize_head _

theorem forkAfter_keeps (blocks : List (Block B)) (state : ChainState B X)
    (sized : 0 < fork.maxSize) :
    (forkAfter rules blocks state fork).head = fork.head ∧
      0 < (forkAfter rules blocks state fork).maxSize := by
  induction blocks generalizing state fork with
  | nil => exact ⟨rfl, sized⟩
  | cons block later ih =>
      have stepSized :=
        @sizedFork_maxSize_pos B X rules fork block state sized
      have stepHead := @sizedFork_head B X rules fork block state
      unfold forkAfter
      split
      · exact ⟨stepHead, stepSized⟩
      · rename_i next applied
        obtain ⟨head, size⟩ := ih next stepSized
        exact ⟨head.trans stepHead, size⟩

theorem foldl_remove_maxSize (bad : List (ForkItem B)) :
    (bad.foldl (fun fork item => fork.remove held item.id)
      fork).maxSize = fork.maxSize := by
  induction bad generalizing fork with
  | nil => rfl
  | cons item bad ih =>
      rw [List.foldl_cons, ih,
        ForkDatabase.remove_maxSize]

end Sizes

section Removing

variable {fork : ForkDatabase B} {item parent : ForkItem B}

theorem ForkDatabase.remove_head {next : Nat} {pool : List (ForkItem B)}
    (ok : ItemsOk known next pool) (inside : fork.items ⊆ pool)
    (isHead : fork.head = some item) (pointer : item.prev = some parent.address)
    (member : parent ∈ fork.index) (another : parent.id ≠ item.id) :
    (fork.remove [] item.id).head = some parent := by
  have erasedHead : (fork.erase item.id).head = some item := isHead
  have parentIn : parent ∈ (fork.erase item.id).items ++ [] := by
    rw [List.append_nil]
    refine ForkDatabase.mem_items.mpr (Or.inr ?_)
    exact List.mem_filter.mpr ⟨member, by simpa using another⟩
  have locked : (fork.erase item.id).lock [] item = some parent := by
    refine ForkDatabase.lock_of_mem ok ?_ parentIn pointer
    rw [List.append_nil]
    exact List.Subset.trans (ForkDatabase.erase_items_subset _) inside
  simp only [ForkDatabase.remove, erasedHead, ForkDatabase.popBlock,
    locked, if_true]

theorem ForkDatabase.remove_root (isHead : fork.head = some item)
    (root : item.prev = none) : (fork.remove [] item.id).head = none := by
  have erasedHead : (fork.erase item.id).head = some item := isHead
  have locked : (fork.erase item.id).lock [] item = none := by
    simp only [ForkDatabase.lock, root]
  simp only [ForkDatabase.remove, erasedHead, ForkDatabase.popBlock,
    locked, if_true]

theorem ForkDatabase.remove_other {id : BlockId}
    (other : ∀ head, fork.head = some head → head.id ≠ id) :
    (fork.remove [] id).head = fork.head := by
  unfold ForkDatabase.remove
  cases isHead : fork.head with
  | none =>
      have erased : (fork.erase id).head = none := isHead
      simp only [erased]
  | some head =>
      have erased : (fork.erase id).head = some head := isHead
      simp only [erased, if_neg (other head isHead)]

theorem ForkDatabase.mem_prune {least : Nat}
    (member : item ∈ fork.index) (high : least ≤ item.num) :
    item ∈ (fork.prune least).index :=
  List.mem_filter.mpr ⟨member, by simpa using high⟩

/-- The item just below a new head survives the pruning. -/
theorem ForkDatabase.mem_insertItem (member : parent ∈ fork.index)
    (below : item.num = parent.num + 1) (sized : 0 < fork.maxSize) :
    parent ∈ (fork.insertItem item).index := by
  unfold ForkDatabase.insertItem
  simp only
  have kept :
      parent ∈
        if (fork.find item.id).isSome then fork.index
        else item :: fork.index := by
    split
    · exact member
    · exact List.mem_cons_of_mem item member
  split
  · exact kept
  · split
    · exact List.mem_filter.mpr
        ⟨kept, by simp only [decide_eq_true_eq]; omega⟩
    · exact kept

theorem mem_sizedFork {block : Block B} {state : ChainState B X}
    (isHead : fork.head = some item) (member : parent ∈ fork.index)
    (below : item.num ≤ parent.num + 1) :
    parent ∈ (sizedFork rules block state fork).index := by
  unfold sizedFork
  split
  · exact member
  · rename_i begun _
    simp only [ForkDatabase.setMaxSize, isHead]
    refine ForkDatabase.mem_prune member ?_
    have size : 0 < forkMaxSize begun fork := Nat.succ_pos _
    omega

end Removing

/-- What is carried along a run. -/
structure HeadsOk (db : ChainDatabase B X) : Prop where
  agree : HeadsAgree db
  sized : 0 < db.forkDb.maxSize

section Steps

variable {db : ChainDatabase B X} {newBlock : Block B}
  {fork : ForkDatabase B} {newHead head : ForkItem B}

theorem HeadsAgree.of_some (isHead : db.forkDb.head = some head) :
    HeadsAgree db ↔ head.id = db.headBlockId := by
  simp only [HeadsAgree, isHead]

theorem HeadsAgree.of_none (noHead : db.forkDb.head = none) :
    HeadsAgree db ↔ db.headBlockId = .zero := by
  simp only [HeadsAgree, noHead]

theorem ObjectsOk.headBlockId_num (ok : ObjectsOk known rules db.objects) :
    db.headBlockId.num = db.headBlockNum := by
  rw [ok.headBlockId_eq, ok.current.linked.lastId_num,
    ok.headBlockNum_eq]

theorem HeadsAgree.head_num (agree : HeadsAgree db)
    (ok : ObjectsOk known rules db.objects)
    (isHead : db.forkDb.head = some head) : head.num = db.headBlockNum := by
  rw [← ok.headBlockId_num,
    ← (HeadsAgree.of_some isHead).mp agree]
  rfl

theorem HeadsAgree.headBlockNum_of_none (agree : HeadsAgree db)
    (ok : ObjectsOk known rules db.objects) (noHead : db.forkDb.head = none) :
    db.headBlockNum = 0 := by
  rw [← ok.headBlockId_num, (HeadsAgree.of_none noHead).mp agree]
  rfl

theorem HeadsAgree.pushed_higher (agree : HeadsAgree db)
    (ok : ObjectsOk known rules db.objects)
    (higher : db.headBlockNum < newBlock.num) (prev : Option Nat) :
    (db.forkDb.insertItem
      ⟨db.forkDb.nextAddress, prev, newBlock⟩).head =
        some ⟨db.forkDb.nextAddress, prev, newBlock⟩ := by
  rw [ForkDatabase.insertItem_head]
  cases isHead : db.forkDb.head with
  | none => rfl
  | some head =>
      have number := agree.head_num ok isHead
      have above : head.num < newBlock.num := by omega
      exact if_pos above

/-- A block that is not above the head leaves it alone. -/
theorem HeadsAgree.pushed_low (agree : HeadsAgree db)
    (ok : ObjectsOk known rules db.objects)
    (notHigher : newBlock.num ≤ db.headBlockNum)
    (pushed : db.forkDb.pushBlock newBlock = .ok fork) :
    fork.head = db.forkDb.head ∧ db.forkDb.head ≠ none := by
  obtain ⟨prev, rfl, _⟩ := ForkDatabase.pushBlock_inserted pushed
  rw [ForkDatabase.insertItem_head]
  cases isHead : db.forkDb.head with
  | none =>
      have zero := agree.headBlockNum_of_none ok isHead
      simp only [Block.num] at notHigher
      omega
  | some head =>
      have number := agree.head_num ok isHead
      have notAbove : ¬ head.num < newBlock.num := by omega
      exact ⟨if_neg notAbove, by simp⟩

theorem pushLinear_returns_heads {after : ChainDatabase B X} {id : BlockId}
    (isHead : db.forkDb.head = some newHead) (same : newHead.block = newBlock)
    (applied : Applied rules id newBlock db after) : HeadsAgree after := by
  have headAfter : after.forkDb.head = some newHead := by
    rw [applied.forkDb, sizedFork_head, isHead]
  rw [HeadsAgree.of_some headAfter, ForkItem.id, same]
  exact (applyState_extends applied.applies).headId.symm

/-- A block on the head: it becomes both heads, or it is removed again. -/
theorem pushLinear_heads (ok : DatabaseOk known rules db)
    (isKnown : newBlock ∈ known) (heads : HeadsOk db)
    (onHead : newBlock.previous = db.headBlockId)
    (pushed : db.forkDb.pushBlock newBlock = .ok fork) :
    HeadsOk
      (pushLinear rules newBlock { db with forkDb := fork }).state := by
  have okPushed := ok.push isKnown pushed
  obtain ⟨prev, rfl, root, points⟩ :=
    ForkDatabase.pushBlock_inserted pushed
  have higher : db.headBlockNum < newBlock.num := by
    rw [Block.num, onHead, ok.objects.headBlockId_num]
    exact Nat.lt_succ_self _
  have isHead := heads.agree.pushed_higher ok.objects higher prev
  have sized :
      0 < (db.forkDb.insertItem
        ⟨db.forkDb.nextAddress, prev, newBlock⟩).maxSize := by
    rw [ForkDatabase.insertItem_maxSize]
    exact heads.sized
  generalize newItemEq :
    (⟨db.forkDb.nextAddress, prev, newBlock⟩ : ForkItem B) = newItem
      at isHead sized okPushed ⊢
  have itemBlock : newItem.block = newBlock := by rw [← newItemEq]
  have itemPrev : newItem.prev = prev := by rw [← newItemEq]
  have itemId : newItem.id = newBlock.id := by
    rw [ForkItem.id, itemBlock]
  rcases applyAndStore_cases rules newBlock.id newBlock
      { db with forkDb := db.forkDb.insertItem newItem } with
    ⟨after, returns, applied⟩ | ⟨fault, after, throws, refused⟩
  · simp only [pushLinear, returns, Outcome.state_ok]
    refine ⟨pushLinear_returns_heads isHead itemBlock applied, ?_⟩
    rw [applied.forkDb]
    exact sizedFork_maxSize_pos _ _ sized
  · simp only [pushLinear, throws, Outcome.state_throw]
    have sameId : after.headBlockId = db.headBlockId :=
      congrArg ChainState.headBlockId refused.current
    have afterHead : after.forkDb.head = some newItem := by
      rw [refused.forkDb, sizedFork_head, isHead]
    refine ⟨?_, ?_⟩
    · rw [← itemId]
      cases prev with
      | none =>
          have noHead := ForkDatabase.remove_root afterHead itemPrev
          rw [HeadsAgree.of_none noHead]
          show after.headBlockId = .zero
          rw [sameId]
          rcases root rfl with empty | zero
          · exact (HeadsAgree.of_none empty).mp heads.agree
          · rw [← onHead, zero]
      | some address =>
          obtain ⟨parent, member, isAddress, follows⟩ :=
            points address rfl
          have below : newItem.num = parent.num + 1 := by
            rw [ForkItem.num, itemBlock, Block.num, ← follows]
            rfl
          have member' : parent ∈ after.forkDb.index := by
            rw [refused.forkDb]
            exact mem_sizedFork isHead
              (ForkDatabase.mem_insertItem member below heads.sized)
              (Nat.le_of_eq below)
          have another : parent.id ≠ newItem.id := by
            intro same
            have numbers : parent.num = newItem.num :=
              congrArg BlockId.num same
            omega
          have newTop : (after.forkDb.remove [] newItem.id).head =
              some parent := by
            refine ForkDatabase.remove_head okPushed.items ?_ afterHead
              (by rw [itemPrev, isAddress]) member' another
            rw [refused.forkDb]
            exact (sizedFork_items rules newBlock _ _).1
          rw [HeadsAgree.of_some newTop, follows, onHead]
          exact sameId.symm
    · rw [ForkDatabase.remove_maxSize, refused.forkDb]
      exact sizedFork_maxSize_pos _ _ sized

theorem pushLinear_skipped_heads (heads : HeadsOk db)
    (doesNotApply : ∀ after, applyState rules newBlock db.state ≠ .ok after)
    (another : newBlock.id ≠ db.headBlockId) :
    HeadsOk (pushLinear rules newBlock db).state := by
  rcases applyAndStore_cases rules newBlock.id newBlock db with
    ⟨after, _, applied⟩ | ⟨fault, after, throws, refused⟩
  · exact absurd applied.applies (doesNotApply after.state)
  · simp only [pushLinear, throws, Outcome.state_throw]
    have sameId : after.headBlockId = db.headBlockId :=
      congrArg ChainState.headBlockId refused.current
    have afterHead : after.forkDb.head = db.forkDb.head := by
      rw [refused.forkDb, sizedFork_head]
    have top : (after.forkDb.remove [] newBlock.id).head = db.forkDb.head := by
      rw [ForkDatabase.remove_other, afterHead]
      intro head isHead
      rw [afterHead] at isHead
      rw [(HeadsAgree.of_some isHead).mp heads.agree]
      exact another.symm
    refine ⟨?_, ?_⟩
    · have agree := heads.agree
      unfold HeadsAgree at agree ⊢
      simp only [top]
      rw [sameId]
      exact agree
    · rw [ForkDatabase.remove_maxSize, refused.forkDb]
      exact sizedFork_maxSize_pos _ _ heads.sized

/-- The recovery of a switch of which nothing was applied: there is nothing to
pop, and the head of the fork database is set to the old head. -/
theorem pushBranch_turned_back {switch : Switch B}
    {below : ChainDatabase B X} {older : List (Block B)}
    {lowest oldHead : ForkItem B} {later : List (ForkItem B)}
    (point : ForkPoint known rules switch older db below)
    (sized : 0 < below.forkDb.maxSize)
    (oldHeadIs : switch.second.head? = some oldHead)
    (refused : ∀ after, applyState rules lowest.block below.state ≠ .ok after) :
    let final := (pushBranch rules switch (lowest :: later) below).state
    final.state = db.state ∧ final.forkDb.head = some oldHead ∧
      0 < final.forkDb.maxSize := by
  intro final
  rcases applyAndStore_cases rules lowest.id lowest.block below with
    ⟨after, _, applied⟩ | ⟨fault, tried, throws, isRefused⟩
  · exact absurd applied.applies (refused after.state)
  · let begins : ChainDatabase B X :=
      { tried with
        forkDb := switch.resetFork (lowest :: later) tried.forkDb }
    have atTarget : begins.headBlockId = switch.target := by
      have same : begins.headBlockId = below.headBlockId :=
        congrArg ChainState.headBlockId isRefused.current
      rw [same, point.objects.headBlockId_eq, point.history,
        point.switchOk.target]
    have noPops : popTo switch.held switch.target begins = .ok begins := by
      simp [popTo, popUntil, atTarget]
    have replays :
        applyAll rules (switch.second.reverse.map ForkItem.block)
          begins.state = some db.state := by
      have same : begins.state = below.state := isRefused.current
      rw [same]
      exact point.replays
    obtain ⟨restored, reapplied, state, _, fork, _⟩ :=
      forEach_applyAndStore (fun _ => switch.newBlock.id) replays
    have finalEq : final = restored := by
      simp only [final, pushBranch, throws, restoreBranch_eq]
      have start :
          { tried with
            forkDb := switch.resetFork (lowest :: later)
              tried.forkDb } = begins := rfl
      rw [start, noPops, Outcome.bind_ok, reapplied, Outcome.bind_ok,
        Outcome.state_throw]
    have beginsSized : 0 < begins.forkDb.maxSize := by
      have same : begins.forkDb.maxSize = tried.forkDb.maxSize :=
        foldl_remove_maxSize (lowest :: later)
      rw [same, isRefused.forkDb]
      exact sizedFork_maxSize_pos _ _ sized
    have beginsHead : begins.forkDb.head = some oldHead := oldHeadIs
    obtain ⟨headAfter, sizeAfter⟩ :=
      @forkAfter_keeps B X rules begins.forkDb
        (switch.second.reverse.map ForkItem.block) begins.state
        beginsSized
    rw [finalEq, fork]
    exact ⟨state, headAfter.trans beginsHead, sizeAfter⟩

theorem switchForks_turned_back {first second : List (ForkItem B)}
    {below : ChainState B X} {lowest : ForkItem B}
    (free : CollisionFree known) (ok : DatabaseOk known rules db)
    (isKnown : newBlock ∈ known) (heads : HeadsOk db)
    (turns :
      TurnsBack rules db newBlock fork newHead first second below
        lowest) :
    HeadsOk
      (switchForks rules newBlock newHead
        { db with forkDb := fork }).state := by
  have okPushed := ok.push isKnown turns.attempts.pushed
  have sized : 0 < fork.maxSize := by
    obtain ⟨prev, rfl, _⟩ :=
      ForkDatabase.pushBlock_inserted turns.attempts.pushed
    rw [ForkDatabase.insertItem_maxSize]
    exact heads.sized
  obtain ⟨_, _, oldHead, _, oldHeadIs, oldHeadId⟩ :=
    ForkDatabase.fetchBranchFrom_spec okPushed.items
      (List.Subset.refl _) turns.found
  obtain ⟨older, switch, rfl, _, course⟩ :=
    switchForks_cases newBlock free okPushed turns.attempts.head
      turns.attempts.higher turns.found
  rcases course with ⟨popped, point, goesOn⟩ |
    ⟨count, _, _, _, fewer, stuck, _⟩
  · have state : popped.state = below := by
      have there :
          ((db.state :: db.objects.saved).drop second.length)[0]? =
            some popped.state := by
        have whole := point.popped.objects
        simp only at whole
        rw [← whole]
        rfl
      rw [List.getElem?_drop, Nat.add_zero, turns.isBelow,
        Option.some.injEq] at there
      exact there.symm
    have poppedSized : 0 < popped.forkDb.maxSize := by
      rw [ForkDatabase.popTimes_index point.popped.forkDb]
      exact sized
    obtain ⟨front, shape⟩ :=
      List.getLast?_eq_some_iff.mp turns.isLowest
    have reversed : first.reverse = lowest :: front.reverse := by
      rw [shape, List.reverse_append]
      rfl
    have spec :=
      @pushBranch_turned_back B X rules known
        { db with forkDb := fork }
        ⟨newBlock, newHead, first, second⟩ popped older lowest oldHead
        front.reverse point poppedSized oldHeadIs
        (by rw [state]; exact turns.refused)
    rw [goesOn]
    simp only [reversed]
    obtain ⟨sameState, isHead, finalSized⟩ := spec
    refine ⟨?_, finalSized⟩
    rw [HeadsAgree.of_some isHead, oldHeadId]
    exact (congrArg ChainState.headBlockId sameState).symm
  · exact absurd (turns.pops.mono fewer) stuck

/-- One push that meets the condition. -/
theorem pushBlock_heads {skipForkDb : Bool} (free : CollisionFree known)
    (ok : DatabaseOk known rules db) (isKnown : newBlock ∈ known)
    (heads : HeadsOk db) (keeps : KeepsHeads rules db skipForkDb newBlock) :
    HeadsOk (pushBlock rules skipForkDb newBlock db).state := by
  have onHead :=
    fun builds fork pushed =>
      @pushLinear_heads B X rules known db newBlock fork ok isKnown heads
        builds pushed
  have course := pushBlock_cases rules skipForkDb newBlock db
  cases keeps with
  | skipped doesNotApply another =>
      have linear :
          pushBlock rules true newBlock db = pushLinear rules newBlock db :=
        if_pos rfl
      rw [linear]
      exact pushLinear_skipped_heads heads doesNotApply another
  | builds isOnHead =>
      generalize pushBlock rules false newBlock db = outcome at course ⊢
      have number : db.headBlockNum < newBlock.num := by
        rw [Block.num, isOnHead, ok.objects.headBlockId_num]
        exact Nat.lt_succ_self _
      have top :
          ∀ fork newHead, db.forkDb.pushBlock newBlock = .ok fork →
            fork.head = some newHead →
            newHead.block.previous = db.headBlockId := by
        intro fork newHead pushed isHead
        obtain ⟨prev, rfl, _⟩ := ForkDatabase.pushBlock_inserted pushed
        rw [heads.agree.pushed_higher ok.objects number,
          Option.some.injEq] at isHead
        rw [← isHead]
        exact isOnHead
      cases course with
      | skipped isSkipped => cases isSkipped
      | refused fault left refuses => exact heads
      | kept fork newHead pushed head elsewhere notHigher =>
          exact absurd (top fork newHead pushed head) elsewhere
      | linear fork newHead pushed head builds =>
          exact onHead isOnHead fork pushed
      | switched fork newHead notSkipped attempts =>
          exact absurd (top fork newHead attempts.pushed attempts.head)
            attempts.elsewhere
  | low notHigher =>
      generalize pushBlock rules false newBlock db = outcome at course ⊢
      have top :
          ∀ fork, db.forkDb.pushBlock newBlock = .ok fork →
            HeadsOk { db with forkDb := fork } ∧
            ∀ newHead, fork.head = some newHead →
              newHead.num = db.headBlockNum := by
        intro fork pushed
        obtain ⟨same, _⟩ :=
          heads.agree.pushed_low ok.objects notHigher pushed
        refine ⟨⟨?_, ?_⟩, ?_⟩
        · have agree := heads.agree
          unfold HeadsAgree at agree ⊢
          simp only [same]
          exact agree
        · obtain ⟨prev, rfl, _⟩ := ForkDatabase.pushBlock_inserted pushed
          simp only [ForkDatabase.insertItem_maxSize]
          exact heads.sized
        · intro newHead isHead
          rw [same] at isHead
          exact heads.agree.head_num ok.objects isHead
      cases course with
      | skipped isSkipped => cases isSkipped
      | refused fault left refuses => exact heads
      | kept fork newHead pushed head elsewhere _ =>
          exact (top fork pushed).1
      | linear fork newHead pushed head builds =>
          have number := (top fork pushed).2 newHead head
          rw [ForkItem.num, Block.num, builds,
            ok.objects.headBlockId_num] at number
          omega
      | switched fork newHead notSkipped attempts =>
          have number :=
            (top fork attempts.pushed).2 newHead attempts.head
          have higher := attempts.higher
          omega
  | refused refuses =>
      generalize pushBlock rules false newBlock db = outcome at course ⊢
      cases course with
      | skipped isSkipped => cases isSkipped
      | refused fault left _ => exact heads
      | kept fork newHead pushed head elsewhere notHigher =>
          rw [refuses] at pushed
          cases pushed
      | linear fork newHead pushed head builds =>
          rw [refuses] at pushed
          cases pushed
      | switched fork newHead notSkipped attempts =>
          have pushed := attempts.pushed
          rw [refuses] at pushed
          cases pushed
  | @turnsBack _ fork newHead first second below lowest turns =>
      generalize pushBlock rules false newBlock db = outcome at course ⊢
      have top :
          ∀ fork' newHead', db.forkDb.pushBlock newBlock = .ok fork' →
            fork'.head = some newHead' →
            fork' = fork ∧ newHead' = newHead := by
        intro fork' newHead' pushed isHead
        rw [turns.attempts.pushed, Outcome.ok.injEq] at pushed
        subst pushed
        rw [turns.attempts.head, Option.some.injEq] at isHead
        exact ⟨rfl, isHead.symm⟩
      cases course with
      | skipped isSkipped => cases isSkipped
      | refused fault left refuses => exact heads
      | kept fork' newHead' pushed head elsewhere notHigher =>
          obtain ⟨rfl, rfl⟩ := top fork' newHead' pushed head
          exact absurd turns.attempts.higher (by omega)
      | linear fork' newHead' pushed head builds =>
          obtain ⟨rfl, rfl⟩ := top fork' newHead' pushed head
          exact absurd builds turns.attempts.elsewhere
      | switched fork' newHead' notSkipped attempts =>
          obtain ⟨rfl, rfl⟩ := top fork' newHead' attempts.pushed
            attempts.head
          exact switchForks_turned_back free ok isKnown heads turns

end Steps

variable {db origin : ChainDatabase B X}

theorem Opened.headsOk (opened : Opened known origin) : HeadsOk origin := by
  have fork := opened.forkDb
  cases history : origin.state.history with
  | nil =>
      rw [history] at fork
      have noHead : origin.forkDb.head = none := by rw [fork]; rfl
      refine ⟨(HeadsAgree.of_none noHead).mpr ?_, ?_⟩
      · have headId := opened.state.headId
        rw [history] at headId
        exact headId
      · rw [fork]
        exact Nat.succ_pos _
  | cons block older =>
      rw [history] at fork
      have isHead : origin.forkDb.head = some ⟨0, none, block⟩ := by
        rw [fork]
        rfl
      refine ⟨(HeadsAgree.of_some isHead).mpr ?_, ?_⟩
      · have headId := opened.state.headId
        rw [history] at headId
        exact headId.symm
      · rw [fork]
        exact Nat.succ_pos _

theorem Run.headsOk (free : CollisionFree known)
    (run : Run rules known (KeepsHeads rules) origin db)
    (ok : DatabaseOk known rules origin) (heads : HeadsOk origin) :
    HeadsOk db := by
  induction run with
  | refl => exact heads
  | push skipForkDb block earlier isKnown keeps ih =>
      exact pushBlock_heads free (earlier.databaseOk free ok) isKnown
        ih keeps
  | pending count _ ih =>
      exact ⟨ih.agree, ih.sized⟩

end GxbCore.Chain
