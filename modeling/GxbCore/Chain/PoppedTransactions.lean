import GxbCore.Chain.PendingTransactions
import GxbCore.Chain.Runs
import GxbCore.Chain.TransactionIndex

/-!
# The transactions that a push pops

`pushBlockTx` does to the database what `pushBlock` does, and collects the
transactions of the blocks it pops: those of the old branch in the order of the
chain, and before them those of a new branch that was given up.

`Between` holds at every moment of a push, under any flags that record the
transactions of the blocks above `floor`.  In particular no transaction of the
main chain is missing from the index of recent transactions unless it is
expired.
-/

namespace GxbCore.Chain

variable {O H W : Type}

section Projection

variable {rules : Rules (Payload O H) (Objects O W)}
  {held : List (ForkItem (Payload O H))}

theorem withoutPopping_db
    (call :
      ChainDatabase (Payload O H) (Objects O W) →
        Outcome ChainFault (ChainDatabase (Payload O H) (Objects O W)))
    (switching : Switching O H W) :
    (withoutPopping call switching).map Switching.db =
      call switching.db := by
  unfold withoutPopping
  cases called : call switching.db with
  | ok db => rfl
  | throw fault db => rfl

theorem popBlockTx_db (switching : Switching O H W) :
    (popBlockTx held switching).map Switching.db =
      popBlock held switching.db := by
  unfold popBlockTx
  cases fetched : fetchBlockById switching.db switching.db.headBlockId with
  | none =>
      unfold popBlock
      rw [fetched]
      rfl
  | some headBlock =>
      simp only
      cases popped : popBlock held switching.db with
      | ok db => rfl
      | throw fault db => rfl

theorem popUntilTx_db (target : BlockId) (fuel : Nat)
    (switching : Switching O H W) :
    (popUntilTx held target fuel switching).map Switching.db =
      popUntil held target fuel switching.db := by
  induction fuel generalizing switching with
  | zero => rfl
  | succ fuel ih =>
      unfold popUntilTx popUntil
      split
      · exact Outcome.map_bind (popBlockTx_db switching)
          ih
      · rfl

theorem popToTx_db (target : BlockId) (switching : Switching O H W) :
    (popToTx held target switching).map Switching.db =
      popTo held target switching.db :=
  popUntilTx_db target _ switching

theorem restoreBranchTx_db (switch : Switch (Payload O H))
    (bad : List (ForkItem (Payload O H))) (fault : ChainFault)
    (switching : Switching O H W) :
    (restoreBranchTx rules switch bad fault switching).map Switching.db =
      restoreBranch rules switch bad fault switching.db := by
  unfold restoreBranchTx restoreBranch
  refine Outcome.map_bind (popToTx_db _ _) ?_
  intro popped
  refine Outcome.map_bind (forEach_map ?_ _ popped) fun _ => rfl
  intro item before
  exact withoutPopping_db _ before

theorem pushBranchTx_db (switch : Switch (Payload O H))
    (branch : List (ForkItem (Payload O H))) (switching : Switching O H W) :
    (pushBranchTx rules switch branch switching).map Switching.db =
      pushBranch rules switch branch switching.db := by
  induction branch generalizing switching with
  | nil => rfl
  | cons item later ih =>
      unfold pushBranchTx pushBranch withoutPopping
      cases applied : applyAndStore rules item.id item.block switching.db with
      | ok db => exact ih _
      | throw fault db => exact restoreBranchTx_db switch _ fault _

theorem switchForksTx_db (newBlock : TrxBlock O H)
    (newHead : ForkItem (Payload O H)) (switching : Switching O H W) :
    (switchForksTx rules newBlock newHead switching).map Switching.db =
      switchForks rules newBlock newHead switching.db := by
  unfold switchForksTx switchForks
  cases found : switching.db.forkDb.fetchBranchFrom newHead.id
      switching.db.headBlockId with
  | none => rfl
  | some branches =>
      exact Outcome.map_bind (popToTx_db _ _)
        fun popped => pushBranchTx_db _ _ popped

/-- The two versions of `_push_block` do the same to the database. -/
theorem pushBlockTx_db (skipForkDb : Bool) (newBlock : TrxBlock O H)
    (switching : Switching O H W) :
    (pushBlockTx rules skipForkDb newBlock switching).map Switching.db =
      pushBlock rules skipForkDb newBlock switching.db := by
  unfold pushBlockTx pushBlock
  split
  · exact withoutPopping_db _ _
  · cases pushed : switching.db.forkDb.pushBlock newBlock with
    | throw fault left => rfl
    | ok fork =>
        simp only
        cases isHead : fork.head with
        | none => exact withoutPopping_db _ _
        | some newHead =>
            simp only
            split
            · split
              · exact switchForksTx_db newBlock newHead _
              · rfl
            · exact withoutPopping_db _ _

end Projection

/-- A transaction of the main chain is in the index unless it is expired. -/
def IndexOk (state : TrxState O H W) : Prop :=
  ∀ block ∈ state.history, ∀ trx ∈ block.body.transactions,
    trx ∈ state.rest.transactionIndex ∨
      trx.expiration < state.rest.headBlockTime

/-- The flags and the checkpoints make a push record the transactions of the
blocks above `floor`. -/
structure Records (checkpoints : Checkpoints) (skip : SkipFlags)
    (floor : Nat) : Prop where
  checked : skip.transactionDupeCheck = false
  below : ∀ point ∈ checkpoints, point.1 ≤ floor

variable {evaluators : Evaluators O H W} {checkpoints : Checkpoints}
  {skip : SkipFlags} {floor : Nat} {known : Set (TrxBlock O H)}
  {block : TrxBlock O H} {before after : TrxState O H W}

theorem Records.applyFlags {flags : SkipFlags}
    (records : Records checkpoints skip floor) (higher : floor < block.num)
    (flagsAre : applyFlags checkpoints skip block = .ok flags) :
    flags = skip := by
  unfold Chain.applyFlags at flagsAre
  split at flagsAre
  · exact (Except.ok.inj flagsAre).symm
  · rename_i lastNum lastId isLast
    have low := records.below _ (List.mem_of_getLast? isLast)
    split at flagsAre
    · exact (Except.ok.inj flagsAre).symm
    · split at flagsAre
      · cases flagsAre
      · rw [if_neg (by simp only at low; omega)] at flagsAre
        exact (Except.ok.inj flagsAre).symm

theorem applyFlags_of_applyState
    (applies :
      applyState (trxRules evaluators checkpoints skip) block before =
        .ok after) :
    ∃ flags, applyFlags checkpoints skip block = .ok flags := by
  cases flagsAre : applyFlags checkpoints skip block with
  | ok flags => exact ⟨flags, rfl⟩
  | error code =>
      have fails :
          (trxRules evaluators checkpoints skip).evaluate block before =
            .error code := by
        simp only [trxRules, evaluateBlock, flagsAre]
        rfl
      simp only [applyState, beginBlock, fails] at applies
      split at applies
      · cases applies
      · rename_i begun begins
        split at begins
        · cases begins
        · cases begins

/-- What holds of every state on the undo stack. -/
structure Indexed (known : Set (TrxBlock O H)) (floor : Nat)
    (state : TrxState O H W) : Prop where
  ok : StateOk known state
  index : IndexOk state
  above : floor ≤ state.headBlockNum

/-- The steps of the next block, all with the flags that were asked for. -/
theorem Indexed.blockApplied (indexed : Indexed known floor before)
    (records : Records checkpoints skip floor)
    (applies :
      applyState (trxRules evaluators checkpoints skip) block before =
        .ok after) :
    block.num = before.headBlockNum + 1 ∧
      ∃ middle maintained finished,
        BlockApplied evaluators skip block before middle maintained finished
          after := by
  have extended := applyState_extends applies
  have number : block.num = before.headBlockNum + 1 := by
    rw [Block.num, extended.previous, indexed.ok.headId,
      indexed.ok.linked.lastId_num, indexed.ok.headNum]
  have above := indexed.above
  obtain ⟨flags, flagsAre⟩ := applyFlags_of_applyState applies
  obtain rfl := records.applyFlags (by omega) flagsAre
  exact ⟨number, (applyState_trxRules flagsAre).mp applies⟩

theorem Indexed.extend (indexed : Indexed known floor before)
    (records : Records checkpoints skip floor) (isKnown : block ∈ known)
    (applies :
      applyState (trxRules evaluators checkpoints skip) block before =
        .ok after) : Indexed known floor after := by
  have extended := applyState_extends applies
  have okAfter := indexed.ok.extend isKnown extended
  have above := indexed.above
  obtain ⟨number, middle, maintained, finished, applied⟩ :=
    indexed.blockApplied records applies
  obtain ⟨time, index⟩ := applied.index
  -- What was recorded before the block or by it is kept until it expires.
  have kept :
      ∀ trx, trx ∈ recorded skip block.body.transactions ++
          before.rest.transactionIndex →
        trx ∈ after.rest.transactionIndex ∨
          trx.expiration < after.rest.headBlockTime := by
    intro trx member
    rw [index, time, mem_clearExpiredTransactions]
    by_cases alive : block.body.timestamp ≤ trx.expiration
    · exact Or.inl ⟨member, alive⟩
    · exact Or.inr (UInt32.not_le.mp alive)
  refine
    { ok := okAfter
      index := ?_
      above := by
        rw [extended.headNum]
        omega }
  intro other member trx inOther
  rw [extended.history] at member
  rcases List.mem_cons.mp member with rfl | older
  · exact kept trx (List.mem_append_left _
      (mem_recorded.mpr ⟨records.checked, inOther⟩))
  · rcases indexed.index other older trx inOther with inIndex | expired
    · exact kept trx (List.mem_append_right _ inIndex)
    · right
      rw [time]
      exact UInt32.lt_trans expired applied.later

variable {rules : Rules (Payload O H) (Objects O W)}
  {good : TrxState O H W → Prop}

/-- What known blocks keep. -/
structure KeptBy (rules : Rules (Payload O H) (Objects O W))
    (known : Set (TrxBlock O H)) (good : TrxState O H W → Prop) :
    Prop where
  ok : ∀ state, good state → StateOk known state
  step :
    ∀ block ∈ known, ∀ before after, good before →
      applyState rules block before = .ok after → good after

theorem Records.keptBy (records : Records checkpoints skip floor) :
    KeptBy (trxRules evaluators checkpoints skip) known
      (Indexed known floor) :=
  { ok := fun _ indexed => indexed.ok
    step := fun _ isKnown _ _ indexed applies =>
      indexed.extend records isKnown applies }

/-- Every snapshot is the state below one block. -/
def StepsDown {B X : Type} :
    ChainState B X → List (ChainState B X) → Prop
  | _, [] => True
  | state, last :: older =>
      (∃ block, state.history = block :: last.history) ∧
        StepsDown last older

theorem StepsDown.take {B X : Type} {state : ChainState B X}
    {saved : List (ChainState B X)} (stepsDown : StepsDown state saved)
    (count : Nat) : StepsDown state (saved.take count) := by
  induction count generalizing state saved with
  | zero => simp [StepsDown]
  | succ count ih =>
      cases saved with
      | nil => simp [StepsDown]
      | cons last older =>
          exact ⟨stepsDown.1, ih stepsDown.2⟩

/-- The invariant in the middle of a push: the object state and all snapshots
are good. -/
structure Between (known : Set (TrxBlock O H)) (good : TrxState O H W → Prop)
    (pool : List (ForkItem (Payload O H))) (next : Nat)
    (db : ChainDatabase (Payload O H) (Objects O W)) : Prop where
  current : good db.state
  saved : ∀ state ∈ db.objects.saved, good state
  stepsDown : StepsDown db.state db.objects.saved
  items : db.forkDb.items ⊆ pool
  next : db.forkDb.nextAddress = next
  log : ∀ num entry, db.blockLog num = some entry → entry.2 ∈ known

section Between

variable {pool held : List (ForkItem (Payload O H))} {next : Nat}
  {db : ChainDatabase (Payload O H) (Objects O W)}

theorem Between.headBlockId (between : Between known good pool next db)
    (kept : KeptBy rules known good) :
    db.headBlockId = lastId db.state.history :=
  (kept.ok _ between.current).headId

theorem Between.applyAndStore {block : TrxBlock O H}
    (between : Between known good pool next db) (kept : KeptBy rules known good)
    (id : BlockId) (isKnown : block ∈ known) :
    Between known good pool next
        (applyAndStore rules id block db).state ∧
      db.state.history <:+
        (applyAndStore rules id block db).state.state.history := by
  rcases applyAndStore_cases rules id block
      db with
    ⟨after, returns, applied⟩ | ⟨fault, after, throws, refused⟩
  · rw [returns]
    have extended := applyState_extends applied.applies
    have fork :=
      sizedFork_items rules block db.state
        db.forkDb
    rw [← applied.forkDb] at fork
    refine
      ⟨{ current :=
          kept.step block isKnown _ _ between.current applied.applies
         saved := ?_
         stepsDown := ?_
         items := List.Subset.trans fork.1 between.items
         next := fork.2.trans between.next
         log := ?_ }, ?_⟩
    · rw [Outcome.state_ok, applied.saved]
      intro state member
      rcases List.mem_cons.mp member with same | older
      · exact same ▸ between.current
      · exact between.saved state (List.mem_of_mem_take older)
    · rw [Outcome.state_ok, applied.saved]
      exact ⟨⟨block, extended.history⟩, between.stepsDown.take _⟩
    · intro num entry stored
      rw [Outcome.state_ok, applied.blockLog] at stored
      rcases BlockLog.store_eq_some stored with same | old
      · exact same ▸ isKnown
      · exact between.log num entry old
    · rw [Outcome.state_ok, extended.history]
      exact List.suffix_cons _ _
  · rw [throws]
    have fork :=
      sizedFork_items rules block db.state
        db.forkDb
    rw [← refused.forkDb] at fork
    refine
      ⟨{ current := ?_
         saved := ?_
         stepsDown := ?_
         items := List.Subset.trans fork.1 between.items
         next := fork.2.trans between.next
         log := ?_ }, ?_⟩
    · rw [Outcome.state_throw, refused.current]
      exact between.current
    · rw [Outcome.state_throw, refused.saved]
      intro state member
      exact between.saved state (List.mem_of_mem_take member)
    · rw [Outcome.state_throw, refused.current, refused.saved]
      exact between.stepsDown.take _
    · rw [Outcome.state_throw, refused.blockLog]
      exact between.log
    · exact (congrArg ChainState.history refused.current) ▸
        List.suffix_refl _

/-- `fetch_block_by_id` finds a known block with this id. -/
theorem Between.fetchBlockById {id : BlockId} {block : TrxBlock O H}
    (between : Between known good pool next db)
    (poolOk : ItemsOk known next pool)
    (fetched : fetchBlockById db id = some block) :
    block ∈ known ∧ block.id = id := by
  unfold Chain.fetchBlockById at fetched
  split at fetched
  · rename_i item found
    obtain rfl := Option.some.inj fetched
    obtain ⟨inIndex, same⟩ := ForkDatabase.find_eq_some found
    have inPool :=
      between.items (ForkDatabase.mem_items.mpr (Or.inr inIndex))
    exact ⟨poolOk.known item inPool, same⟩
  · unfold BlockLog.fetchOptional at fetched
    split at fetched
    · cases fetched
    · rename_i entry stored
      split at fetched
      · cases fetched
      · rename_i sameId
        split at fetched
        · rename_i sameBlock
          obtain rfl := Option.some.inj fetched
          exact
            ⟨between.log _ _ stored, sameBlock.trans (not_not.mp sameId)⟩
        · cases fetched

theorem Between.withFork {fork : ForkDatabase (Payload O H)}
    (between : Between known good pool next db)
    (items : fork.items ⊆ pool) (nextIs : fork.nextAddress = next) :
    Between known good pool next { db with forkDb := fork } :=
  { current := between.current
    saved := between.saved
    stepsDown := between.stepsDown
    items := items
    next := nextIs
    log := between.log }

end Between

/-- `popped` are the blocks between the two heads, in the order of the chain,
and their transactions are in front of the others. -/
structure Pops (before after : Switching O H W)
    (popped : List (TrxBlock O H)) : Prop where
  history :
    before.db.state.history =
      popped.reverse ++ after.db.state.history
  poppedTx :
    after.poppedTx =
      popped.flatMap (fun block => block.body.transactions) ++
        before.poppedTx

theorem Pops.none {before after : Switching O H W}
    (state : after.db.state = before.db.state)
    (poppedTx : after.poppedTx = before.poppedTx) : Pops before after [] :=
  { history := by
      rw [state]
      rfl
    poppedTx := by
      rw [poppedTx]
      rfl }

theorem Pops.trans {before middle after : Switching O H W}
    {lower upper : List (TrxBlock O H)} (first : Pops before middle upper)
    (later : Pops middle after lower) : Pops before after (lower ++ upper) :=
  { history := by
      rw [first.history, later.history, List.reverse_append,
        List.append_assoc]
    poppedTx := by
      rw [later.poppedTx, first.poppedTx, List.flatMap_append,
        List.append_assoc] }

section Popping

variable {pool held : List (ForkItem (Payload O H))} {next : Nat}
  {switching : Switching O H W}

/-- The one lemma about `pop_block`. -/
theorem popBlockTx_spec (kept : KeptBy rules known good)
    (free : CollisionFree known)
    (poolOk : ItemsOk known next pool) (heldInside : held ⊆ pool)
    (between : Between known good pool next switching.db) :
    Between known good pool next (popBlockTx held switching).state.db ∧
      ((∃ block after, popBlockTx held switching = .ok after ∧
          Pops switching after [block]) ∨
        (∃ fault after, popBlockTx held switching = .throw fault after ∧
          Pops switching after [])) := by
  have forkInside :
      ∀ fork, switching.db.forkDb.popBlock held = .ok fork →
        Between known good pool next
          { switching.db with forkDb := fork } :=
    fun fork popped =>
      between.withFork
        (List.Subset.trans (ForkDatabase.popBlock_items_subset popped)
          (List.append_subset.mpr ⟨between.items, heldInside⟩))
        ((popBlock_fork_next popped).trans between.next)
  unfold popBlockTx
  cases fetched : fetchBlockById switching.db
      switching.db.headBlockId with
  | none =>
      exact ⟨between, Or.inr ⟨_, _, rfl, Pops.none rfl rfl⟩⟩
  | some headBlock =>
      obtain ⟨headKnown, headIs⟩ :=
        between.fetchBlockById poolOk fetched
      rcases popBlock_cases held switching.db with
        ⟨fork, objects, returns, popped, restored⟩ |
        ⟨fault, fork, throws, forkCase⟩
      · simp only [returns]
        have okFork := forkInside fork popped
        cases stack : switching.db.objects.saved with
        | nil =>
            rw [Snapshots.restore_of_nil stack] at restored
            cases restored
        | cons last older =>
            rw [Snapshots.restore_of_cons stack] at restored
            obtain rfl := Option.some.inj restored
            have saved := between.saved
            have stepsDown := between.stepsDown
            rw [stack] at saved stepsDown
            obtain ⟨⟨block, shape⟩, stepsDown⟩ := stepsDown
            -- The block that was fetched is the head of the history.
            have inHistory : block ∈ switching.db.state.history := by
              rw [shape]
              exact List.mem_cons_self
            have sameId : headBlock.id = block.id := by
              rw [headIs, between.headBlockId kept, shape, lastId_cons]
            obtain rfl :=
              free headBlock headKnown block
                ((kept.ok _ between.current).known block inHistory) sameId
            refine
              ⟨{ current := saved last List.mem_cons_self
                 saved := fun state member =>
                  saved state (List.mem_cons_of_mem last member)
                 stepsDown := stepsDown
                 items := okFork.items
                 next := okFork.next
                 log := between.log },
                Or.inl ⟨headBlock, _, rfl, ?_⟩⟩
            exact
              { history := by simpa using shape
                poppedTx := by simp }
      · simp only [throws]
        refine ⟨?_, Or.inr ⟨_, _, rfl, Pops.none rfl rfl⟩⟩
        rcases forkCase with same | popped
        · rw [same]
          exact between
        · exact forkInside fork popped

variable {target : BlockId}

/-- The loop that pops never goes below a block that it looks for. -/
theorem popUntilTx_spec {base : List (TrxBlock O H)}
    (kept : KeptBy rules known good) (free : CollisionFree known)
    (poolOk : ItemsOk known next pool) (heldInside : held ⊆ pool) (fuel : Nat)
    (between : Between known good pool next switching.db)
    (inside : base <:+ switching.db.state.history)
    (ends : base = [] ∨ target = lastId base) :
    Between known good pool next
        (popUntilTx held target fuel switching).state.db ∧
      base <:+
        (popUntilTx held target fuel switching).state.db.state.history ∧
      ∃ popped,
        Pops switching (popUntilTx held target fuel switching).state
          popped := by
  induction fuel generalizing switching with
  | zero => exact ⟨between, inside, [], Pops.none rfl rfl⟩
  | succ fuel ih =>
      unfold popUntilTx
      split
      · rename_i notThere
        obtain ⟨betweenAfter, pops⟩ :=
          popBlockTx_spec kept free poolOk heldInside between
        rcases pops with
          ⟨block, after, returns, pops⟩ | ⟨fault, after, throws, pops⟩
        · rw [returns] at betweenAfter ⊢
          rw [Outcome.bind_ok]
          have stillInside : base <:+ after.db.state.history := by
            rcases ends with rfl | isTarget
            · exact List.nil_suffix
            · have shape := pops.history
              rw [List.reverse_singleton, List.singleton_append] at shape
              rw [shape, List.suffix_cons_iff] at inside
              rcases inside with same | smaller
              · exfalso
                apply notThere
                rw [isTarget, same, ← shape]
                exact between.headBlockId kept
              · exact smaller
          obtain ⟨betweenEnd, insideEnd, popped, later⟩ :=
            ih betweenAfter stillInside
          exact ⟨betweenEnd, insideEnd, _, pops.trans later⟩
        · rw [throws] at betweenAfter ⊢
          rw [Outcome.bind_throw]
          have same := pops.history
          rw [List.reverse_nil, List.nil_append] at same
          refine ⟨betweenAfter, ?_, [], pops⟩
          rw [Outcome.state_throw, ← same]
          exact inside
      · exact ⟨between, inside, [], Pops.none rfl rfl⟩

theorem popUntilTx_ok {fuel : Nat} {after : Switching O H W}
    (returns : popUntilTx held target fuel switching = .ok after) :
    after.db.headBlockId = target := by
  induction fuel generalizing switching with
  | zero => cases returns
  | succ fuel ih =>
      unfold popUntilTx at returns
      split at returns
      · obtain ⟨middle, _, later⟩ := Outcome.bind_eq_ok.mp returns
        exact ih later
      · rename_i there
        obtain rfl := Outcome.ok.inj returns
        exact not_not.mp there

theorem popToTx_spec {base : List (TrxBlock O H)}
    (kept : KeptBy rules known good) (free : CollisionFree known)
    (poolOk : ItemsOk known next pool) (heldInside : held ⊆ pool)
    (between : Between known good pool next switching.db)
    (inside : base <:+ switching.db.state.history)
    (ends : base = [] ∨ target = lastId base) :
    Between known good pool next
        (popToTx held target switching).state.db ∧
      base <:+ (popToTx held target switching).state.db.state.history ∧
      ∃ popped,
        Pops switching (popToTx held target switching).state popped :=
  popUntilTx_spec kept free poolOk heldInside _ between inside ends

end Popping

/-- After a call that pushes above `base`: `undone` is the top of a branch that
was given up, in the order of the chain. -/
structure GivenUp (known : Set (TrxBlock O H))
    (base : List (TrxBlock O H)) (poppedTx : List (Transaction O))
    (outcome : Outcome ChainFault (Switching O H W))
    (undone : List (TrxBlock O H)) : Prop where
  abandoned :
    ∃ rest, Linked (undone.reverse ++ rest) ∧ base <:+ rest
  known : ∀ block ∈ undone, block ∈ known
  remains : base <:+ outcome.state.db.state.history
  poppedTx :
    outcome.state.poppedTx =
      undone.flatMap (fun block => block.body.transactions) ++ poppedTx
  returned : outcome.returned = true → undone = []

theorem GivenUp.nothing {base : List (TrxBlock O H)}
    {poppedTx : List (Transaction O)}
    {outcome : Outcome ChainFault (Switching O H W)} (linked : Linked base)
    (remains : base <:+ outcome.state.db.state.history)
    (same : outcome.state.poppedTx = poppedTx) :
    GivenUp known base poppedTx outcome [] :=
  { abandoned := ⟨base, linked, List.suffix_refl _⟩
    known := by simp
    remains := remains
    poppedTx := same
    returned := fun _ => rfl }

section Switching

variable {pool : List (ForkItem (Payload O H))} {next : Nat}
  {switching : Switching O H W} {switch : Switch (Payload O H)}
  {base : List (TrxBlock O H)}

/-- Nothing was popped since the switch reached `base`, or what was popped is
counted. -/
structure Above (known : Set (TrxBlock O H)) (good : TrxState O H W → Prop)
    (pool : List (ForkItem (Payload O H))) (next : Nat)
    (base : List (TrxBlock O H)) (poppedTx : List (Transaction O))
    (switching : Switching O H W) : Prop where
  between : Between known good pool next switching.db
  inside : base <:+ switching.db.state.history
  poppedTx : switching.poppedTx = poppedTx

theorem withoutPopping_state
    (call :
      ChainDatabase (Payload O H) (Objects O W) →
        Outcome ChainFault (ChainDatabase (Payload O H) (Objects O W)))
    (switching : Switching O H W) :
    (withoutPopping call switching).state =
      ⟨(call switching.db).state, switching.poppedTx⟩ := by
  unfold withoutPopping
  cases called : call switching.db with
  | ok db => rfl
  | throw fault db => rfl

theorem Above.applyAndStore {poppedTx : List (Transaction O)}
    {block : TrxBlock O H}
    (above : Above known good pool next base poppedTx switching)
    (kept : KeptBy rules known good) (id : BlockId) (isKnown : block ∈ known) :
    Above known good pool next base poppedTx
      (withoutPopping
        (applyAndStore rules id block)
        switching).state := by
  obtain ⟨between, grows⟩ :=
    above.between.applyAndStore kept id isKnown
  rw [withoutPopping_state]
  exact
    { between := between
      inside := above.inside.trans grows
      poppedTx := above.poppedTx }

theorem restoreBranchTx_throws (rules : Rules (Payload O H) (Objects O W))
    (switch : Switch (Payload O H)) (bad : List (ForkItem (Payload O H)))
    (fault : ChainFault) (switching : Switching O H W) :
    (restoreBranchTx rules switch bad fault switching).returned =
      false := by
  unfold restoreBranchTx
  simp only
  generalize popToTx switch.held switch.target _ = popped
  cases popped with
  | throw fault after => rfl
  | ok after =>
      rw [Outcome.bind_ok]
      generalize forEach _ switch.second.reverse after = restored
      cases restored with
      | throw fault last => rfl
      | ok last => rfl

theorem restoreBranchTx_spec (bad : List (ForkItem (Payload O H)))
    (fault : ChainFault) (free : CollisionFree known)
    (poolOk : ItemsOk known next pool) (kept : KeptBy rules known good)
    (ok : SwitchOk known pool base switch)
    (between : Between known good pool next switching.db)
    (inside : base <:+ switching.db.state.history) :
    Between known good pool next
        (restoreBranchTx rules switch bad fault switching).state.db ∧
      ∃ undone,
        GivenUp known base switching.poppedTx
          (restoreBranchTx rules switch bad fault switching) undone := by
  have removed := foldl_remove_items bad ok.held between.items
  have headReset :
      Between known good pool next
        { switching.db with
          forkDb :=
            ForkDatabase.setHead switch.second.head?
              (bad.foldl
                (fun fork item => fork.remove switch.held item.id)
                switching.db.forkDb) } := by
    refine between.withFork ?_ (removed.2.trans between.next)
    intro item member
    rcases ForkDatabase.mem_items.mp member with isHead | inIndex
    · exact ok.second_subset (List.mem_of_head? isHead)
    · exact removed.1 (ForkDatabase.mem_items.mpr (Or.inr inIndex))
  have thrown :=
    restoreBranchTx_throws rules switch
      bad fault switching
  unfold restoreBranchTx at thrown ⊢
  simp only at thrown ⊢
  generalize start :
    (⟨_, switching.poppedTx⟩ : Switching O H W) = begun at thrown ⊢
  have startBetween : Between known good pool next begun.db := by
    rw [← start]
    exact headReset
  have startInside : base <:+ begun.db.state.history := by
    rw [← start]
    exact inside
  obtain ⟨poppedBetween, poppedInside, undone, pops⟩ :=
    popToTx_spec kept free poolOk ok.held startBetween startInside
      (Or.inr ok.target)
  have popped :
      Above known good pool next base
        (undone.flatMap (fun block => block.body.transactions) ++
          begun.poppedTx)
        (popToTx switch.held switch.target begun).state :=
    ⟨poppedBetween, poppedInside, pops.poppedTx⟩
  have restored :
      Above known good pool next base
        (undone.flatMap (fun block => block.body.transactions) ++
          begun.poppedTx)
        ((popToTx switch.held switch.target begun).bind fun switching =>
            (forEach
              (fun item : ForkItem (Payload O H) =>
                withoutPopping
                  (applyAndStore rules
                    switch.newBlock.id item.block))
              switch.second.reverse switching).bind fun switching =>
                .throw fault switching).state := by
    refine Outcome.bind_state_keeps popped ?_
    intro middle _ aboveMiddle
    refine Outcome.bind_state_keeps ?_ fun last _ aboveLast => aboveLast
    refine forEach_state_keeps ?_ aboveMiddle
    intro item member before aboveBefore
    exact aboveBefore.applyAndStore kept _
      (ok.known item (ok.second_subset (List.mem_reverse.mp member)))
  refine ⟨restored.between, undone, ?_⟩
  have sameHistory : begun.db.state.history = switching.db.state.history := by
    rw [← start]
  have sameTx : begun.poppedTx = switching.poppedTx := by
    rw [← start]
  have shape := pops.history
  have linked := (kept.ok _ between.current).linked
  rw [← sameHistory, shape] at linked
  refine
    { abandoned := ⟨_, linked, poppedInside⟩
      known := ?_
      remains := restored.inside
      poppedTx := by
        rw [← sameTx]
        exact restored.poppedTx
      returned := fun returns => absurd returns (by simp [thrown]) }
  intro block member
  refine (kept.ok _ between.current).known block ?_
  rw [← sameHistory, shape]
  exact List.mem_append_left _ (List.mem_reverse.mpr member)

theorem pushBranchTx_spec {branch : List (ForkItem (Payload O H))}
    (free : CollisionFree known) (poolOk : ItemsOk known next pool)
    (kept : KeptBy rules known good)
    (ok : SwitchOk known pool base switch) (insidePool : branch ⊆ pool)
    (between : Between known good pool next switching.db)
    (inside : base <:+ switching.db.state.history) :
    Between known good pool next
        (pushBranchTx rules switch branch switching).state.db ∧
      ∃ undone,
        GivenUp known base switching.poppedTx
          (pushBranchTx rules switch branch switching) undone := by
  induction branch generalizing switching with
  | nil =>
      refine ⟨between, [], GivenUp.nothing ?_ inside rfl⟩
      obtain ⟨newer, shape⟩ := inside
      have linked := (kept.ok _ between.current).linked
      rw [← shape] at linked
      exact linked.of_append
  | cons item later ih =>
      have itemKnown := ok.known item (insidePool List.mem_cons_self)
      have above :
          Above known good pool next base switching.poppedTx switching :=
        ⟨between, inside, rfl⟩
      have stepped :=
        above.applyAndStore kept item.id itemKnown
      unfold pushBranchTx
      generalize withoutPopping
        (applyAndStore rules item.id
          item.block) switching = applied at stepped ⊢
      cases applied with
      | ok middle =>
          have pushed :=
            ih
              (fun other member =>
                insidePool (List.mem_cons_of_mem item member))
              stepped.between stepped.inside
          rw [← stepped.poppedTx]
          exact pushed
      | throw fault middle =>
          rw [← stepped.poppedTx]
          exact restoreBranchTx_spec (item :: later) fault free poolOk
            kept ok stepped.between stepped.inside

/-- The blocks that a push pops: `old` from the top of the chain down to
`base`, and then `undone` from a branch that was given up. -/
structure PoppedBlocks (known : Set (TrxBlock O H))
    (start : Switching O H W)
    (outcome : Outcome ChainFault (Switching O H W))
    (undone old base : List (TrxBlock O H)) : Prop where
  history : start.db.state.history = old.reverse ++ base
  givenUp :
    GivenUp known base
      (old.flatMap (fun block => block.body.transactions) ++
        start.poppedTx) outcome undone

theorem PoppedBlocks.nothing {outcome : Outcome ChainFault (Switching O H W)}
    (linked : Linked switching.db.state.history)
    (remains : switching.db.state.history <:+ outcome.state.db.state.history)
    (same : outcome.state.poppedTx = switching.poppedTx) :
    PoppedBlocks known switching outcome [] [] switching.db.state.history :=
  { history := rfl
    givenUp := GivenUp.nothing linked remains same }

theorem switchForksTx_spec (newBlock : TrxBlock O H)
    {newHead : ForkItem (Payload O H)} (free : CollisionFree known)
    (poolOk : ItemsOk known next pool) (kept : KeptBy rules known good)
    (isHead : switching.db.forkDb.head = some newHead)
    (between : Between known good pool next switching.db) :
    Between known good pool next
        (switchForksTx rules newBlock newHead switching).state.db ∧
      ∃ undone old base,
        PoppedBlocks known switching
          (switchForksTx rules newBlock newHead switching) undone old base := by
  unfold switchForksTx
  cases found : switching.db.forkDb.fetchBranchFrom newHead.id
      switching.db.headBlockId with
  | none =>
      exact
        ⟨between, [], [], _,
          PoppedBlocks.nothing (kept.ok _ between.current).linked (List.suffix_refl _)
            rfl⟩
  | some branches =>
      obtain ⟨first, second⟩ := branches
      obtain ⟨branches, _, _⟩ :=
        ForkDatabase.fetchBranchFrom_spec poolOk between.items found
      have heldInside :
          (⟨newBlock, newHead, first, second⟩ :
            Switch (Payload O H)).held ⊆ pool := by
        intro item member
        simp only [Switch.held, List.mem_cons, List.mem_append] at member
        rcases member with isNew | inFirst | inSecond
        · rw [isNew]
          exact between.items
            (ForkDatabase.mem_items.mpr (Or.inl isHead))
        · exact branches.firstIn inFirst
        · exact branches.secondIn inSecond
      simp only
      generalize isSwitch :
        (⟨newBlock, newHead, first, second⟩ : Switch (Payload O H)) =
          switch at heldInside ⊢
      obtain ⟨poppedBetween, _, old, pops⟩ :=
        popToTx_spec kept free poolOk heldInside between List.nil_suffix
          (Or.inl rfl)
      cases popsTo : popToTx switch.held switch.target switching with
      | throw fault after =>
          rw [popsTo] at poppedBetween pops
          refine ⟨poppedBetween, [], old, after.db.state.history, ?_⟩
          exact
            { history := pops.history
              givenUp :=
                GivenUp.nothing (kept.ok _ poppedBetween.current).linked
                  (List.suffix_refl _) pops.poppedTx }
      | ok after =>
          rw [popsTo, Outcome.state_ok] at poppedBetween pops
          have reached := popUntilTx_ok popsTo
          have switchOk : SwitchOk known pool after.db.state.history switch :=
            { held := heldInside
              known := poolOk.known
              target := reached.symm.trans (poppedBetween.headBlockId kept) }
          obtain ⟨pushedBetween, undone, givenUp⟩ :=
            pushBranchTx_spec free poolOk kept switchOk
              (fun item member =>
                branches.firstIn (List.mem_reverse.mp member))
              poppedBetween (List.suffix_refl _)
          refine
            ⟨pushedBetween, undone, old, after.db.state.history, ?_⟩
          rw [pops.poppedTx] at givenUp
          exact
            { history := pops.history
              givenUp := givenUp }

/-- The invariant between two pushes. -/
structure Ready (known : Set (TrxBlock O H)) (good : TrxState O H W → Prop)
    (db : ChainDatabase (Payload O H) (Objects O W)) : Prop where
  between :
    Between known good db.forkDb.items db.forkDb.nextAddress db
  items : ItemsOk known db.forkDb.nextAddress db.forkDb.items

theorem Between.ready {db : ChainDatabase (Payload O H) (Objects O W)}
    (between : Between known good pool next db)
    (poolOk : ItemsOk known next pool) : Ready known good db :=
  { between :=
      { between with
        items := List.Subset.refl _
        next := rfl }
    items := by
      rw [between.next]
      exact poolOk.subset between.items }

theorem pushLinearTx_spec {newBlock : TrxBlock O H}
    (kept : KeptBy rules known good) (isKnown : newBlock ∈ known)
    (ready : Ready known good switching.db) :
    Ready known good
        (withoutPopping
          (pushLinear rules newBlock)
          switching).state.db ∧
      PoppedBlocks known switching
        (withoutPopping
          (pushLinear rules newBlock)
          switching) [] [] switching.db.state.history := by
  obtain ⟨between, grows⟩ :=
    ready.between.applyAndStore kept newBlock.id isKnown
  have linear :
      Ready known good
          (pushLinear rules newBlock
            switching.db).state ∧
        switching.db.state.history <:+
          (pushLinear rules newBlock
            switching.db).state.state.history := by
    unfold pushLinear
    split
    · rename_i after returns
      rw [returns] at between grows
      exact ⟨between.ready ready.items, grows⟩
    · rename_i fault after throws
      rw [throws] at between grows
      refine ⟨(between.withFork ?_ ?_).ready ready.items, grows⟩
      · refine List.Subset.trans
          (ForkDatabase.remove_items_subset newBlock.id) ?_
        rw [List.append_nil]
        exact between.items
      · exact (ForkDatabase.remove_nextAddress newBlock.id).trans
          between.next
  refine ⟨?_, PoppedBlocks.nothing (kept.ok _ ready.between.current).linked ?_ ?_⟩
  · rw [withoutPopping_state]
    exact linear.1
  · rw [withoutPopping_state]
    exact linear.2
  · rw [withoutPopping_state]

/-- The one lemma about a push: it keeps the invariant, and collects the
transactions of the blocks that it pops. -/
theorem pushBlockTx_spec {newBlock : TrxBlock O H} (skipForkDb : Bool)
    (free : CollisionFree known) (kept : KeptBy rules known good)
    (isKnown : newBlock ∈ known) (ready : Ready known good switching.db) :
    Ready known good
        (pushBlockTx rules skipForkDb newBlock switching).state.db ∧
      ∃ undone old base,
        PoppedBlocks known switching
          (pushBlockTx rules skipForkDb newBlock switching) undone old base := by
  have nothing :
      ∀ outcome : Outcome ChainFault (Switching O H W),
        outcome.state.db.state = switching.db.state →
        outcome.state.poppedTx = switching.poppedTx →
        PoppedBlocks known switching outcome [] [] switching.db.state.history := by
    intro outcome sameState sameTx
    exact PoppedBlocks.nothing (kept.ok _ ready.between.current).linked
      (sameState ▸ List.suffix_refl _) sameTx
  unfold pushBlockTx
  split
  · obtain ⟨readyAfter, popped⟩ := pushLinearTx_spec kept isKnown ready
    exact ⟨readyAfter, _, _, _, popped⟩
  · cases pushed : switching.db.forkDb.pushBlock newBlock with
    | throw fault left => exact ⟨ready, _, _, _, nothing _ rfl rfl⟩
    | ok fork =>
        have items :=
          ForkDatabase.pushBlock_itemsOk ready.items isKnown pushed
        have readyFork :
            Ready known good { switching.db with forkDb := fork } :=
          { between :=
              { current := ready.between.current
                saved := ready.between.saved
                stepsDown := ready.between.stepsDown
                items := List.Subset.refl _
                next := rfl
                log := ready.between.log }
            items := items }
        simp only
        cases isHead : fork.head with
        | none =>
            obtain ⟨readyAfter, popped⟩ :=
              @pushLinearTx_spec O H W known rules good
                { switching with
                  db := { switching.db with forkDb := fork } }
                newBlock kept isKnown readyFork
            exact ⟨readyAfter, _, _, _, { popped with }⟩
        | some newHead =>
            simp only
            split
            · split
              · obtain ⟨between, undone, old, base, popped⟩ :=
                  @switchForksTx_spec O H W known rules good fork.items
                    fork.nextAddress
                    { switching with
                      db := { switching.db with forkDb := fork } }
                    newBlock newHead free items kept isHead
                    readyFork.between
                exact
                  ⟨between.ready items, undone, old, base,
                    { popped with }⟩
              · exact ⟨readyFork, _, _, _, nothing _ rfl rfl⟩
            · obtain ⟨readyAfter, popped⟩ :=
                @pushLinearTx_spec O H W known rules good
                  { switching with
                    db := { switching.db with forkDb := fork } }
                  newBlock kept isKnown readyFork
              exact ⟨readyAfter, _, _, _, { popped with }⟩

end Switching

end GxbCore.Chain
