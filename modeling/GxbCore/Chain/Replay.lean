import GxbCore.Chain.Reindex

/-!
# A replayed chain and the live one

The loop of `reindex` takes every block of a chain that was accepted with all
checks, whether it applies the block directly or pushes it through the fork
database.  All objects but the recent transactions end up the same.  Of these,
the ones missing are those of the blocks that came before the duplicate check
was switched on again.
-/

namespace GxbCore.Chain

variable {O H W : Type}

section Ready

variable {B X : Type} {rules : Rules B X} {db : ChainDatabase B X}
  {block : Block B} {after : ChainState B X}

structure ForkReady (undoPoint : Nat) (db : ChainDatabase B X) : Prop where
  sized : 0 < db.forkDb.maxSize
  head :
    db.forkDb.head = none ∨
      undoPoint ≤ db.headBlockNum ∧
      ∃ head, db.forkDb.head = some head ∧ head.id = db.headBlockId ∧
        ∃ item ∈ db.forkDb.index, item.id = db.headBlockId

theorem ForkDatabase.insertItem_has {fork : ForkDatabase B}
    (item : ForkItem B) :
    ∃ other ∈ (fork.insertItem item).index, other.id = item.id := by
  obtain ⟨other, member, same⟩ :
      ∃ other ∈ (if (fork.find item.id).isSome then fork.index
        else item :: fork.index), other.id = item.id := by
    by_cases isThere : (fork.find item.id).isSome
    · rw [if_pos isThere]
      obtain ⟨other, found⟩ := Option.isSome_iff_exists.mp isThere
      exact ⟨other, ForkDatabase.find_eq_some found⟩
    · rw [if_neg isThere]
      exact ⟨item, List.mem_cons_self, rfl⟩
  have sameNum : other.num = item.num := congrArg BlockId.num same
  refine ⟨other, ?_, same⟩
  unfold ForkDatabase.insertItem
  simp only
  split
  · exact member
  · split
    · exact List.mem_filter.mpr
        ⟨member, by simp only [decide_eq_true_eq]; omega⟩
    · exact member

theorem ForkReady.pushed {undoPoint : Nat} (ready : ForkReady undoPoint db)
    (builds : block.previous = db.headBlockId) :
    ∃ prev,
      db.forkDb.pushBlock block =
        .ok (db.forkDb.insertItem ⟨db.forkDb.nextAddress, prev, block⟩) ∧
      (db.forkDb.insertItem ⟨db.forkDb.nextAddress, prev, block⟩).head =
        some ⟨db.forkDb.nextAddress, prev, block⟩ := by
  rcases ready.head with none | ⟨_, head, isHead, headId, item, member, same⟩
  · refine ⟨.none, ?_, ?_⟩
    · simp only [ForkDatabase.pushBlock, none]
    · simp only [ForkDatabase.insertItem_head, none]
  · have headNum : head.num + 1 = block.num := by
      have number := congrArg BlockId.num headId
      rw [Block.num, builds, ← number]
      rfl
    have notTooOld : ¬ block.num ≤ head.num - db.forkDb.maxSize := by
      omega
    have notFirst : block.previous ≠ .zero := by
      rw [builds, ← headId]
      exact head.block.id_ne_zero
    cases found : db.forkDb.find block.previous with
    | none =>
        have missing := List.find?_eq_none.mp found item member
        rw [builds] at missing
        simp [same] at missing
    | some parent =>
        refine ⟨some parent.address, ?_, ?_⟩
        · simp only [ForkDatabase.pushBlock, isHead, if_neg notTooOld,
            if_neg notFirst, found]
        · have higher :
              head.num <
                (⟨db.forkDb.nextAddress, some parent.address, block⟩ :
                  ForkItem B).num :=
            Nat.lt_of_succ_le (Nat.le_of_eq headNum)
          simp only [ForkDatabase.insertItem_head, isHead, if_pos higher]

/-- `push_block` of a block that applies on the head. -/
theorem ForkReady.pushBlock {undoPoint : Nat}
    (ready : ForkReady undoPoint db) (high : undoPoint ≤ block.num)
    (applies : applyState rules block db.state = .ok after) :
    ∃ next,
      Chain.pushBlock rules false block db = .ok next ∧
      next.state = after ∧
      next.blockLog = db.blockLog.store block.id block ∧
      ForkReady undoPoint next := by
  have extended := applyState_extends applies
  obtain ⟨prev, pushed, isHead⟩ := ready.pushed extended.previous
  have linear :
      Chain.pushBlock rules false block db =
        pushLinear rules block
          { db with
            forkDb :=
              db.forkDb.insertItem
                ⟨db.forkDb.nextAddress, prev, block⟩ } := by
    simp [Chain.pushBlock, pushed, isHead, extended.previous]
  rcases applyAndStore_cases rules block.id block
      { db with
        forkDb :=
          db.forkDb.insertItem ⟨db.forkDb.nextAddress, prev, block⟩ } with
    ⟨next, returns, applied⟩ | ⟨_, _, _, refused⟩
  · have nextState : next.state = after :=
      (Except.ok.inj (applied.applies.symm.trans applies))
    have nextHead : next.headBlockId = block.id := by
      have same := extended.headId
      rw [← nextState] at same
      exact same
    have nextNum : next.headBlockNum = block.num := by
      have same := extended.headNum
      rw [← nextState] at same
      exact same
    refine ⟨next, ?_, nextState, applied.blockLog, ?_, ?_⟩
    · rw [linear, pushLinear, returns]
    · rw [applied.forkDb]
      refine sizedFork_maxSize_pos block db.state ?_
      rw [ForkDatabase.insertItem_maxSize]
      exact ready.sized
    · refine Or.inr ⟨high.trans (Nat.le_of_eq nextNum.symm),
        ⟨db.forkDb.nextAddress, prev, block⟩, ?_, nextHead.symm, ?_⟩
      · rw [applied.forkDb, sizedFork_head]
        exact isHead
      · obtain ⟨item, member, same⟩ :=
          @ForkDatabase.insertItem_has B db.forkDb
            ⟨db.forkDb.nextAddress, prev, block⟩
        refine ⟨item, ?_, same.trans nextHead.symm⟩
        rw [applied.forkDb]
        have sameNum : block.num = item.num :=
          (congrArg BlockId.num same).symm
        exact mem_sizedFork isHead member
          (Nat.le_succ_of_le (Nat.le_of_eq sameNum))
  · exact absurd applies (refused.refused after)

/-- `apply_block` without a session, before the fork database is in use. -/
theorem applyBlock_ready (undoPoint : Nat) (noHead : db.forkDb.head = none)
    (applies : applyState rules block db.state = .ok after) :
    ∃ next,
      applyBlock rules block db = .ok next ∧
      next.state = after ∧ next.blockLog = db.blockLog ∧
      ForkReady undoPoint next := by
  unfold applyState at applies
  split at applies
  · cases applies
  · rename_i begun begins
    refine
      ⟨{ setSizes begun db with
          objects := (setSizes begun db).objects.write after }, ?_, rfl,
        rfl, ?_, Or.inl ?_⟩
    · simp only [applyBlock, begins, applies]
    · have size :
          0 < (db.forkDb.setMaxSize (forkMaxSize begun db.forkDb)).maxSize := by
        rw [ForkDatabase.setMaxSize_maxSize]
        exact Nat.succ_pos _
      exact size
    · have head :
          (db.forkDb.setMaxSize (forkMaxSize begun db.forkDb)).head =
            none := by
        rw [ForkDatabase.setMaxSize_head, noHead]
      exact head

/-- A block of the log is applied without a session below the undo point, and
pushed from there on. -/
theorem ForkReady.replayBlock {undoPoint : Nat} {later : List (Block B)}
    (ready : ForkReady undoPoint db) (number : block.num = db.headBlockNum + 1)
    (logged : LogHas (block :: later) db.blockLog)
    (applies : applyState rules block db.state = .ok after) :
    ∃ next,
      (if block.num < undoPoint then applyBlock rules block db
        else Chain.pushBlock rules false block db) = .ok next ∧
      next.state = after ∧ LogHas later next.blockLog ∧
      ForkReady undoPoint next := by
  by_cases early : block.num < undoPoint
  · rw [if_pos early]
    have noHead : db.forkDb.head = none := by
      rcases ready.head with noHead | ⟨high, _⟩
      · exact noHead
      · omega
    obtain ⟨next, returns, state, log, nextReady⟩ :=
      applyBlock_ready undoPoint noHead applies
    refine ⟨next, returns, state, ?_, nextReady⟩
    rw [log]
    exact fun other member =>
      logged other (List.mem_cons_of_mem block member)
  · rw [if_neg early]
    obtain ⟨next, returns, state, log, nextReady⟩ :=
      ready.pushBlock (by omega) applies
    refine ⟨next, returns, state, ?_, nextReady⟩
    rw [log]
    intro other member
    have inLog := logged other (List.mem_cons_of_mem block member)
    rw [BlockLog.store_own]
    split
    · rename_i same
      rw [same, logged block List.mem_cons_self] at inLog
      exact inLog
    · exact inLog

end Ready

section Loop

variable {evaluators : Evaluators O H W} {lastTime : UInt32}
  {blocks : List (TrxBlock O H)} {live final : TrxState O H W}

/-- What a node with all checks on does to a block. -/
abbrev liveRules (evaluators : Evaluators O H W) :
    Rules (Payload O H) (Objects O W) :=
  trxRules evaluators [] skipNothing

/-- The transactions of the blocks that are replayed without recording, if the
replay starts in this state of the live chain. -/
def unrecorded (evaluators : Evaluators O H W) (lastTime : UInt32) :
    Bool → TrxState O H W → List (TrxBlock O H) → List (Transaction O)
  | _, _, [] => []
  | skipDupeCheck, live, block :: later =>
      let skipDupeCheck :=
        skipDupeCheck && !nearTheEnd evaluators lastTime live
      (if skipDupeCheck then block.body.transactions else []) ++
        match applyState (liveRules evaluators) block live with
        | .error _ => []
        | .ok after => unrecorded evaluators lastTime skipDupeCheck after later

theorem applyAll_cons_eq_some {B X : Type} {rules : Rules B X} {block : Block B}
    {later : List (Block B)} {state last : ChainState B X}
    (applies : applyAll rules (block :: later) state = some last) :
    ∃ after, applyState rules block state = .ok after ∧
      applyAll rules later after = some last := by
  unfold applyAll at applies
  split at applies
  · cases applies
  · rename_i after applied
    exact ⟨after, applied, applies⟩

theorem applyAll_time
    (applies : applyAll (liveRules evaluators) blocks live = some final) :
    live.rest.headBlockTime ≤ final.rest.headBlockTime ∧
      ∀ block ∈ blocks,
        block.body.timestamp ≤ final.rest.headBlockTime := by
  induction blocks generalizing live with
  | nil =>
      cases applies
      exact ⟨UInt32.le_refl _, by simp⟩
  | cons block later ih =>
      obtain ⟨after, applied, rest⟩ := applyAll_cons_eq_some applies
      obtain ⟨middle, maintained, finished, course⟩ :=
        (applyState_trxRules rfl).mp applied
      obtain ⟨timeAfter, others⟩ := ih rest
      rw [course.index.1] at timeAfter
      refine ⟨UInt32.le_trans (UInt32.le_of_lt course.later) timeAfter,
        ?_⟩
      intro other member
      rcases List.mem_cons.mp member with same | inLater
      · rw [same]
        exact timeAfter
      · exact others other inLater

theorem nearTheEnd_of_view {replayed : TrxState O H W}
    (view : replayed.view = live.view) :
    nearTheEnd evaluators lastTime replayed =
      nearTheEnd evaluators lastTime live := by
  obtain ⟨_, _, _, _, _, time, world, _⟩ := view_eq_iff.mp view
  unfold nearTheEnd
  rw [time, world]

/-- The loop of `reindex` over the blocks of a live chain. -/
theorem reindexFrom_spec {undoPoint : Nat} {skipDupeCheck : Bool}
    {missing : List (Transaction O)}
    {db : ChainDatabase (Payload O H) (Objects O W)}
    (relaxed : RelaxesChecks evaluators)
    (applies : applyAll (liveRules evaluators) blocks live = some final)
    (ends : final.rest.headBlockTime = lastTime)
    (numbered : live.headBlockId.num = live.headBlockNum)
    (agrees : Agrees lastTime live db.state missing)
    (logged : LogHas blocks db.blockLog) (ready : ForkReady undoPoint db) :
    ∃ result,
      reindexFrom evaluators [] lastTime undoPoint blocks.length
        skipDupeCheck (live.headBlockNum + 1) db = .ok result ∧
      Agrees lastTime final result.state
        (missing ++
          unrecorded evaluators lastTime skipDupeCheck live blocks) := by
  induction blocks generalizing live db skipDupeCheck missing with
  | nil =>
      cases applies
      refine ⟨db, rfl, ?_⟩
      rw [unrecorded, List.append_nil]
      exact agrees
  | cons block later ih =>
      have notLater : block.body.timestamp ≤ lastTime := by
        rw [← ends]
        exact (applyAll_time applies).2 block List.mem_cons_self
      obtain ⟨after, applied, rest⟩ := applyAll_cons_eq_some applies
      have extended := applyState_extends applied
      have number : block.num = live.headBlockNum + 1 := by
        rw [Block.num, extended.previous, numbered]
      have entry := logged block List.mem_cons_self
      have fetched : db.blockLog.fetchByNumber block.num = some block := by
        simp [BlockLog.fetchByNumber, entry]
      -- the replayed block, under the flags of this round
      obtain ⟨replayed, appliesAgain, agreesAfter⟩ :=
        @Agrees.step O H W evaluators live db.state
          (skipDupeCheck && !nearTheEnd evaluators lastTime live)
          lastTime block after missing relaxed agrees notLater applied
      have sameNum : db.headBlockNum = live.headBlockNum :=
        (view_eq_iff.mp agrees.view).1
      obtain ⟨next, returns, state, logs, nextReady⟩ :=
        ready.replayBlock (by rw [number, sameNum]) logged appliesAgain
      have afterNum : after.headBlockNum = block.num := extended.headNum
      obtain ⟨result, loops, agreesFinal⟩ :=
        @ih after
          (skipDupeCheck && !nearTheEnd evaluators lastTime live) _ next
          rest
          (by rw [extended.headId, extended.headNum]; rfl)
          (state ▸ agreesAfter) logs nextReady
      refine ⟨result, ?_, ?_⟩
      · simp only [List.length_cons, reindexFrom, ← number, fetched,
          nearTheEnd_of_view agrees.view, returns]
        rw [← afterNum]
        exact loops
      · simp only [unrecorded, applied, ← List.append_assoc]
        exact agreesFinal

end Loop

section Live

variable {B X : Type} {rules : Rules B X} {known : Set (Block B)}
  {db last : ChainDatabase B X} {blocks : List (Block B)}

/-- Blocks pushed one after the other, each of which extends the chain.  Pending
transactions come and go between two of them. -/
inductive Accepted (rules : Rules B X) (known : Set (Block B)) :
    ChainDatabase B X → List (Block B) → ChainDatabase B X → Prop
  | nil {db : ChainDatabase B X} : Accepted rules known db [] db
  | push {db next last : ChainDatabase B X} {block : Block B}
      {later : List (Block B)} (isKnown : block ∈ known)
      (returns : pushBlock rules false block db = .ok next)
      (grows : next.state.history = block :: db.state.history)
      (rest : Accepted rules known next later last) :
      Accepted rules known db (block :: later) last
  | pending {db last : ChainDatabase B X} {later : List (Block B)}
      (count : Nat)
      (rest :
        Accepted rules known
          { db with
            objects :=
              ⟨db.state, db.objects.saved.take count,
                db.objects.limit⟩ }
          later last) :
      Accepted rules known db later last

/-- A push that makes the chain longer by its block has applied the block on the
head, even if it went through a switch. -/
theorem pushBlock_applies {next : ChainDatabase B X} {block : Block B}
    (free : CollisionFree known) (ok : DatabaseOk known rules db)
    (isKnown : block ∈ known)
    (returns : pushBlock rules false block db = .ok next)
    (grows : next.state.history = block :: db.state.history) :
    applyState rules block db.state = .ok next.state := by
  have linear :
      ∀ start : ChainDatabase B X, start.state = db.state →
        pushLinear rules block start = .ok next →
        applyState rules block db.state = .ok next.state := by
    intro start sameState pushes
    rcases applyAndStore_cases rules block.id block start with
      ⟨after, applies, applied⟩ | ⟨fault, after, throws, _⟩
    · simp only [pushLinear, applies, Outcome.ok.injEq] at pushes
      rw [← pushes, ← sameState]
      exact applied.applies
    · simp only [pushLinear, throws] at pushes
      cases pushes
  have course := pushBlock_cases rules false block db
  rw [returns] at course
  generalize outcomeIs : (Outcome.ok next :
    Outcome ChainFault (ChainDatabase B X)) = outcome at course
  cases course with
  | skipped isSkipped => exact linear db rfl outcomeIs.symm
  | refused fault left refuses => cases outcomeIs
  | kept fork newHead pushed head elsewhere notHigher =>
      obtain rfl := Outcome.ok.inj outcomeIs
      have lengths := congrArg List.length grows
      rw [List.length_cons] at lengths
      exact absurd lengths (Nat.ne_of_lt (Nat.lt_succ_self _))
  | linear fork newHead pushed head builds =>
      exact linear { db with forkDb := fork } rfl outcomeIs.symm
  | switched fork newHead notSkipped attempts =>
      have okPushed := ok.push isKnown attempts.pushed
      cases found :
          fork.fetchBranchFrom newHead.id db.headBlockId with
      | none =>
          simp only [switchForks, found] at outcomeIs
          cases outcomeIs
      | some branches =>
          obtain ⟨first, second⟩ := branches
          obtain ⟨older, switch, switchIs, shape, courses⟩ :=
            switchForks_cases block free okPushed attempts.head
              attempts.higher found
          rcases courses with ⟨below, point, goesOn⟩ |
            ⟨count, fault, left, throws, _⟩
          · rw [goesOn] at outcomeIs
            rcases applyAll_cases rules switch.first.reverse
                below.state with
              ⟨reached, applies⟩ |
              ⟨good, bad, later, reached, parts, applies, refused⟩
            · -- the new branch is the old one and the block
              obtain ⟨middle, loops, middleState, _⟩ :=
                forEach_applyAndStore ForkItem.id applies
              have whole := pushBranch_append switch [] loops
              rw [List.append_nil, ← outcomeIs] at whole
              have isMiddle : next = middle := Outcome.ok.inj whole
              have nextState : next.state = reached := by
                rw [isMiddle]
                exact middleState
              have histories := applyAll_history applies
              have oldHistory : db.state.history = _ := shape
              rw [← nextState, grows, oldHistory, point.history,
                List.map_reverse, List.reverse_reverse,
                ← List.cons_append] at histories
              have branch := List.append_cancel_right histories
              rw [List.map_reverse, ← branch, List.reverse_cons,
                ← List.map_reverse, applyAll_append,
                point.replays] at applies
              obtain ⟨after, applied, ends⟩ :=
                applyAll_cons_eq_some applies
              obtain rfl := Option.some.inj ends
              rw [nextState]
              exact applied
            · have knownGood : ∀ item ∈ good, item.block ∈ known := by
                intro item member
                refine point.switchOk.known item
                  (point.switchOk.first_subset ?_)
                rw [← List.mem_reverse, parts]
                exact List.mem_append_left _ member
              rw [parts] at outcomeIs
              rcases pushBranch_failed point.objects point.history
                  point.switchOk.target knownGood applies refused
                  point.replays with
                ⟨_, fault, final, throws, _⟩ |
                ⟨_, _, _, _, fault, final, throws, _⟩
              · rw [throws] at outcomeIs
                cases outcomeIs
              · rw [throws] at outcomeIs
                cases outcomeIs
          · rw [throws] at outcomeIs
            cases outcomeIs

theorem Accepted.applyAll (free : CollisionFree known)
    (accepted : Accepted rules known db blocks last)
    (ok : DatabaseOk known rules db) :
    Chain.applyAll rules blocks db.state = some last.state ∧
      DatabaseOk known rules last := by
  induction accepted with
  | nil => exact ⟨rfl, ok⟩
  | push isKnown returns grows rest ih =>
      have applied := pushBlock_applies free ok isKnown returns grows
      have okNext := pushBlock_databaseOk free false ok isKnown
      rw [returns, Outcome.state_ok] at okNext
      obtain ⟨others, okLast⟩ := ih okNext
      refine ⟨?_, okLast⟩
      simp only [Chain.applyAll, applied]
      exact others
  | pending count rest ih =>
      exact ih
        { objects := ok.objects.take count _
          items := ok.items }

end Live

end GxbCore.Chain
