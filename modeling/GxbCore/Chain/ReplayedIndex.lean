import GxbCore.Chain.Replay

/-!
# When a replay finds the recent transactions again

The duplicate check is switched on again when the head block time has reached
the time of the last block less `maximum_time_until_expiration`.  A transaction
that is still alive at the last block then was accepted later than that, except
in two cases: the first block is not checked for expiration, and the subtraction
wraps around when the parameter is larger than the time itself.
-/

namespace GxbCore.Chain

variable {O H W : Type} {evaluators : Evaluators O H W}
  {lastTime : UInt32} {live : TrxState O H W}

/-- The operations of a transaction leave the chain parameter alone; only
maintenance sets it. -/
def KeepsExpirationLimit (evaluators : Evaluators O H W) : Prop :=
  ∀ flags view trx world,
    evaluators.applyOperations flags view trx = .ok world →
    evaluators.maximumTimeUntilExpiration world =
      evaluators.maximumTimeUntilExpiration view.rest.2

/-- All transactions of the block are expired at the end; or it is the first
block and already near the end; or the parameter is not larger than the time of
the last block. -/
def FoundAgain (evaluators : Evaluators O H W) (lastTime : UInt32)
    (live : TrxState O H W) (block : TrxBlock O H) : Prop :=
  (∀ trx ∈ block.body.transactions, trx.expiration < lastTime) ∨
    if live.headBlockNum = 0 then
      nearTheEnd evaluators lastTime live = true
    else
      evaluators.maximumTimeUntilExpiration live.rest.world ≤ lastTime

/-- This holds of every block before the check is switched on again. -/
def AllFoundAgain (evaluators : Evaluators O H W) (lastTime : UInt32) :
    Bool → TrxState O H W → List (TrxBlock O H) → Prop
  | _, _, [] => True
  | skipDupeCheck, live, block :: later =>
      (skipDupeCheck = true →
        FoundAgain evaluators lastTime live block) ∧
      ∀ after, applyState (liveRules evaluators) block live = .ok after →
        AllFoundAgain evaluators lastTime
          (skipDupeCheck && !nearTheEnd evaluators lastTime live) after
          later

/-- Every transaction of a block was in time for the head block, with the
parameter at the start of the block. -/
theorem applyTransactions_inTime {transactions : List (Transaction O)}
    {after : TrxState O H W} (keeps : KeepsExpirationLimit evaluators)
    (returns :
      applyTransactions evaluators skipNothing transactions live =
        .ok after)
    (notFirst : live.headBlockNum ≠ 0) :
    ∀ trx ∈ transactions,
      trx.expiration ≤
          live.rest.headBlockTime +
            evaluators.maximumTimeUntilExpiration live.rest.world ∧
        live.rest.headBlockTime ≤ trx.expiration := by
  induction transactions generalizing live with
  | nil => simp
  | cons trx rest ih =>
      unfold applyTransactions at returns
      rw [List.foldlM_cons] at returns
      obtain ⟨middle, first, later⟩ := bind_eq_ok.mp returns
      have applied := applyTransaction_eq_ok.mp first
      obtain ⟨world, operations, rfl⟩ := applied.operations
      have others := ih later notFirst
      rw [keeps _ _ _ _ operations] at others
      intro other member
      rcases List.mem_cons.mp member with same | inRest
      · rw [same]
        exact
          ⟨applied.notTooLate.resolve_left notFirst,
            applied.notExpired.resolve_left notFirst⟩
      · exact others other inRest

/-- A transaction that is alive at the end was accepted near the end, unless
the subtraction wraps around. -/
theorem nearTheEnd_of_alive {now limit expiration : UInt32}
    (notTooLate : expiration ≤ now + limit) (notExpired : now ≤ expiration)
    (alive : lastTime ≤ expiration) (fits : limit ≤ lastTime) :
    lastTime - limit ≤ now := by
  rw [UInt32.le_iff_toNat_le] at *
  rw [UInt32.toNat_sub]
  rw [UInt32.toNat_add] at notTooLate
  have bound := lastTime.toNat_lt
  have nowBound := now.toNat_lt
  have limitBound := limit.toNat_lt
  omega

theorem not_nearTheEnd_of_wrap {now limit : UInt32}
    (before : now < lastTime) (near : lastTime - limit ≤ now) :
    limit ≤ lastTime := by
  rw [UInt32.le_iff_toNat_le] at near ⊢
  rw [UInt32.lt_iff_toNat_lt] at before
  rw [UInt32.toNat_sub] at near
  have bound := lastTime.toNat_lt
  have limitBound := limit.toNat_lt
  omega

/-- The condition on a block, in terms of what `reindex` does at it. -/
theorem foundAgain_iff {block : TrxBlock O H} {after : TrxState O H W}
    (keeps : KeepsExpirationLimit evaluators)
    (applied : applyState (liveRules evaluators) block live = .ok after)
    (notLater : block.body.timestamp ≤ lastTime) :
    FoundAgain evaluators lastTime live block ↔
      (∀ trx ∈ block.body.transactions, ¬ lastTime ≤ trx.expiration) ∨
        nearTheEnd evaluators lastTime live = true := by
  obtain ⟨middle, maintained, finished, course⟩ :=
    (applyState_trxRules rfl).mp applied
  have expired :
      (∀ trx ∈ block.body.transactions, trx.expiration < lastTime) ↔
        ∀ trx ∈ block.body.transactions,
          ¬ lastTime ≤ trx.expiration := by
    simp only [UInt32.not_le]
  unfold FoundAgain
  rw [expired]
  by_cases allExpired :
      ∀ trx ∈ block.body.transactions, ¬ lastTime ≤ trx.expiration
  · exact iff_of_true (Or.inl allExpired) (Or.inl allExpired)
  · by_cases isFirst : live.headBlockNum = 0
    · rw [if_pos isFirst]
    · rw [if_neg isFirst]
      simp only [allExpired, false_or]
      push Not at allExpired
      obtain ⟨trx, member, alive⟩ := allExpired
      obtain ⟨notTooLate, notExpired⟩ :=
        applyTransactions_inTime keeps course.transactions isFirst trx
          member
      simp only [nearTheEnd, decide_eq_true_eq]
      constructor
      · exact nearTheEnd_of_alive notTooLate notExpired alive
      · exact not_nearTheEnd_of_wrap
          (UInt32.lt_of_lt_of_le course.later notLater)

variable {blocks : List (TrxBlock O H)} {final : TrxState O H W}

theorem allFoundAgain_iff {skipDupeCheck : Bool}
    (keeps : KeepsExpirationLimit evaluators)
    (applies : applyAll (liveRules evaluators) blocks live = some final)
    (ends : final.rest.headBlockTime = lastTime) :
    AllFoundAgain evaluators lastTime skipDupeCheck live blocks ↔
      ∀ trx ∈ unrecorded evaluators lastTime skipDupeCheck live blocks,
        ¬ lastTime ≤ trx.expiration := by
  induction blocks generalizing live skipDupeCheck with
  | nil => simp [AllFoundAgain, unrecorded]
  | cons block later ih =>
      have notLater : block.body.timestamp ≤ lastTime := by
        rw [← ends]
        exact (applyAll_time applies).2 block List.mem_cons_self
      obtain ⟨after, applied, rest⟩ := applyAll_cons_eq_some applies
      have others :=
        @ih after
          (skipDupeCheck && !nearTheEnd evaluators lastTime live) rest
      have here := foundAgain_iff keeps applied notLater
      simp only [AllFoundAgain, unrecorded, applied, Except.ok.injEq,
        forall_eq', here, others, List.mem_append, or_imp,
        forall_and]
      refine and_congr_left' ?_
      cases skipDupeCheck with
      | false => simp
      | true =>
          cases near : nearTheEnd evaluators lastTime live with
          | true => simp
          | false => simp

/-- The ids that are known after a replay are those of the live node exactly when
no transaction that is alive is missing. -/
theorem Agrees.known_iff {replayed : TrxState O H W}
    {missing : List (Transaction O)}
    (agrees : Agrees lastTime live replayed missing)
    (current : ∀ trx ∈ live.rest.transactionIndex, lastTime ≤ trx.expiration) :
    (∀ id, isKnownTransaction replayed id = isKnownTransaction live id) ↔
      ∀ trx ∈ missing, ¬ lastTime ≤ trx.expiration := by
  have isKnown :
      ∀ (state : TrxState O H W) id,
        isKnownTransaction state id = true ↔
          ∃ trx ∈ state.rest.transactionIndex, trx.id = id := by
    intro state id
    simp [isKnownTransaction]
  constructor
  · intro same trx isMissing alive
    obtain ⟨inLive, notReplayed⟩ := agrees.missing trx isMissing alive
    have knownLive := (isKnown live trx.id).mpr ⟨trx, inLive, rfl⟩
    rw [← same] at knownLive
    obtain ⟨other, inReplayed, sameId⟩ :=
      (isKnown replayed trx.id).mp knownLive
    have isTrx : other = trx :=
      agrees.distinct.eq (agrees.inLive other inReplayed) inLive sameId
    exact notReplayed (isTrx ▸ inReplayed)
  · intro noneMissing id
    rw [Bool.eq_iff_iff, isKnown, isKnown]
    constructor
    · rintro ⟨trx, member, same⟩
      exact ⟨trx, agrees.inLive trx member, same⟩
    · rintro ⟨trx, member, same⟩
      have alive := current trx member
      rcases agrees.alive trx member alive with isThere | isMissing
      · exact ⟨trx, isThere, same⟩
      · exact absurd alive (noneMissing trx isMissing)

/-- The index of a live chain: the ids are different, and after a block nothing
in it is expired. -/
theorem applyAll_index (relaxed : RelaxesChecks evaluators)
    (distinct : DistinctIds live.rest.transactionIndex)
    (current :
      ∀ trx ∈ live.rest.transactionIndex,
        live.rest.headBlockTime ≤ trx.expiration)
    (applies : applyAll (liveRules evaluators) blocks live = some final) :
    DistinctIds final.rest.transactionIndex ∧
      ∀ trx ∈ final.rest.transactionIndex,
        final.rest.headBlockTime ≤ trx.expiration := by
  induction blocks generalizing live with
  | nil =>
      cases applies
      exact ⟨distinct, current⟩
  | cons block later ih =>
      obtain ⟨after, applied, rest⟩ := applyAll_cons_eq_some applies
      obtain ⟨middle, maintained, finished, course⟩ :=
        (applyState_trxRules rfl).mp applied
      obtain ⟨time, index⟩ := course.index
      have distinctAll :=
        (@applyTransactions_replays O H W evaluators live live false
          block.body.transactions middle relaxed rfl distinct
          (fun _ member => member) course.transactions).2
      refine ih ?_ ?_ rest
      · rw [index]
        exact List.Nodup.sublist
          (List.Sublist.map _ List.filter_sublist) distinctAll
      · rw [index, time]
        intro trx member
        exact (mem_clearExpiredTransactions.mp member).2

/-- The objects that were written to disk at some block of the live chain, with
at least the transactions that will be alive at the end. -/
structure FlushedState (lastTime : UInt32) (live : TrxState O H W)
    (db : ChainDatabase (Payload O H) (Objects O W)) : Prop where
  view : db.state.view = live.view
  inLive :
    ∀ trx ∈ db.state.rest.transactionIndex,
      trx ∈ live.rest.transactionIndex
  alive :
    ∀ trx ∈ live.rest.transactionIndex, lastTime ≤ trx.expiration →
      trx ∈ db.state.rest.transactionIndex
  forkDb : db.forkDb = .empty

/-- The start of `reindex`: the fork database is empty, or starts at the head
block. -/
theorem reindex_starts {known : Set (TrxBlock O H)}
    {db : ChainDatabase (Payload O H) (Objects O W)} {last : TrxBlock O H}
    (ok : StateOk known live) (start : FlushedState lastTime live db)
    (logged : LogHas live.history db.blockLog)
    (more : db.headBlockNum < last.num) :
    ∃ started : ChainDatabase (Payload O H) (Objects O W),
      reindex evaluators [] (some last) db =
        reindexFrom evaluators [] last.body.timestamp (last.num - 50)
          (last.num - db.headBlockNum) true (db.headBlockNum + 1)
          started ∧
      started.objects = db.objects ∧ started.blockLog = db.blockLog ∧
      ForkReady (last.num - 50) started := by
  obtain ⟨sameNum, sameId, _⟩ := view_eq_iff.mp start.view
  have notDone : ¬ last.num ≤ db.headBlockNum := Nat.not_le.mpr more
  by_cases late : last.num - 50 ≤ db.headBlockNum ∧ 0 < db.headBlockNum
  · obtain ⟨block, older, history⟩ :
        ∃ block older, live.history = block :: older := by
      have number := ok.headNum
      rw [← sameNum] at number
      cases isHistory : live.history with
      | nil =>
          rw [isHistory] at number
          exact absurd number (Nat.ne_of_gt late.2)
      | cons block older => exact ⟨block, older, rfl⟩
    have headId : db.headBlockId = block.id := by
      have same := ok.headId
      rw [history] at same
      exact sameId.trans same
    have headNum : db.headBlockNum = block.num := by
      have linked := ok.linked
      have number := ok.headNum
      rw [history] at linked number
      rw [linked.head_num]
      exact sameNum.trans number
    have entry := logged block (by rw [history]; exact List.mem_cons_self)
    have fetched : fetchBlockByNumber db db.headBlockNum = some block := by
      have noItems : db.forkDb.index = [] := by
        rw [start.forkDb]
        rfl
      simp [fetchBlockByNumber, noItems, headNum,
        BlockLog.fetchByNumber, entry]
    refine ⟨{ db with forkDb := db.forkDb.startBlock block }, ?_, rfl,
      rfl, ?_, Or.inr ⟨late.1, ⟨_, none, block⟩, rfl, headId.symm, ?_⟩⟩
    · simp only [reindex, if_neg notDone, if_pos late, fetched]
    · rw [start.forkDb]
      exact Nat.succ_pos _
    · exact ⟨_, List.mem_cons_self, headId.symm⟩
  · refine ⟨db, ?_, rfl, rfl, ?_, Or.inl ?_⟩
    · simp only [reindex, if_neg notDone, if_neg late]
    · rw [start.forkDb]
      exact Nat.succ_pos _
    · rw [start.forkDb]
      rfl

theorem applyAll_last_time {last : TrxBlock O H}
    (applies : applyAll (liveRules evaluators) blocks live = some final)
    (isLast : blocks.getLast? = some last) :
    final.rest.headBlockTime = last.body.timestamp := by
  obtain ⟨before, rfl⟩ := List.getLast?_eq_some_iff.mp isLast
  rw [applyAll_append] at applies
  obtain ⟨middle, _, ends⟩ := Option.bind_eq_some_iff.mp applies
  obtain ⟨after, applied, same⟩ := applyAll_cons_eq_some ends
  obtain rfl := Option.some.inj same
  obtain ⟨_, _, _, course⟩ := (applyState_trxRules rfl).mp applied
  exact course.index.1

/-- For every chain that was accepted block by block with all checks and every
state of it that was written to disk, `reindex` returns, with the same objects
in all other indexes, and with the same recent transactions exactly when those
of the blocks replayed without recording are all found again. -/
theorem replay_equals_live {known : Set (TrxBlock O H)}
    {origin middle live db : ChainDatabase (Payload O H) (Objects O W)}
    {earlier later : List (TrxBlock O H)} {last : TrxBlock O H}
    (free : CollisionFree known) (relaxed : RelaxesChecks evaluators)
    (keeps : KeepsExpirationLimit evaluators)
    (opened : Opened known origin)
    (noBlocks : origin.state.history = [])
    (noTransactions : origin.state.rest.transactionIndex = [])
    (first : Accepted (liveRules evaluators) known origin earlier middle)
    (second : Accepted (liveRules evaluators) known middle later live)
    (isLast : (earlier ++ later).getLast? = some last)
    (start : FlushedState last.body.timestamp middle.state db)
    (logged : LogHas (earlier ++ later) db.blockLog) :
    ∃ result,
      reindex evaluators [] (some last) db = .ok result ∧
      result.state.view = live.state.view ∧
      ((∀ id,
          isKnownTransaction result.state id =
            isKnownTransaction live.state id) ↔
        AllFoundAgain evaluators last.body.timestamp true middle.state
          later) := by
  obtain ⟨firstApplies, okMiddle⟩ :=
    first.applyAll free opened.databaseOk
  obtain ⟨secondApplies, okLive⟩ := second.applyAll free okMiddle
  have allApply :
      applyAll (liveRules evaluators) (earlier ++ later) origin.state =
        some live.state := by
    rw [applyAll_append, firstApplies]
    exact secondApplies
  have liveTime := applyAll_last_time allApply isLast
  obtain ⟨distinctMiddle, currentMiddle⟩ :=
    applyAll_index relaxed (by rw [noTransactions]; exact List.nodup_nil)
      (by simp [noTransactions]) firstApplies
  obtain ⟨_, currentLive⟩ :=
    applyAll_index relaxed distinctMiddle currentMiddle secondApplies
  rw [liveTime] at currentLive
  have agrees :
      Agrees last.body.timestamp middle.state db.state [] :=
    { view := start.view
      distinct := distinctMiddle
      inLive := start.inLive
      alive := fun trx member alive =>
        Or.inl (start.alive trx member alive)
      missing := by simp }
  have middleHistory : middle.state.history = earlier.reverse := by
    rw [applyAll_history firstApplies, noBlocks, List.append_nil]
  have middleNum : db.headBlockNum = earlier.length := by
    have sameNum : db.headBlockNum = middle.headBlockNum :=
      (view_eq_iff.mp start.view).1
    rw [sameNum, okMiddle.objects.headBlockNum_eq, middleHistory,
      List.length_reverse]
  have lastNum : last.num = earlier.length + later.length := by
    have liveHistory : live.state.history = (earlier ++ later).reverse := by
      rw [applyAll_history allApply, noBlocks, List.append_nil]
    have linked := okLive.objects.current.linked
    obtain ⟨before, shape⟩ := List.getLast?_eq_some_iff.mp isLast
    have histories : live.objects.current.history = _ := liveHistory
    rw [histories, shape, List.reverse_append] at linked
    have number : last.num = before.reverse.length + 1 := linked.head_num
    have lengths := congrArg List.length shape
    simp only [List.length_append, List.length_singleton] at lengths
    rw [number, List.length_reverse, lengths]
  have headNumbered :
      middle.state.headBlockId.num = middle.state.headBlockNum :=
    okMiddle.objects.headBlockId_num
  cases later with
  | nil =>
      -- the state on disk is that of the last block
      have sameState : live.state = middle.state :=
        (Option.some.inj secondApplies).symm
      refine ⟨db, ?_, ?_, ?_⟩
      · have done : last.num ≤ db.headBlockNum := by
          rw [lastNum, middleNum]
          exact Nat.le_refl _
        simp only [reindex, if_pos done]
      · rw [sameState]
        exact start.view
      · rw [sameState] at currentLive ⊢
        rw [agrees.known_iff currentLive]
        simp [AllFoundAgain]
  | cons block rest =>
      have more : db.headBlockNum < last.num := by
        rw [lastNum, middleNum, List.length_cons]
        omega
      have loggedHead : LogHas middle.state.history db.blockLog := by
        intro other member
        rw [middleHistory, List.mem_reverse] at member
        exact logged other (List.mem_append_left _ member)
      obtain ⟨started, begins, objects, log, ready⟩ :=
        @reindex_starts O H W evaluators last.body.timestamp middle.state
          known db last okMiddle.objects.current start loggedHead more
      have sameDbState : started.state = db.state := by
        rw [ChainDatabase.state, objects]
      have count :
          last.num - db.headBlockNum = (block :: rest).length := by
        rw [lastNum, middleNum]
        omega
      have number : db.headBlockNum = middle.state.headBlockNum :=
        (view_eq_iff.mp start.view).1
      obtain ⟨result, loops, agreesFinal⟩ :=
        @reindexFrom_spec O H W evaluators last.body.timestamp
          (block :: rest) middle.state live.state (last.num - 50) true []
          started relaxed secondApplies liveTime headNumbered
          (sameDbState ▸ agrees)
          (by
            rw [log]
            exact fun other member =>
              logged other (List.mem_append_right _ member))
          ready
      refine ⟨result, ?_, agreesFinal.view, ?_⟩
      · rw [begins, count, number]
        exact loops
      · rw [agreesFinal.known_iff currentLive,
          allFoundAgain_iff keeps secondApplies liveTime,
          List.nil_append]

/-- Every transaction and block is valid; the world is the chain parameter. -/
def plainEvaluators : Evaluators Unit Unit UInt32 where
  maximumTimeUntilExpiration := fun limit => limit
  validate := fun _ => true
  verifyAuthority := fun _ _ => true
  taposMatches := fun _ _ => true
  applyOperations := fun _ view _ => .ok view.rest.2
  validateBlock := fun _ _ _ => true
  withinCpuLimit := fun _ _ => true
  updateGlobalDynamicData := fun view _ => view.rest.2
  maintain := fun _ view _ => .ok (view.activeWitnesses, view.rest.2)
  finish := fun _ view _ => .ok (view.activeWitnesses, view.rest.2)

theorem plainEvaluators_relaxed : RelaxesChecks plainEvaluators :=
  { operations := fun _ _ _ _ returns => returns
    header := fun _ _ _ valid => valid
    maintenance := fun _ _ _ _ returns => returns
    ending := fun _ _ _ _ returns => returns }

theorem plainEvaluators_keeps : KeepsExpirationLimit plainEvaluators := by
  intro flags view trx world returns
  obtain rfl := Except.ok.inj returns
  rfl

/-- A database after `init_genesis`, with one active witness and this value of
`maximum_time_until_expiration`. -/
def plainGenesis (limit : UInt32) :
    ChainDatabase (Payload Unit Unit) (Objects Unit UInt32) where
  objects :=
    { current :=
        { headBlockNum := 0
          headBlockId := .zero
          lastIrreversibleBlockNum := 0
          activeWitnesses := [0]
          lastConfirmedBlockNum := fun _ => 0
          rest := ⟨1500000000, [], limit⟩
          history := [] }
      saved := []
      limit := 256 }
  forkDb := .empty
  blockLog := fun _ => none

theorem plainGenesis_opened (limit : UInt32)
    (known : Set (TrxBlock Unit Unit)) : Opened known (plainGenesis limit) :=
  { state :=
      { linked := trivial
        headId := rfl
        headNum := rfl
        known := by simp [ChainDatabase.state, plainGenesis]
        irreversible := Nat.le_refl _
        confirmed := fun _ => Nat.le_refl _ }
    saved := rfl
    forkDb := rfl }

def plainPush (block : TrxBlock Unit Unit)
    (db : ChainDatabase (Payload Unit Unit) (Objects Unit UInt32)) :
    ChainDatabase (Payload Unit Unit) (Objects Unit UInt32) :=
  (pushBlock (liveRules plainEvaluators) false block db).state

/-- The database that a replay of the log of `live` starts from. -/
def replayFrom (limit : UInt32)
    (live : ChainDatabase (Payload Unit Unit) (Objects Unit UInt32)) :
    ChainDatabase (Payload Unit Unit) (Objects Unit UInt32) :=
  { plainGenesis limit with blockLog := live.blockLog }

/-- A transaction in the first block that lives for ten days. -/
def longTransaction : Transaction Unit :=
  ⟨1, 1500864000, ()⟩

def longBlock : TrxBlock Unit Unit :=
  ⟨.zero, 1, 0, ⟨1500000003, [longTransaction], ()⟩⟩

def nextDayBlock : TrxBlock Unit Unit :=
  ⟨longBlock.id, 2, 0, ⟨1500090003, [], ()⟩⟩

/-- A transaction in the second block that lives for a day. -/
def shortTransaction : Transaction Unit :=
  ⟨2, 1500086403, ()⟩

def emptyBlock : TrxBlock Unit Unit :=
  ⟨.zero, 3, 0, ⟨1500000003, [], ()⟩⟩

def shortBlock : TrxBlock Unit Unit :=
  ⟨emptyBlock.id, 4, 0, ⟨1500086402, [shortTransaction], ()⟩⟩

theorem accepted_two {limit : UInt32} {first second : TrxBlock Unit Unit}
    {known : Set (TrxBlock Unit Unit)} (firstKnown : first ∈ known)
    (secondKnown : second ∈ known)
    (firstReturns :
      (pushBlock (liveRules plainEvaluators) false first
        (plainGenesis limit)).returned = true)
    (firstGrows :
      (plainPush first (plainGenesis limit)).state.history = [first])
    (secondReturns :
      (pushBlock (liveRules plainEvaluators) false second
        (plainPush first (plainGenesis limit))).returned = true)
    (secondGrows :
      (plainPush second
        (plainPush first (plainGenesis limit))).state.history =
        [second, first]) :
    Accepted (liveRules plainEvaluators) known (plainGenesis limit)
      [first, second]
      (plainPush second (plainPush first (plainGenesis limit))) := by
  refine .push firstKnown (Outcome.eq_ok_of_returned firstReturns)
    firstGrows ?_
  refine .push secondKnown (Outcome.eq_ok_of_returned secondReturns) ?_
    .nil
  exact secondGrows.trans (congrArg (second :: ·) firstGrows.symm)

/-- Live, the blocks `emptyBlock` and `shortBlock`. -/
def shortLive : ChainDatabase (Payload Unit Unit) (Objects Unit UInt32) :=
  plainPush shortBlock (plainPush emptyBlock (plainGenesis 86400))

/-- The transaction of the second block is found again. -/
theorem replay_equals_live_short :
    ∃ result,
      reindex plainEvaluators [] (some shortBlock)
        (replayFrom 86400 shortLive) = .ok result ∧
      isKnownTransaction result.state shortTransaction.id = true := by
  have accepted :
      Accepted (liveRules plainEvaluators) {emptyBlock, shortBlock}
        (plainGenesis 86400) [emptyBlock, shortBlock] shortLive :=
    accepted_two (by simp) (by simp) (by decide) (by decide) (by decide)
      (by decide)
  have free :
      CollisionFree ({emptyBlock, shortBlock} :
        Set (TrxBlock Unit Unit)) := by
    rintro left (rfl | rfl) right (rfl | rfl) same
    · rfl
    · exact absurd same (by decide)
    · exact absurd same (by decide)
    · rfl
  obtain ⟨result, returns, _, sameIds⟩ :=
    @replay_equals_live Unit Unit UInt32 plainEvaluators
      {emptyBlock, shortBlock} (plainGenesis 86400) (plainGenesis 86400)
      shortLive (replayFrom 86400 shortLive) [] [emptyBlock, shortBlock]
      shortBlock free plainEvaluators_relaxed plainEvaluators_keeps
      (plainGenesis_opened _ _) rfl rfl .nil accepted rfl
      { view := rfl
        inLive := fun _ member => member
        alive := fun _ member _ => member
        forkDb := rfl }
      (by
        intro block member
        rcases List.mem_cons.mp member with rfl | later
        · decide
        · obtain rfl := List.mem_singleton.mp later
          decide)
  refine ⟨result, returns, ?_⟩
  rw [sameIds.mpr ?_]
  · decide
  · refine ⟨fun _ => Or.inl (by simp [emptyBlock]), ?_⟩
    intro after applied
    refine ⟨fun _ => Or.inr ?_, fun _ _ => trivial⟩
    have afterFirst :
        (applyState (liveRules plainEvaluators) emptyBlock
          (plainGenesis 86400).state).toOption.map
            (fun state =>
              decide (state.headBlockNum ≠ 0) &&
                decide (state.rest.world ≤ shortBlock.body.timestamp)) =
          some true := by
      decide
    rw [applied] at afterFirst
    simp only [Except.toOption, Option.map_some, Option.some.injEq,
      Bool.and_eq_true, decide_eq_true_eq] at afterFirst
    rw [if_neg afterFirst.1]
    exact afterFirst.2

/-- Live, the blocks `longBlock` and `nextDayBlock`. -/
def longLive : ChainDatabase (Payload Unit Unit) (Objects Unit UInt32) :=
  plainPush nextDayBlock (plainPush longBlock (plainGenesis 86400))

/-- Live, the blocks `emptyBlock` and `shortBlock` when the parameter is larger
than the time. -/
def wideLive : ChainDatabase (Payload Unit Unit) (Objects Unit UInt32) :=
  plainPush shortBlock (plainPush emptyBlock (plainGenesis 2000000000))

/-- A transaction of the first block that is still alive, and one of any block
under a parameter larger than the time, are known live and not after a
replay. -/
theorem replay_forgets_transactions :
    (Accepted (liveRules plainEvaluators) {longBlock, nextDayBlock}
        (plainGenesis 86400) [longBlock, nextDayBlock] longLive ∧
      isKnownTransaction longLive.state longTransaction.id = true ∧
      (reindex plainEvaluators [] (some nextDayBlock)
        (replayFrom 86400 longLive)).returned = true ∧
      isKnownTransaction
        (reindex plainEvaluators [] (some nextDayBlock)
          (replayFrom 86400 longLive)).state.state longTransaction.id =
        false) ∧
    (Accepted (liveRules plainEvaluators) {emptyBlock, shortBlock}
        (plainGenesis 2000000000) [emptyBlock, shortBlock] wideLive ∧
      isKnownTransaction wideLive.state shortTransaction.id = true ∧
      (reindex plainEvaluators [] (some shortBlock)
        (replayFrom 2000000000 wideLive)).returned = true ∧
      isKnownTransaction
        (reindex plainEvaluators [] (some shortBlock)
          (replayFrom 2000000000 wideLive)).state.state
          shortTransaction.id = false) := by
  refine ⟨⟨?_, by decide, by decide, by decide⟩, ?_, by decide, by decide,
    by decide⟩
  · exact accepted_two (by simp) (by simp) (by decide) (by decide)
      (by decide) (by decide)
  · exact accepted_two (by simp) (by simp) (by decide) (by decide)
      (by decide) (by decide)

end GxbCore.Chain
