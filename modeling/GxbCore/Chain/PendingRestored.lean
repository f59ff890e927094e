import GxbCore.Chain.PoppedTransactions
import GxbCore.Chain.ReplayedIndex

/-!
# What is pending after a push

The transactions of the popped blocks and the pending ones are tried in turn.
`Kept` says which of them stay, without the index of recent transactions: those
that are not in the new chain and still apply after the ones kept before.  The
index finds the same ones, since a transaction of the chain is in it or is
expired.

Under a checkpoint the transactions of a block are not recorded, and a pending
transaction that the block contains stays pending.
-/

namespace GxbCore.Chain

variable {O H W : Type} {evaluators : Evaluators O H W}
  {checkpoints : Checkpoints} {skip : SkipFlags}
  {known : Set (TrxBlock O H)}

def InChain (state : TrxState O H W) (id : Nat) : Prop :=
  ∃ block ∈ state.history, ∃ trx ∈ block.body.transactions, trx.id = id

/-- The candidates that stay when they are tried in turn, and the state that they
lead to. -/
inductive Kept (evaluators : Evaluators O H W) (skip : SkipFlags)
    (inChain : Nat → Prop) :
    TrxState O H W → List (Transaction O) → List (Transaction O) →
      TrxState O H W → Prop
  | nil (state : TrxState O H W) : Kept evaluators skip inChain state [] [] state
  | keep {state next last : TrxState O H W} {trx : Transaction O}
      {later kept : List (Transaction O)} (fresh : ¬ inChain trx.id)
      (applies : applyTransaction evaluators skip trx state = .ok next)
      (rest : Kept evaluators skip inChain next later kept last) :
      Kept evaluators skip inChain state (trx :: later) (trx :: kept) last
  | drop {state last : TrxState O H W} {trx : Transaction O}
      {later kept : List (Transaction O)}
      (refused :
        inChain trx.id ∨
          ∀ next, applyTransaction evaluators skip trx state ≠ .ok next)
      (rest : Kept evaluators skip inChain state later kept last) :
      Kept evaluators skip inChain state (trx :: later) kept last

section Kept

variable {inChain : Nat → Prop} {state last : TrxState O H W}
  {candidates kept : List (Transaction O)}

theorem Kept.sublist
    (result : Kept evaluators skip inChain state candidates kept last) :
    kept.Sublist candidates := by
  induction result with
  | nil state => exact List.Sublist.refl _
  | keep fresh applies rest ih =>
      exact ih.cons_cons _
  | drop refused rest ih =>
      exact ih.cons _

/-- What stays is applied from the start to the end. -/
theorem Kept.applied
    (result : Kept evaluators skip inChain state candidates kept last) :
    applyTransactions evaluators skip kept state = .ok last := by
  induction result with
  | nil state => rfl
  | keep fresh applies rest ih =>
      unfold applyTransactions
      rw [List.foldlM_cons]
      exact bind_eq_ok.mpr ⟨_, applies, ih⟩
  | drop refused rest ih => exact ih

theorem Kept.append {middle : TrxState O H W}
    {laterCandidates laterKept : List (Transaction O)}
    (first : Kept evaluators skip inChain state candidates kept middle)
    (later :
      Kept evaluators skip inChain middle laterCandidates laterKept last) :
    Kept evaluators skip inChain state (candidates ++ laterCandidates)
      (kept ++ laterKept) last := by
  induction first with
  | nil state => exact later
  | keep fresh applies rest ih =>
      exact .keep fresh applies (ih later)
  | drop refused rest ih =>
      exact .drop refused (ih later)

end Kept

/-- Transactions with the same id expire at the same time: the id is a hash of
contents that include the expiration. -/
def ExpirationInId (trxs : Set (Transaction O)) : Prop :=
  ∀ left ∈ trxs, ∀ right ∈ trxs, left.id = right.id →
    left.expiration = right.expiration

structure Session (head : TrxState O H W) (db : PendingDatabase O H W) :
    Prop where
  chain : db.chain.state = head
  num : db.state.headBlockNum = head.headBlockNum
  time : db.state.rest.headBlockTime = head.rest.headBlockTime
  index :
    ∀ trx ∈ head.rest.transactionIndex,
      trx ∈ db.state.rest.transactionIndex
  pending :
    ∀ trx ∈ db.pendingTx, trx ∈ db.state.rest.transactionIndex
  distinct : (db.pendingTx.map Transaction.id).Nodup

theorem isKnownTransaction_of_mem {state : TrxState O H W}
    {trx : Transaction O} (member : trx ∈ state.rest.transactionIndex) :
    isKnownTransaction state trx.id = true := by
  simp only [isKnownTransaction, List.any_eq_true, decide_eq_true_eq]
  exact ⟨trx, member, rfl⟩

section Restore

variable {head : TrxState O H W} {db : PendingDatabase O H W}
  {trxs : Set (Transaction O)} {trx : Transaction O}

/-- A transaction that applies at the time of the head, with at least the index
of the head, is not in its chain. -/
theorem TransactionApplied.not_inChain {state next : TrxState O H W}
    (applied : TransactionApplied evaluators skip trx state next)
    (checked : skip.transactionDupeCheck = false)
    (num : state.headBlockNum = head.headBlockNum)
    (time : state.rest.headBlockTime = head.rest.headBlockTime)
    (index :
      ∀ trx ∈ head.rest.transactionIndex,
        trx ∈ state.rest.transactionIndex)
    (expirations : ExpirationInId trxs)
    (headOk : StateOk known head) (indexed : IndexOk head)
    (blocksIn : ∀ block ∈ known, ∀ trx ∈ block.body.transactions, trx ∈ trxs)
    (isIn : trx ∈ trxs) : ¬ InChain head trx.id := by
  rintro ⟨block, inHistory, other, inBlock, sameId⟩
  rcases indexed block inHistory other inBlock with inIndex | expired
  · have isKnown := isKnownTransaction_of_mem (index other inIndex)
    rw [sameId] at isKnown
    rcases applied.fresh with skipped | unknown
    · rw [checked] at skipped
      cases skipped
    · rw [isKnown] at unknown
      cases unknown
  · have sameExpiration :=
      expirations other
        (blocksIn block (headOk.known block inHistory) other inBlock) trx
        isIn sameId
    rcases applied.notExpired with isGenesis | alive
    · rw [num, headOk.headNum] at isGenesis
      rw [List.length_eq_zero_iff.mp isGenesis] at inHistory
      cases inHistory
    · rw [time, ← sameExpiration] at alive
      exact absurd expired (UInt32.not_lt.mpr alive)

theorem Session.restoreTransaction
    (session : Session head db) (checked : skip.transactionDupeCheck = false)
    (expirations : ExpirationInId trxs)
    (headOk : StateOk known head) (indexed : IndexOk head)
    (blocksIn : ∀ block ∈ known, ∀ trx ∈ block.body.transactions, trx ∈ trxs)
    (isIn : trx ∈ trxs) :
    Session head (restoreTransaction evaluators skip db trx) ∧
      (restoreTransaction evaluators skip db trx).chain = db.chain ∧
      ((¬ InChain head trx.id ∧
          applyTransaction evaluators skip trx db.state =
            .ok (restoreTransaction evaluators skip db trx).state ∧
          (restoreTransaction evaluators skip db trx).pendingTx =
            db.pendingTx ++ [trx]) ∨
        ((∀ next,
            applyTransaction evaluators skip trx db.state ≠ .ok next) ∧
          (restoreTransaction evaluators skip db trx).state = db.state ∧
          (restoreTransaction evaluators skip db trx).pendingTx =
            db.pendingTx)) := by
  unfold Chain.restoreTransaction
  split
  · rename_i isKnown
    refine ⟨session, rfl, Or.inr ⟨?_, rfl, rfl⟩⟩
    intro next returns
    rcases (applyTransaction_eq_ok.mp returns).fresh with skipped | unknown
    · rw [checked] at skipped
      cases skipped
    · rw [isKnown] at unknown
      cases unknown
  · rename_i notKnown
    unfold pushTransaction
    simp only
    have sameState :
        ({ db with pendingSession := some db.state } :
          PendingDatabase O H W).state = db.state :=
      rfl
    rw [sameState]
    cases applies : applyTransaction evaluators skip trx db.state with
    | error code =>
        refine ⟨{ session with }, rfl, Or.inr ⟨?_, rfl, rfl⟩⟩
        intro next returns
        cases returns
    | ok next =>
        have applied := applyTransaction_eq_ok.mp applies
        have fresh :=
          applied.not_inChain checked session.num session.time
            session.index expirations headOk indexed blocksIn isIn
        obtain ⟨world, _, isNext⟩ := applied.operations
        have recordedIndex :
            next.rest.transactionIndex =
              trx :: db.state.rest.transactionIndex := by
          rw [isNext]
          simp [recordTransaction, checked]
        have num : next.headBlockNum = db.state.headBlockNum := by
          rw [isNext]
        have time : next.rest.headBlockTime = db.state.rest.headBlockTime := by
          rw [isNext]
        have indexed :
            ∀ other ∈ db.state.rest.transactionIndex,
              other ∈ next.rest.transactionIndex := by
          intro other inIndex
          rw [recordedIndex]
          exact List.mem_cons_of_mem trx inIndex
        refine ⟨?_, rfl, Or.inl ⟨fresh, rfl, rfl⟩⟩
        exact
          { chain := session.chain
            num := num.trans session.num
            time := time.trans session.time
            index := fun other inIndex =>
              indexed other (session.index other inIndex)
            pending := by
              intro other member
              rcases List.mem_append.mp member with old | new
              · exact indexed other (session.pending other old)
              · refine recordedIndex.symm ▸ ?_
                rw [List.mem_singleton.mp new]
                exact List.mem_cons_self
            distinct := by
              have unknown :
                  trx.id ∉ db.state.rest.transactionIndex.map
                    Transaction.id := by
                apply isKnownTransaction_eq_false.mp
                exact Bool.eq_false_iff.mpr notKnown
              refine (List.map_append ..).symm ▸ ?_
              refine List.nodup_append.mpr
                ⟨session.distinct, List.nodup_singleton _, ?_⟩
              intro old oldMember new newMember same
              obtain ⟨other, isPending, rfl⟩ := List.mem_map.mp oldMember
              rw [List.map_singleton, List.mem_singleton] at newMember
              rw [newMember] at same
              exact unknown (List.mem_map.mpr
                ⟨other, session.pending other isPending, same⟩) }

/-- A loop of `~pending_transactions_restorer`. -/
theorem Session.foldl_restoreTransaction {candidates : List (Transaction O)}
    (session : Session head db) (checked : skip.transactionDupeCheck = false)
    (expirations : ExpirationInId trxs) (headOk : StateOk known head)
    (indexed : IndexOk head)
    (blocksIn : ∀ block ∈ known, ∀ trx ∈ block.body.transactions, trx ∈ trxs)
    (candidatesIn : ∀ trx ∈ candidates, trx ∈ trxs) :
    Session head
        (candidates.foldl (Chain.restoreTransaction evaluators skip) db) ∧
      (candidates.foldl (Chain.restoreTransaction evaluators skip)
        db).chain = db.chain ∧
      ∃ kept,
        Kept evaluators skip (InChain head) db.state candidates kept
          (candidates.foldl (Chain.restoreTransaction evaluators skip)
            db).state ∧
        (candidates.foldl (Chain.restoreTransaction evaluators skip)
          db).pendingTx = db.pendingTx ++ kept := by
  induction candidates generalizing db with
  | nil =>
      exact ⟨session, rfl, [], .nil _, (List.append_nil _).symm⟩
  | cons trx later ih =>
      obtain ⟨sessionNext, chain, round⟩ :=
        @Session.restoreTransaction O H W evaluators skip known head db trxs
          trx session checked expirations headOk indexed blocksIn
          (candidatesIn trx List.mem_cons_self)
      obtain ⟨sessionEnd, chainEnd, kept, keptLater, pendingEnd⟩ :=
        ih sessionNext
          (fun other member =>
            candidatesIn other (List.mem_cons_of_mem trx member))
      rw [List.foldl_cons]
      refine ⟨sessionEnd, chainEnd.trans chain, ?_⟩
      rcases round with ⟨fresh, applies, pending⟩ | ⟨refused, same, pending⟩
      · refine ⟨trx :: kept, .keep fresh applies keptLater, ?_⟩
        rw [pendingEnd, pending, List.append_assoc]
        rfl
      · refine ⟨kept, .drop (Or.inr refused) (same ▸ keptLater), ?_⟩
        rw [pendingEnd, pending]

/-- `~pending_transactions_restorer` -/
theorem restoreTransactions_spec {pending : List (Transaction O)}
    {switching : Switching O H W} (checked : skip.transactionDupeCheck = false)
    (expirations : ExpirationInId trxs)
    (headOk : StateOk known switching.db.state)
    (indexed : IndexOk switching.db.state)
    (blocksIn : ∀ block ∈ known, ∀ trx ∈ block.body.transactions, trx ∈ trxs)
    (candidatesIn : ∀ trx ∈ switching.poppedTx ++ pending, trx ∈ trxs) :
    (restoreTransactions evaluators skip pending switching).chain =
        switching.db ∧
      Kept evaluators skip (InChain switching.db.state)
        switching.db.state (switching.poppedTx ++ pending)
        (restoreTransactions evaluators skip pending switching).pendingTx
        (restoreTransactions evaluators skip pending switching).state ∧
      ((restoreTransactions evaluators skip pending
        switching).pendingTx.map Transaction.id).Nodup := by
  have start :
      Session switching.db.state
        (⟨switching.db, [], none, switching.poppedTx⟩ :
          PendingDatabase O H W) :=
    { chain := rfl
      num := rfl
      time := rfl
      index := fun _ member => member
      pending := by simp
      distinct := List.nodup_nil }
  obtain ⟨session, chain, keptPopped, popped, pendingPopped⟩ :=
    @Session.foldl_restoreTransaction O H W evaluators skip known _ _ trxs
      switching.poppedTx start checked expirations headOk indexed blocksIn
      (fun trx member =>
        candidatesIn trx (List.mem_append_left _ member))
  unfold restoreTransactions
  simp only
  generalize switching.poppedTx.foldl (restoreTransaction evaluators skip)
    ⟨switching.db, [], none, switching.poppedTx⟩ = middle
    at session chain popped pendingPopped ⊢
  have cleared : Session switching.db.state { middle with poppedTx := [] } :=
    { session with }
  obtain ⟨last, lastChain, keptPending, restored, pendingLast⟩ :=
    @Session.foldl_restoreTransaction O H W evaluators skip known _ _ trxs
      pending cleared checked expirations headOk indexed blocksIn
      (fun trx member =>
        candidatesIn trx (List.mem_append_right _ member))
  refine ⟨lastChain.trans chain, ?_, last.distinct⟩
  rw [pendingLast.trans (congrArg (· ++ keptPending) pendingPopped)]
  exact popped.append restored

end Restore

/-- The databases reached from `start` by pushes that record the transactions of
the blocks above it. -/
inductive RecordedRun (evaluators : Evaluators O H W)
    (known : Set (TrxBlock O H))
    (start : ChainDatabase (Payload O H) (Objects O W)) :
    ChainDatabase (Payload O H) (Objects O W) → Prop
  | refl : RecordedRun evaluators known start start
  | push {db : ChainDatabase (Payload O H) (Objects O W)}
      (checkpoints : Checkpoints) (skip : SkipFlags)
      (block : TrxBlock O H)
      (run : RecordedRun evaluators known start db)
      (isKnown : block ∈ known)
      (records : Records checkpoints skip start.headBlockNum) :
      RecordedRun evaluators known start
        (pushBlock (trxRules evaluators checkpoints skip) skip.forkDb block
          db).state
  | pending {db : ChainDatabase (Payload O H) (Objects O W)} (count : Nat)
      (run : RecordedRun evaluators known start db) :
      RecordedRun evaluators known start
        { db with
          objects :=
            ⟨db.state, db.objects.saved.take count, db.objects.limit⟩ }

/-- A database just opened, with the transactions of its chain in the index
until they expire and only known blocks in its log. -/
structure OpenedIndexed (known : Set (TrxBlock O H))
    (db : ChainDatabase (Payload O H) (Objects O W)) : Prop where
  opened : Opened known db
  index : IndexOk db.state
  log : ∀ num entry, db.blockLog num = some entry → entry.2 ∈ known

theorem OpenedIndexed.readyFor {db : ChainDatabase (Payload O H) (Objects O W)}
    {good : TrxState O H W → Prop} (indexed : OpenedIndexed known db)
    (isGood : good db.state) : Ready known good db :=
  { between :=
      { current := isGood
        saved := by simp [indexed.opened.saved]
        stepsDown := by simp [indexed.opened.saved, StepsDown]
        items := List.Subset.refl _
        next := rfl
        log := indexed.log }
    items := indexed.opened.itemsOk }

variable {start db : ChainDatabase (Payload O H) (Objects O W)}

theorem RecordedRun.keeps {good : TrxState O H W → Prop}
    (run : RecordedRun evaluators known start db) (free : CollisionFree known)
    (kept :
      ∀ checkpoints skip, Records checkpoints skip start.headBlockNum →
        KeptBy (trxRules evaluators checkpoints skip) known good)
    (begins : Ready known good start) : Ready known good db := by
  induction run with
  | refl => exact begins
  | push checkpoints skip block _ isKnown records ih =>
      rename_i db _
      have pushed :=
        @pushBlockTx_spec O H W known
          (trxRules evaluators checkpoints skip) good ⟨db, []⟩ block
          skip.forkDb free (kept checkpoints skip records) isKnown
          ih
      have same :=
        @pushBlockTx_db O H W (trxRules evaluators checkpoints skip)
          skip.forkDb block ⟨db, []⟩
      rw [← same, Outcome.map_state]
      exact pushed.1
  | pending count _ ih =>
      exact
        { between :=
            { ih.between with
              saved := fun state member =>
                ih.between.saved state
                  (List.mem_of_mem_take member)
              stepsDown :=
                ih.between.stepsDown.take count }
          items := ih.items }

theorem RecordedRun.ready (run : RecordedRun evaluators known start db)
    (free : CollisionFree known) (indexed : OpenedIndexed known start) :
    Ready known (Indexed known start.headBlockNum) db :=
  run.keeps free (fun _ _ records => records.keptBy)
    (indexed.readyFor
      ⟨indexed.opened.state, indexed.index, Nat.le_refl _⟩)

/-- What a push leaves pending.  `old` are the blocks popped from the chain and
`undone` those popped from a new branch that was given up, each in the order of
the chain. -/
structure Restored (evaluators : Evaluators O H W) (skip : SkipFlags)
    (before : PendingDatabase O H W)
    (outcome : Outcome ChainFault (PendingDatabase O H W))
    (undone old base : List (TrxBlock O H)) : Prop where
  history : before.chain.state.history = old.reverse ++ base
  abandoned :
    ∃ rest, Linked (undone.reverse ++ rest) ∧ base <:+ rest
  remains : base <:+ outcome.state.chain.state.history
  returned : outcome.returned = true → undone = []
  kept :
    Kept evaluators skip (InChain outcome.state.chain.state)
      outcome.state.chain.state
      ((undone ++ old).flatMap (fun block => block.body.transactions) ++
        before.poppedTx ++ before.pendingTx)
      outcome.state.pendingTx outcome.state.state
  subsequence :
    outcome.state.pendingTx.Sublist
      ((undone ++ old).flatMap (fun block => block.body.transactions) ++
        before.poppedTx ++ before.pendingTx)
  distinct : (outcome.state.pendingTx.map Transaction.id).Nodup
  session :
    applyTransactions evaluators skip outcome.state.pendingTx
      outcome.state.chain.state = .ok outcome.state.state

/-- A transaction in the first block of one branch. -/
def poppedTransaction : Transaction Unit :=
  ⟨1, 1500003600, ()⟩

/-- A transaction that no block contains. -/
def waitingTransaction : Transaction Unit :=
  ⟨2, 1500003600, ()⟩

def oldFirst : TrxBlock Unit Unit :=
  ⟨.zero, 11, 0, ⟨1500000003, [poppedTransaction], ()⟩⟩

def newFirst : TrxBlock Unit Unit :=
  ⟨.zero, 12, 0, ⟨1500000003, [], ()⟩⟩

def newSecond : TrxBlock Unit Unit :=
  ⟨newFirst.id, 13, 0, ⟨1500000006, [], ()⟩⟩

/-- The chain is on the old branch, and a transaction is pending. -/
def beforeSwitch : PendingDatabase Unit Unit UInt32 :=
  (pushTransaction plainEvaluators skipNothing waitingTransaction
    ⟨plainPush newFirst (plainPush oldFirst (plainGenesis 86400)), [],
      none, []⟩).state

/-- A pending transaction, and the block that contains it to come. -/
def beforeCheckpoint : PendingDatabase Unit Unit UInt32 :=
  (pushTransaction plainEvaluators skipNothing poppedTransaction
    ⟨plainGenesis 86400, [], none, []⟩).state

end GxbCore.Chain
