import GxbCore.Chain.PendingRestored

/-!
# No transaction is applied twice

A transaction is recorded at the time of the block before its own and forgotten
at the time of a later head.  In between there is no gap: what is still alive at
the time of the head is in the index, and what is not in the index any more is
refused because it is expired.  So a transaction that applies is not in the
chain, and in every run of pushes, with blocks popped and applied again, no id is
in the chain twice.
-/

namespace GxbCore.Chain

variable {O H W : Type} {evaluators : Evaluators O H W}
  {flags : SkipFlags} {known : Set (TrxBlock O H)}
  {trxs : Set (Transaction O)}

def chainTransactions (state : TrxState O H W) : List (Transaction O) :=
  state.history.flatMap fun block => block.body.transactions

/-- No transaction id is in the main chain twice. -/
def AppliedOnce (state : TrxState O H W) : Prop :=
  ((chainTransactions state).map Transaction.id).Nodup

theorem inChain_iff {state : TrxState O H W} {id : Nat} :
    InChain state id ↔
      id ∈ (chainTransactions state).map Transaction.id := by
  simp only [InChain, chainTransactions, List.mem_map, List.mem_flatMap]
  constructor
  · rintro ⟨block, inHistory, trx, inBlock, same⟩
    exact ⟨trx, ⟨block, inHistory, inBlock⟩, same⟩
  · rintro ⟨trx, ⟨block, inHistory, inBlock⟩, same⟩
    exact ⟨block, inHistory, trx, inBlock, same⟩

/-- The transactions that a block applies are neither in the index nor in the
chain, and differ from each other. -/
theorem applyTransactions_fresh {transactions : List (Transaction O)}
    {head state after : TrxState O H W}
    (checked : flags.transactionDupeCheck = false)
    (num : state.headBlockNum = head.headBlockNum)
    (time : state.rest.headBlockTime = head.rest.headBlockTime)
    (index :
      ∀ trx ∈ head.rest.transactionIndex,
        trx ∈ state.rest.transactionIndex)
    (expirations : ExpirationInId trxs)
    (headOk : StateOk known head) (indexed : IndexOk head)
    (blocksIn : ∀ block ∈ known, ∀ trx ∈ block.body.transactions, trx ∈ trxs)
    (areIn : ∀ trx ∈ transactions, trx ∈ trxs)
    (returns :
      applyTransactions evaluators flags transactions state =
        .ok after) :
    (∀ trx ∈ transactions,
      trx.id ∉ state.rest.transactionIndex.map Transaction.id) ∧
    (transactions.map Transaction.id).Nodup ∧
    ∀ trx ∈ transactions, ¬ InChain head trx.id := by
  induction transactions generalizing state with
  | nil => simp
  | cons trx rest ih =>
      unfold applyTransactions at returns
      rw [List.foldlM_cons] at returns
      obtain ⟨middle, first, later⟩ := bind_eq_ok.mp returns
      have applied := applyTransaction_eq_ok.mp first
      have notInChain :=
        applied.not_inChain checked num time index expirations headOk
          indexed blocksIn (areIn trx List.mem_cons_self)
      have fresh : trx.id ∉ state.rest.transactionIndex.map Transaction.id := by
        rcases applied.fresh with skipped | unknown
        · rw [checked] at skipped
          cases skipped
        · exact isKnownTransaction_eq_false.mp unknown
      obtain ⟨world, _, isMiddle⟩ := applied.operations
      have middleNum : middle.headBlockNum = state.headBlockNum := by
        rw [isMiddle]
      have middleTime :
          middle.rest.headBlockTime = state.rest.headBlockTime := by
        rw [isMiddle]
      have middleIndex :
          middle.rest.transactionIndex =
            trx :: state.rest.transactionIndex := by
        rw [isMiddle]
        simp [recordTransaction, checked]
      obtain ⟨freshLater, distinctLater, notInChainLater⟩ :=
        ih (middleNum.trans num) (middleTime.trans time)
          (by
            intro other member
            rw [middleIndex]
            exact List.mem_cons_of_mem trx (index other member))
          (fun other member =>
            areIn other (List.mem_cons_of_mem trx member))
          later
      simp only [middleIndex, List.map_cons, List.mem_cons,
        not_or] at freshLater
      refine ⟨?_, ?_, ?_⟩
      · intro other member
        rcases List.mem_cons.mp member with same | inRest
        · exact same ▸ fresh
        · exact (freshLater other inRest).2
      · rw [List.map_cons, List.nodup_cons]
        refine ⟨?_, distinctLater⟩
        intro again
        obtain ⟨other, inRest, same⟩ := List.mem_map.mp again
        exact (freshLater other inRest).1 same
      · intro other member
        rcases List.mem_cons.mp member with same | inRest
        · exact same ▸ notInChain
        · exact notInChainLater other inRest

/-- What holds of every state on the undo stack. -/
structure Protected (known : Set (TrxBlock O H)) (floor : Nat)
    (state : TrxState O H W) : Prop where
  indexed : Indexed known floor state
  once : AppliedOnce state

theorem Protected.extend {checkpoints : Checkpoints} {skip : SkipFlags}
    {floor : Nat} {block : TrxBlock O H} {before after : TrxState O H W}
    (expirations : ExpirationInId trxs)
    (blocksIn : ∀ block ∈ known, ∀ trx ∈ block.body.transactions, trx ∈ trxs)
    (isProtected : Protected known floor before)
    (records : Records checkpoints skip floor) (isKnown : block ∈ known)
    (applies :
      applyState (trxRules evaluators checkpoints skip) block before =
        .ok after) : Protected known floor after := by
  have indexed := isProtected.indexed
  have extended := applyState_extends applies
  obtain ⟨_, middle, maintained, finished, applied⟩ :=
    indexed.blockApplied records applies
  obtain ⟨_, distinct, notInChain⟩ :=
    applyTransactions_fresh records.checked rfl rfl
      (fun _ member => member) expirations indexed.ok indexed.index blocksIn
      (blocksIn block isKnown) applied.transactions
  refine ⟨indexed.extend records isKnown applies, ?_⟩
  unfold AppliedOnce chainTransactions
  rw [extended.history, List.flatMap_cons, List.map_append,
    List.nodup_append]
  refine ⟨distinct, isProtected.once, ?_⟩
  intro id inBlock other inOlder same
  obtain ⟨trx, member, rfl⟩ := List.mem_map.mp inBlock
  exact notInChain trx member (inChain_iff.mpr (same ▸ inOlder))

theorem Records.protectedKeptBy {checkpoints : Checkpoints} {skip : SkipFlags}
    {floor : Nat} (records : Records checkpoints skip floor)
    (expirations : ExpirationInId trxs)
    (blocksIn : ∀ block ∈ known, ∀ trx ∈ block.body.transactions, trx ∈ trxs) :
    KeptBy (trxRules evaluators checkpoints skip) known
      (Protected known floor) :=
  { ok := fun _ isProtected => isProtected.indexed.ok
    step := fun _ isKnown _ _ isProtected applies =>
      isProtected.extend expirations blocksIn records isKnown applies }

def onceApplied : ChainDatabase (Payload Unit Unit) (Objects Unit UInt32) :=
  plainPush oldFirst (plainGenesis 86400)

end GxbCore.Chain
