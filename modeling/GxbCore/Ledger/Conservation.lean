import GxbCore.Ledger.ConveyedMaintenance

/-!
# The supply is what its holders hold

Past all hard forks value changes hands.  It is created and destroyed together
with the recorded supply, with one exception: an update of an asset that clears
its fee pool leaves the supply as it was.  So in every state that operations,
blocks and maintenance lead to, the supply of an asset is the sum of what is held
in it, for the core asset together with what the updates have cleared.

Confidential fees for a configured fee-backed asset are held by its accumulator.
-/

namespace GxbCore.Ledger

open Database

section Holders

namespace Database

/-- `accumulated_fees` of an asset. -/
def feesIn (db : Database) (id : AssetId) : Int :=
  (db.assets[id]?.map (·.dynamicData.accumulatedFees)).getD 0

/-- `confidential_supply` of an asset. -/
def confidentialIn (db : Database) (id : AssetId) : Int :=
  (db.assets[id]?.map (·.dynamicData.confidentialSupply)).getD 0

end Database

variable {db : Database}

theorem outstandingOf_eq (db : Database) (id : AssetId) :
    outstandingOf db.assets id =
      db.supplyIn id - db.feesIn id - db.confidentialIn id := by
  unfold outstandingOf supplyIn feesIn confidentialIn
  cases db.assets[id]? with
  | none => rfl
  | some a => rfl

/-- Every supply is what is held in the asset and, for the core asset, what
updates have cleared. -/
def Balanced (db : Database) (cleared : Int) : Prop :=
  ∀ id,
    db.supplyIn id =
      db.held id + db.feesIn id + db.confidentialIn id +
        inAsset id GRAPHENE_GXS_ASSET (db.coreHeld + db.fbaHeld + cleared)

theorem balanced_iff (db : Database) (cleared : Int) :
    Balanced db cleared ↔
      ∀ id, surplus GRAPHENE_GXS_ASSET db id =
        inAsset id GRAPHENE_GXS_ASSET cleared := by
  unfold Balanced
  refine forall_congr' ?_
  intro id
  rw [surplus, outstandingOf_eq, inAsset_add]
  omega

/-- Every supply is what is held in the asset, the accumulators of fee-backed
assets apart. -/
def BalancedWithoutFbas (db : Database) : Prop :=
  ∀ id,
    db.supplyIn id =
      db.held id + db.feesIn id + db.confidentialIn id +
        inAsset id GRAPHENE_GXS_ASSET db.coreHeld

end Holders

section Operations

/-- The operations that move value between accounts and holders of other kinds,
less those of trust nodes and `asset_update`. -/
inductive LedgerOperation where
  | transfer (o : TransferOperation)
  | overrideTransfer (o : OverrideTransferOperation)
  | inlineTransfer (o : InlineTransferOperation)
  | proxyTransfer (o : ProxyTransferOperation)
  | assetCreate (o : AssetCreateOperation)
  | assetIssue (o : AssetIssueOperation)
  | assetReserve (o : AssetReserveOperation)
  | assetFundFeePool (o : AssetFundFeePoolOperation)
  | assetClaimFees (o : AssetClaimFeesOperation)
  | vestingBalanceCreate (o : VestingBalanceCreateOperation)
  | vestingBalanceWithdraw (o : VestingBalanceWithdrawOperation)
  | withdrawPermissionCreate (o : WithdrawPermissionCreateOperation)
  | withdrawPermissionUpdate (o : WithdrawPermissionUpdateOperation)
  | withdrawPermissionClaim (o : WithdrawPermissionClaimOperation)
  | withdrawPermissionDelete (o : WithdrawPermissionDeleteOperation)
  | transferToBlind (o : TransferToBlindOperation)
  | transferFromBlind (o : TransferFromBlindOperation)
  | blindTransfer (o : BlindTransferOperation)
  | balanceLock (o : BalanceLockOperation)
  | balanceUnlock (o : BalanceUnlockOperation)
  | stakingCreate (o : StakingCreateOperation)
  | stakingUpdate (o : StakingUpdateOperation)
  | stakingClaim (o : StakingClaimOperation)

namespace LedgerOperation

/-- `validate`, which checks nothing of the three operations on stakes. -/
def validate (curve : BlindCurve) : LedgerOperation → Except Fault Unit
  | transfer o => o.validate
  | overrideTransfer o => o.validate
  | inlineTransfer o => o.validate
  | proxyTransfer o => o.validate
  | assetCreate o => o.validate
  | assetIssue o => o.validate
  | assetReserve o => o.validate
  | assetFundFeePool o => o.validate
  | assetClaimFees o => o.validate
  | vestingBalanceCreate o => o.validate
  | vestingBalanceWithdraw o => o.validate
  | withdrawPermissionCreate o => o.validate
  | withdrawPermissionUpdate o => o.validate
  | withdrawPermissionClaim o => o.validate
  | withdrawPermissionDelete o => o.validate
  | transferToBlind o => o.validate curve
  | transferFromBlind o => o.validate curve
  | blindTransfer o => o.validate curve
  | balanceLock o => o.validate
  | balanceUnlock o => o.validate
  | stakingCreate _ => .ok ()
  | stakingUpdate _ => .ok ()
  | stakingClaim _ => .ok ()

def evaluator
    (verify : ProxyTransferParams → Nat → Bool) (required : Option Int) :
    LedgerOperation → Evaluator
  | transfer o => transferEvaluator required o
  | overrideTransfer o => overrideTransferEvaluator required o
  | inlineTransfer o => inlineTransferEvaluator required o
  | proxyTransfer o => proxyTransferEvaluator verify required o
  | assetCreate o => assetCreateEvaluator required o
  | assetIssue o => assetIssueEvaluator required o
  | assetReserve o => assetReserveEvaluator required o
  | assetFundFeePool o => assetFundFeePoolEvaluator required o
  | assetClaimFees o => assetClaimFeesEvaluator required o
  | vestingBalanceCreate o => vestingBalanceCreateEvaluator required o
  | vestingBalanceWithdraw o => vestingBalanceWithdrawEvaluator required o
  | withdrawPermissionCreate o => withdrawPermissionCreateEvaluator required o
  | withdrawPermissionUpdate o => withdrawPermissionUpdateEvaluator required o
  | withdrawPermissionClaim o => withdrawPermissionClaimEvaluator required o
  | withdrawPermissionDelete o => withdrawPermissionDeleteEvaluator required o
  | transferToBlind o => transferToBlindEvaluator required o
  | transferFromBlind o => transferFromBlindEvaluator required o
  | blindTransfer o => blindTransferEvaluator required o
  | balanceLock o => balanceLockEvaluator required o
  | balanceUnlock o => balanceUnlockEvaluator required o
  | stakingCreate o => stakingCreateEvaluator required o
  | stakingUpdate o => stakingUpdateEvaluator required o
  | stakingClaim o => stakingClaimEvaluator required o

end LedgerOperation

/-- An operation conveys nothing: what it takes from one holder it gives to
another, or books on the supply. -/
theorem operation_conveys {db after : Database} {curve : BlindCurve}
    {verify : ProxyTransferParams → Nat → Bool} {required : Option Int}
    {op : LedgerOperation} (valid : op.validate curve = .ok ())
    (returns : (op.evaluator verify required).run db = .ok after) :
    Conveys db after 0 := by
  cases op with
  | transfer o => exact transfer_conveys returns
  | overrideTransfer o => exact overrideTransfer_conveys returns
  | inlineTransfer o => exact inlineTransfer_conveys returns
  | proxyTransfer o => exact proxyTransfer_conveys returns
  | assetCreate o => exact assetCreate_conveys returns
  | assetIssue o => exact assetIssue_conveys valid returns
  | assetReserve o => exact assetReserve_conveys valid returns
  | assetFundFeePool o => exact assetFundFeePool_conveys valid returns
  | assetClaimFees o => exact assetClaimFees_conveys returns
  | vestingBalanceCreate o => exact vestingBalanceCreate_conveys returns
  | vestingBalanceWithdraw o => exact vestingBalanceWithdraw_conveys returns
  | withdrawPermissionCreate o =>
      exact withdrawPermissionCreate_conveys returns
  | withdrawPermissionUpdate o =>
      exact withdrawPermissionUpdate_conveys returns
  | withdrawPermissionClaim o => exact withdrawPermissionClaim_conveys returns
  | withdrawPermissionDelete o =>
      exact withdrawPermissionDelete_conveys returns
  | transferToBlind o => exact transferToBlind_conveys returns
  | transferFromBlind o => exact transferFromBlind_conveys valid returns
  | blindTransfer o => exact blindTransfer_conveys returns
  | balanceLock o => exact balanceLock_conveys returns
  | balanceUnlock o => exact balanceUnlock_conveys returns
  | stakingCreate o => exact stakingCreate_conveys returns
  | stakingUpdate o => exact stakingUpdate_conveys returns
  | stakingClaim o => exact stakingClaim_conveys returns

end Operations

section Runs

variable {db after : Database} {cleared more : Int}

/-- One step on what is held, and what it clears without booking it. -/
inductive LedgerStep (db : Database) : Database → Int → Prop
  | operation {after : Database} (curve : BlindCurve)
      (verify : ProxyTransferParams → Nat → Bool) (required : Option Int)
      (op : LedgerOperation) (valid : op.validate curve = .ok ())
      (returns : (op.evaluator verify required).run db = .ok after) :
      LedgerStep db after 0
  /-- the fee pool is cleared as the fee of the update leaves it -/
  | assetUpdate {after converted : Database} {coreFee : Int}
      (required : Option Int) (o : AssetUpdateOperation)
      (valid : o.validate = .ok ())
      (prepared : db.prepareFee o.issuer o.fee = .ok coreFee)
      (converts : db.convertFee o.fee coreFee = .ok converted)
      (returns : (assetUpdateEvaluator required o).run db = .ok after) :
      LedgerStep db after (clearedPool converted o)
  /-- the pledges of witnesses and committee members, with whatever the static
  members of the helper hold -/
  | trustNode {after : Database} (required : Option Int)
      (before : PledgeHelper) (op : TrustNodeOperation)
      (returns : op.run required before db = .ok after) :
      LedgerStep db after 0
  /-- a block and the pay of its witness -/
  | block {after : Database} (timestamp : Time) (wit : WitnessId)
      (later : db.headBlockTime < timestamp)
      (returns :
        (db.updateGlobalDynamicData timestamp).updateSigningWitness wit =
          .ok after) : LedgerStep db after 0
  /-- the fees of a fee-backed asset that is not configured go to the network -/
  | splitFbaBalance {after : Database} (fbaId : Nat)
      (networkPct buybackPct issuerPct : UInt16)
      (nothing : NothingDistributed db fbaId)
      (returns :
        db.splitFbaBalance fbaId networkPct buybackPct issuerPct =
          .ok after) : LedgerStep db after 0
  | statisticalVoteWeight : LedgerStep db db.statisticalVoteWeight 0
  | processFees {after : Database} (id : AccountId)
      (returns : db.processFees id = .ok after) : LedgerStep db after 0
  | distributeStakingRewards {after : Database} (tally : List Int)
      (returns : db.distributeStakingRewards tally = .ok after) :
      LedgerStep db after 0
  | finishMaintenance {after : Database} {record : BudgetRecord}
      (returns : db.finishMaintenance = .ok (after, record)) :
      LedgerStep db after 0

/-- A state is left late, and its surplus of the core asset grows by what is
cleared. -/
structure LeavesOver (db after : Database) (cleared : Int) : Prop where
  state : LateState after
  surplus_eq :
    ∀ id, surplus GRAPHENE_GXS_ASSET after id =
      surplus GRAPHENE_GXS_ASSET db id + inAsset id GRAPHENE_GXS_ASSET cleared

theorem Conveys.leaves (conveys : Conveys db after 0) (state : LateState db) :
    LeavesOver db after 0 := by
  obtain ⟨moves, stateAfter⟩ := conveys state
  refine ⟨stateAfter, ?_⟩
  intro id
  rw [moves.surplus_eq, inAsset_zero, Pi.zero_apply]
  omega

theorem LedgerStep.leaves (step : LedgerStep db after cleared)
    (state : LateState db) : LeavesOver db after cleared := by
  cases step with
  | operation curve verify required op valid returns =>
      exact (operation_conveys valid returns).leaves state
  | assetUpdate required o valid prepared converts returns =>
      obtain ⟨moves, stateAfter⟩ :=
        assetUpdate_conveys prepared converts returns state
      refine ⟨stateAfter, ?_⟩
      intro id
      rw [moves.surplus_eq, inAsset_neg]
      omega
  | trustNode required before op returns =>
      exact (trustNode_conveys returns).leaves state
  | block timestamp wit later returns =>
      have headed :=
        (updateSigningWitness_conveys returns).leaves (state.headed later)
      exact ⟨headed.state, headed.surplus_eq⟩
  | splitFbaBalance fbaId networkPct buybackPct issuerPct nothing returns =>
      exact (splitFbaBalance_conveys nothing returns).leaves state
  | statisticalVoteWeight =>
      exact (statisticalVoteWeight_conveys db).leaves state
  | processFees id returns =>
      exact (processFees_conveys returns).leaves state
  | distributeStakingRewards tally returns =>
      exact (distributeStakingRewards_conveys returns).leaves state
  | finishMaintenance returns =>
      exact (finishMaintenance_conveys returns).leaves state

/-- The states reached from a balanced one past all hard forks, with what asset
updates have cleared on the way. -/
inductive LedgerRun : Database → Int → Prop
  | start {db : Database} (state : LateState db)
      (balanced : Balanced db 0) : LedgerRun db 0
  | step {db after : Database} {cleared more : Int}
      (run : LedgerRun db cleared) (step : LedgerStep db after more) :
      LedgerRun after (cleared + more)

theorem LedgerRun.leaves (run : LedgerRun db cleared) :
    LateState db ∧ Balanced db cleared := by
  induction run with
  | start state balanced => exact ⟨state, balanced⟩
  | step _ step ih =>
      obtain ⟨state, balanced⟩ := ih
      have leaves := step.leaves state
      refine ⟨leaves.state, ?_⟩
      rw [balanced_iff] at balanced ⊢
      intro id
      rw [leaves.surplus_eq, balanced, inAsset_add]

/-- In every state that is reached the supply of every asset is what is held in
it in balances, vesting balances, stakes, locks and pledges, its accumulated fees
and its confidential supply, and for the core asset the fee pools, the
unprocessed fees, the witness budget, the reward pools, the accumulators of
fee-backed assets and what asset updates have cleared. -/
theorem supply_conserved (run : LedgerRun db cleared) : Balanced db cleared :=
  run.leaves.2

end Runs

section Sample

/-- Two assets; five units of the core asset are its own fee pool. -/
def poolDatabase : Database :=
  { plainDatabase with
    assets :=
      [plainAsset, { plainAsset with dynamicData := ⟨100, 0, 0, 5⟩ }]
    accounts := [plainAccount 1]
    balances := [⟨0, 0, 100⟩, ⟨0, 1, 95⟩] }

def updatesCore : AssetUpdateOperation where
  fee := ⟨0, 1⟩
  issuer := 0
  assetToUpdate := 1
  newIssuer := none
  newOptions := { plainAsset.options with coreExchangeRate := ⟨⟨1, 1⟩, ⟨1, 1⟩⟩ }
  newSymbol := none

theorem poolDatabase_late : LateState poolDatabase where
  late := by decide
  fees := by
    intro a member
    rw [List.mem_singleton.mp member]
    exact ⟨⟨by decide, by decide⟩, by decide, by decide⟩
  pledges := by decide

theorem poolDatabase_balanced : Balanced poolDatabase 0 := by
  intro id
  rcases id with _ | _ | id
  · decide
  · decide
  · rfl

theorem supply_conserved_cleared :
    ∃ after,
      (assetUpdateEvaluator none updatesCore).run poolDatabase = .ok after ∧
        Balanced after 5 :=
  ⟨_, rfl, supply_conserved
    (.step (.start poolDatabase_late poolDatabase_balanced)
      (.assetUpdate none updatesCore (by decide) rfl rfl rfl))⟩

/-- Three assets, the last of them fee-backed, and nothing accumulated for
it. -/
def blindDatabase : Database :=
  { stealthDatabase with
    balances := [⟨0, 0, 100⟩, ⟨0, 1, 100⟩, ⟨0, 2, 100⟩]
    fbas := [⟨0, some 2⟩] }

def addingCurve : BlindCurve where
  blind factor amount := factor + amount.toNat
  verifySum inputs outputs excess :=
    ((inputs.foldl (· + ·) 0 : Nat) : Int) =
      (outputs.foldl (· + ·) 0 : Nat) + excess
  rangeMaxValue _ := 0

/-- Ten units are made confidential, for a fee of seven. -/
def makesConfidential : TransferToBlindOperation where
  fee := ⟨7, 1⟩
  amount := ⟨10, 1⟩
  source := 0
  blindingFactor := 3
  outputs := [⟨13, 0, 0, [], false⟩]

theorem blindDatabase_late : LateState blindDatabase where
  late := by decide
  fees := by
    have all : ∀ a ∈ blindDatabase.accounts,
        (0 ≤ a.pendingFees ∧ a.pendingFees < 2 ^ 63) ∧
          (0 ≤ a.pendingVestedFees ∧ a.pendingVestedFees < 2 ^ 63) := by
      decide
    exact all
  pledges := by decide

theorem blindDatabase_balanced : Balanced blindDatabase 0 := by
  intro id
  rcases id with _ | _ | _ | id
  · decide
  · decide
  · decide
  · rfl

/-- An update clears a fee pool and leaves the supply as it was, and the fee of a
confidential transfer is held by an accumulator. -/
theorem supply_not_held :
    (∃ after, LedgerRun poolDatabase 0 ∧ BalancedWithoutFbas poolDatabase ∧
      updatesCore.validate = .ok () ∧
      (assetUpdateEvaluator none updatesCore).run poolDatabase = .ok after ∧
      ¬ BalancedWithoutFbas after) ∧
    ∃ after, LedgerRun blindDatabase 0 ∧ BalancedWithoutFbas blindDatabase ∧
      makesConfidential.validate addingCurve = .ok () ∧
      (transferToBlindEvaluator none makesConfidential).run blindDatabase =
        .ok after ∧
      ¬ BalancedWithoutFbas after := by
  have balancedPool : BalancedWithoutFbas poolDatabase :=
    fun id => poolDatabase_balanced id
  have balancedBlind : BalancedWithoutFbas blindDatabase :=
    fun id => blindDatabase_balanced id
  refine ⟨⟨_, .start poolDatabase_late poolDatabase_balanced, balancedPool,
    by decide, rfl, ?_⟩,
    _, .start blindDatabase_late blindDatabase_balanced, balancedBlind,
    by decide, rfl, ?_⟩
  · intro balanced
    exact absurd (balanced 1) (by decide)
  · intro balanced
    exact absurd (balanced 1) (by decide)

end Sample

end GxbCore.Ledger
