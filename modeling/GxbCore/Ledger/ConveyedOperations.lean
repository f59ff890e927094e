import GxbCore.Ledger.LateStates
import GxbCore.Ledger.HolderOps
import GxbCore.Ledger.TrustNodePledges
import GxbCore.Ledger.VoteWeights

/-!
# Operations past all hard forks

What each operation conveys on a late state.  All but one convey nothing: what
they take from one holder they give to another, or book on the supply.  An
update of an asset that clears its fee pool takes the pool from the holders of
the core asset.
-/

namespace GxbCore.Ledger

open Database

section Frames

variable {db middle after : Database}

/-- Time, accounts and pledges stay as they are. -/
structure SameRoles (db after : Database) : Prop where
  time : after.properties.time = db.properties.time
  accounts : after.accounts = db.accounts
  pledges : after.pledges = db.pledges

theorem SameRoles.trans (first : SameRoles db middle)
    (later : SameRoles middle after) : SameRoles db after :=
  ⟨later.time.trans first.time, later.accounts.trans first.accounts,
    later.pledges.trans first.pledges⟩

theorem adjustBalance_sameRoles {account : AccountId} {delta : Asset}
    (returns : db.adjustBalance account delta = .ok after) :
    SameRoles db after := by
  rw [adjustBalance_frame returns]
  exact ⟨rfl, rfl, rfl⟩

theorem modifyDynamicData_sameRoles {id : AssetId}
    {change : AssetDynamicData → Except Fault AssetDynamicData}
    (returns : db.modifyDynamicData id change = .ok after) :
    SameRoles db after := by
  obtain ⟨a, _, d, _, same⟩ := modifyDynamicData_eq_ok.mp returns
  rw [← same]
  exact ⟨rfl, rfl, rfl⟩

/-- An operation that touches neither accounts nor pledges, its fee apart. -/
theorem Conveys.of_run {eval : Evaluator} {credit : AssetId → Int}
    (conveysFee : eval.ConveysFee)
    (applies :
      ∀ coreFee paid applied,
        eval.doApply coreFee paid = .ok applied → SameRoles paid applied)
    (returns : eval.run db = .ok after)
    (moves :
      db.currentCoreAssetId = GRAPHENE_GXS_ASSET →
        Moves GRAPHENE_GXS_ASSET db after credit) :
    Conveys db after credit := by
  obtain ⟨coreFee, converted, paid, applied, ran⟩ := run_cases returns
  obtain ⟨pays, _⟩ :=
    conveysFee coreFee converted paid ran.coreFee_nonneg ran.pays
  have paying := (convertFee_conveys ran.prepared ran.converts).trans pays
  have same :=
    (applies coreFee paid applied ran.applies).trans
      (adjustBalance_sameRoles ran.charges)
  intro state
  obtain ⟨_, statePaid⟩ := paying state
  exact ⟨moves state.core_eq,
    statePaid.of_same same.time same.accounts same.pledges⟩

end Frames

section Transfers

variable {db after : Database} {required : Option Int}

theorem moveBalance_sameRoles {source target : AccountId} {amount : Asset}
    (returns : moveBalance source target amount db = .ok after) :
    SameRoles db after := by
  obtain ⟨middle, taken, given⟩ := bind_eq_ok.mp returns
  exact (adjustBalance_sameRoles taken).trans (adjustBalance_sameRoles given)

theorem transfer_conveys {o : TransferOperation}
    (returns : (transferEvaluator required o).run db = .ok after) :
    Conveys db after 0 :=
  .of_run (payFee_conveysFee fun _ _ => rfl)
    (fun _ _ _ applies => moveBalance_sameRoles applies) returns
    (fun isCore => (transfer_keeps isCore returns).1)

theorem overrideTransfer_conveys {o : OverrideTransferOperation}
    (returns : (overrideTransferEvaluator required o).run db = .ok after) :
    Conveys db after 0 :=
  .of_run (payFee_conveysFee fun _ _ => rfl)
    (fun _ _ _ applies => moveBalance_sameRoles applies) returns
    (fun isCore => (overrideTransfer_keeps isCore returns).1)

theorem inlineTransfer_conveys {o : InlineTransferOperation}
    (returns : (inlineTransferEvaluator required o).run db = .ok after) :
    Conveys db after 0 :=
  .of_run (payFee_conveysFee fun _ _ => rfl)
    (fun _ _ _ applies => moveBalance_sameRoles applies) returns
    (fun isCore => (inlineTransfer_keeps isCore returns).1)

theorem proxyTransfer_conveys {verify : ProxyTransferParams → Nat → Bool}
    {o : ProxyTransferOperation}
    (returns : (proxyTransferEvaluator verify required o).run db = .ok after) :
    Conveys db after 0 := by
  refine .of_run (payFee_conveysFee fun _ _ => rfl) ?_ returns
    (fun isCore => (proxyTransfer_keeps isCore returns).1)
  intro _ paid applied applies
  simp only [proxyTransferEvaluator, bind_eq_ok] at applies
  obtain ⟨signature, _, commission, _, delta, _, first, taken, second, given,
    shared⟩ := applies
  have signed :
      SameRoles paid
        { paid with
          signatures :=
            paid.signatures ++
              [⟨signature, o.requestParams.expiration⟩] } :=
    ⟨rfl, rfl, rfl⟩
  exact ((signed.trans (adjustBalance_sameRoles taken)).trans
    (adjustBalance_sameRoles given)).trans (adjustBalance_sameRoles shared)

end Transfers

section Assets

variable {db after : Database} {required : Option Int}

theorem assetIssue_conveys {o : AssetIssueOperation}
    (valid : o.validate = .ok ())
    (returns : (assetIssueEvaluator required o).run db = .ok after) :
    Conveys db after 0 := by
  refine .of_run (payFee_conveysFee fun _ _ => rfl) ?_ returns
    (fun isCore => (assetIssue_keeps isCore valid returns).1)
  intro _ paid applied applies
  obtain ⟨given, gives, modifies⟩ := bind_eq_ok.mp applies
  exact (adjustBalance_sameRoles gives).trans
    (modifyDynamicData_sameRoles modifies)

theorem assetReserve_conveys {o : AssetReserveOperation}
    (valid : o.validate = .ok ())
    (returns : (assetReserveEvaluator required o).run db = .ok after) :
    Conveys db after 0 := by
  refine .of_run (payFee_conveysFee fun _ _ => rfl) ?_ returns
    (fun isCore => (assetReserve_keeps isCore valid returns).1)
  intro _ paid applied applies
  obtain ⟨taken, takes, modifies⟩ := bind_eq_ok.mp applies
  exact (adjustBalance_sameRoles takes).trans
    (modifyDynamicData_sameRoles modifies)

theorem assetFundFeePool_conveys {o : AssetFundFeePoolOperation}
    (valid : o.validate = .ok ())
    (returns : (assetFundFeePoolEvaluator required o).run db = .ok after) :
    Conveys db after 0 := by
  refine .of_run (payFee_conveysFee fun _ _ => rfl) ?_ returns
    (fun isCore => (assetFundFeePool_keeps isCore valid returns).1)
  intro _ paid applied applies
  obtain ⟨taken, takes, modifies⟩ := bind_eq_ok.mp applies
  exact (adjustBalance_sameRoles takes).trans
    (modifyDynamicData_sameRoles modifies)

theorem assetClaimFees_conveys {o : AssetClaimFeesOperation}
    (returns : (assetClaimFeesEvaluator required o).run db = .ok after) :
    Conveys db after 0 := by
  refine .of_run (payFee_conveysFee fun _ _ => rfl) ?_ returns
    (fun isCore => (assetClaimFees_keeps isCore returns).1)
  intro _ paid applied applies
  obtain ⟨claimed, modifies, gives⟩ := bind_eq_ok.mp applies
  exact (modifyDynamicData_sameRoles modifies).trans
    (adjustBalance_sameRoles gives)

/-- Half of the fee becomes the pool of the new asset. -/
theorem assetCreate_conveys {o : AssetCreateOperation}
    (returns : (assetCreateEvaluator required o).run db = .ok after) :
    Conveys db after 0 := by
  obtain ⟨coreFee, converted, paid, applied, ran⟩ := run_cases returns
  have nonneg := ran.coreFee_nonneg
  have pays := payFee_conveys (by omega) ran.pays
  have applies :
      Conveys paid applied
        (fun id =>
          inAsset id GRAPHENE_GXS_ASSET
            (coreFee - (coreFee - coreFee / 2))) := by
    intro state
    rcases assetCreate_cases ran.applies with
      ⟨pool, isPool, created⟩ | ⟨_, early, _⟩
    · have creates :
          Conveys paid
            { paid with assets := paid.assets ++ [createdAsset paid o pool] }
            (fun id => inAsset id GRAPHENE_GXS_ASSET pool) :=
        .of_moves (fun _ => createAsset_moves rfl) rfl rfl
      rw [created]
      refine creates.congr ?_ state
      intro id
      refine congrArg (inAsset id GRAPHENE_GXS_ASSET) ?_
      omega
    · exact absurd early (UInt32.not_le.mpr
        (Nat.lt_trans
          (by decide : HARDFORK_1005_TIME < HARDFORK_1029_TIME) state.late))
  refine (ran.conveys pays applies).congr ?_
  intro id
  simp only [← inAsset_add, Pi.zero_apply]
  refine (congrArg (inAsset id _) ?_).trans (inAsset_zero id _)
  omega

theorem assetUpdate_conveys {o : AssetUpdateOperation} {coreFee : Int}
    {converted : Database}
    (prepared : db.prepareFee o.issuer o.fee = .ok coreFee)
    (converts : db.convertFee o.fee coreFee = .ok converted)
    (returns : (assetUpdateEvaluator required o).run db = .ok after) :
    Conveys db after
      (fun id => inAsset id GRAPHENE_GXS_ASSET (-clearedPool converted o)) := by
  refine .of_run (payFee_conveysFee fun _ _ => rfl) ?_ returns ?_
  · intro _ paid applied applies
    obtain ⟨a, _, applies⟩ := bind_eq_ok.mp applies
    cases applies
    exact ⟨rfl, rfl, rfl⟩
  · intro isCore
    obtain ⟨fee, paying, prepares, pays, moves⟩ :=
      assetUpdate_moves isCore returns
    cases prepared.symm.trans prepares
    cases converts.symm.trans pays
    exact moves

end Assets

section Vesting

variable {db after : Database} {required : Option Int}

theorem appendVesting_conveys (v : VestingBalance) :
    Conveys db { db with vestings := db.vestings ++ [v] }
      (fun id => inAsset id v.balance.assetId v.balance.amount) := by
  refine .of_moves (fun _ => ⟨rfl, ?_⟩) rfl rfl
  intro id
  simp only [surplus, held, coreHeld, fbaHeld, total_append, total_cons,
    total_nil]
  omega

theorem setVesting_conveys {place : VestingBalanceId}
    {v fresh : VestingBalance} (found : db.vestings[place]? = some v)
    (sameAsset : fresh.balance.assetId = v.balance.assetId) :
    Conveys db (db.setVesting place fresh)
      (fun id =>
        inAsset id v.balance.assetId
          (fresh.balance.amount - v.balance.amount)) := by
  refine .of_moves (fun _ => ⟨rfl, ?_⟩) rfl rfl
  intro id
  simp only [surplus, setVesting, held, coreHeld, fbaHeld,
    total_set fresh found, sameAsset, inAsset_sub]
  omega

theorem vestingBalanceCreate_conveys {o : VestingBalanceCreateOperation}
    (returns : (vestingBalanceCreateEvaluator required o).run db = .ok after) :
    Conveys db after 0 := by
  apply run_conveys (payFee_conveysFee fun _ _ => rfl) _ returns
  intro _ paid applied _ _ applies
  simp only [vestingBalanceCreateEvaluator, bind_eq_ok] at applies
  obtain ⟨_, _, taken, takes, creates⟩ := applies
  cases creates
  refine ((adjustBalance_conveys takes).trans
    (appendVesting_conveys _)).congr ?_
  intro id
  simp [Asset.neg, inAsset_neg]

theorem vestingBalanceWithdraw_conveys {o : VestingBalanceWithdrawOperation}
    (returns :
      (vestingBalanceWithdrawEvaluator required o).run db = .ok after) :
    Conveys db after 0 := by
  apply run_conveys (payFee_conveysFee fun _ _ => rfl) _ returns
  intro _ paid applied _ _ applies
  simp only [vestingBalanceWithdrawEvaluator, bind_eq_ok,
    orThrow_eq_ok] at applies
  obtain ⟨vbo, found, left, withdraws, gives⟩ := applies
  obtain ⟨sameAsset, balance⟩ := VestingBalance.withdraw_balance withdraws
  have keepsAsset : left.balance.assetId = vbo.balance.assetId := by
    rw [balance, sameAsset]
  refine ((setVesting_conveys found keepsAsset).trans
    (adjustBalance_conveys gives)).congr ?_
  intro id
  simp only [Pi.add_apply, Pi.zero_apply, balance, sameAsset, inAsset_sub]
  omega

end Vesting

section Permissions

variable {db after : Database} {required : Option Int}

theorem setPermissions_conveys (permissions : List WithdrawPermission)
    (next : Nat) :
    Conveys db
      { db with permissions := permissions, nextPermissionId := next } 0 :=
  .of_same_holdings rfl (fun _ => rfl) rfl rfl

theorem withdrawPermissionCreate_conveys {o : WithdrawPermissionCreateOperation}
    (returns :
      (withdrawPermissionCreateEvaluator required o).run db = .ok after) :
    Conveys db after 0 := by
  apply run_conveys (payFee_conveysFee fun _ _ => rfl) _ returns
  intro _ paid applied _ _ applies
  cases applies
  exact setPermissions_conveys _ _

theorem withdrawPermissionUpdate_conveys {o : WithdrawPermissionUpdateOperation}
    (returns :
      (withdrawPermissionUpdateEvaluator required o).run db = .ok after) :
    Conveys db after 0 := by
  apply run_conveys (payFee_conveysFee fun _ _ => rfl) _ returns
  intro _ paid applied _ _ applies
  obtain ⟨permit, _, applies⟩ := bind_eq_ok.mp applies
  cases applies
  exact setPermissions_conveys _ _

theorem withdrawPermissionClaim_conveys {o : WithdrawPermissionClaimOperation}
    (returns :
      (withdrawPermissionClaimEvaluator required o).run db = .ok after) :
    Conveys db after 0 := by
  apply run_conveys (payFee_conveysFee fun _ _ => rfl) _ returns
  intro _ paid applied _ _ applies
  simp only [withdrawPermissionClaimEvaluator, bind_eq_ok] at applies
  obtain ⟨permit, _, claimed, _, taken, takes, gives⟩ := applies
  refine (((setPermissions_conveys _ _).trans
    (adjustBalance_conveys takes)).trans (adjustBalance_conveys gives)).congr ?_
  intro id
  simp [Asset.neg, inAsset_neg]

theorem withdrawPermissionDelete_conveys {o : WithdrawPermissionDeleteOperation}
    (returns :
      (withdrawPermissionDeleteEvaluator required o).run db = .ok after) :
    Conveys db after 0 := by
  apply run_conveys (payFee_conveysFee fun _ _ => rfl) _ returns
  intro _ paid applied _ _ applies
  cases applies
  exact setPermissions_conveys _ _

end Permissions

section Confidential

variable {db after : Database} {required : Option Int}

theorem setBlinded_conveys (blindedBalances : List BlindedBalance) :
    Conveys db { db with blindedBalances := blindedBalances } 0 :=
  .of_same_holdings rfl (fun _ => rfl) rfl rfl

theorem createBlinded_conveys {assetId : AssetId} {outputs : List BlindOutput}
    (returns : createBlinded assetId outputs db = .ok after) :
    Conveys db after 0 := by
  refine @foldlM_keeps _ _ _ _ (fun middle => Conveys db middle 0) _ _ _ ?_
    (Conveys.refl db) returns
  intro out _ before later conveys creates
  obtain ⟨_, _, creates⟩ := bind_eq_ok.mp creates
  cases creates
  exact (conveys.trans (setBlinded_conveys _)).congr fun _ => rfl

theorem removeBlinded_conveys {inputs : List BlindInput}
    (returns : removeBlinded inputs db = .ok after) : Conveys db after 0 := by
  refine @foldlM_keeps _ _ _ _ (fun middle => Conveys db middle 0) _ _ _ ?_
    (Conveys.refl db) returns
  intro input _ before later conveys removes
  obtain ⟨_, _, removes⟩ := bind_eq_ok.mp removes
  cases removes
  exact (conveys.trans (setBlinded_conveys _)).congr fun _ => rfl

/-- What becomes confidential is held in the confidential supply. -/
theorem addConfidential_conveys {assetId : AssetId} {amount : Int}
    (returns : addConfidential assetId amount db = .ok after) :
    Conveys db after (fun id => inAsset id assetId amount) := by
  rw [addConfidential, modifyDynamicData_eq_ok] at returns
  obtain ⟨a, found, d, changed, same⟩ := returns
  simp only [bind_eq_ok] at changed
  obtain ⟨supply, checked, _, _, changed⟩ := changed
  cases changed
  rw [← same, eq_of_share checked]
  refine (setAsset_conveys _ found).congr ?_
  intro id
  simp only [outstanding, inAsset_sub, inAsset_add]
  omega

theorem payBlindFee_conveysFee {fbaId : Nat} {eval : Evaluator}
    (books :
      ∀ coreFee before,
        eval.payFee coreFee before =
          payBlindFee fbaId eval.feePayer coreFee before) :
    eval.ConveysFee := by
  intro coreFee before after nonneg returns
  rw [books, payBlindFee] at returns
  split at returns
  · exact ⟨payFbaFee_conveys nonneg returns, payFbaFee_frame returns⟩
  · exact ⟨payFee_conveys nonneg returns, (payFee_frame returns).1⟩

theorem transferToBlind_conveys {o : TransferToBlindOperation}
    (returns : (transferToBlindEvaluator required o).run db = .ok after) :
    Conveys db after 0 := by
  apply run_conveys (payBlindFee_conveysFee fun _ _ => rfl) _ returns
  intro _ paid applied _ _ applies
  simp only [transferToBlindEvaluator, bind_eq_ok] at applies
  obtain ⟨taken, takes, hidden, hides, creates⟩ := applies
  refine (((adjustBalance_conveys takes).trans
    (addConfidential_conveys hides)).trans
      (createBlinded_conveys creates)).congr ?_
  intro id
  simp [Asset.neg, inAsset_neg]

theorem transferFromBlind_conveys {curve : BlindCurve}
    {o : TransferFromBlindOperation} (valid : o.validate curve = .ok ())
    (returns : (transferFromBlindEvaluator required o).run db = .ok after) :
    Conveys db after 0 := by
  simp only [TransferFromBlindOperation.validate, bind_eq_ok,
    fcAssert_eq_ok] at valid
  obtain ⟨_, _, _, _, _, _, _, sameAsset, _⟩ := valid
  apply run_conveys (payBlindFee_conveysFee fun _ _ => rfl) _ returns
  intro _ paid applied _ _ applies
  simp only [transferFromBlindEvaluator, bind_eq_ok] at applies
  obtain ⟨funded, funds, given, gives, removed, removes, shows⟩ := applies
  refine ((((adjustBalance_conveys funds).trans
    (adjustBalance_conveys gives)).trans
      (removeBlinded_conveys removes)).trans
        (addConfidential_conveys shows)).congr ?_
  intro id
  simp only [Pi.add_apply, Pi.zero_apply, sameAsset, inAsset_neg, inAsset_add]
  omega

theorem blindTransfer_conveys {o : BlindTransferOperation}
    (returns : (blindTransferEvaluator required o).run db = .ok after) :
    Conveys db after 0 := by
  apply run_conveys (payBlindFee_conveysFee fun _ _ => rfl) _ returns
  intro _ paid applied _ _ applies
  simp only [blindTransferEvaluator, bind_eq_ok] at applies
  obtain ⟨funded, funds, removed, removes, created, creates, shows⟩ := applies
  refine ((((adjustBalance_conveys funds).trans
    (removeBlinded_conveys removes)).trans
      (createBlinded_conveys creates)).trans
        (addConfidential_conveys shows)).congr ?_
  intro id
  simp [inAsset_neg]

end Confidential

section Locks

variable {db after : Database} {required : Option Int}

theorem appendLock_conveys (lock : LockBalance) (next : Nat) :
    Conveys db
      { db with locks := db.locks ++ [lock], nextLockId := next }
      (fun id => inAsset id lock.amount.assetId lock.amount.amount) := by
  refine .of_moves (fun _ => ⟨rfl, ?_⟩) rfl rfl
  intro id
  simp only [surplus, held, coreHeld, fbaHeld, total_append, total_cons,
    total_nil]
  omega

theorem eraseLock_conveys {matching : LockBalance → Bool} {lock : LockBalance}
    (found : db.locks.find? matching = some lock) :
    Conveys db { db with locks := db.locks.eraseP matching }
      (fun id => -inAsset id lock.amount.assetId lock.amount.amount) := by
  refine .of_moves (fun _ => ⟨rfl, ?_⟩) rfl rfl
  intro id
  simp only [surplus, held, coreHeld, fbaHeld, total_eraseP found]
  omega

theorem balanceLock_conveys {o : BalanceLockOperation}
    (returns : (balanceLockEvaluator required o).run db = .ok after) :
    Conveys db after 0 := by
  apply run_conveys (payFee_conveysFee fun _ _ => rfl) _ returns
  intro _ paid applied _ _ takes
  refine ((appendLock_conveys _ _).trans (adjustBalance_conveys takes)).congr ?_
  intro id
  simp [Asset.neg, inAsset_neg]

theorem balanceUnlock_conveys {o : BalanceUnlockOperation}
    (returns : (balanceUnlockEvaluator required o).run db = .ok after) :
    Conveys db after 0 := by
  apply run_conveys (payFee_conveysFee fun _ _ => rfl) _ returns
  intro _ paid applied _ _ applies
  simp only [balanceUnlockEvaluator, bind_eq_ok, orThrow_eq_ok] at applies
  obtain ⟨lock, found, given, gives, removes⟩ := applies
  cases removes
  have foundGiven : given.locks.find? (·.id == o.lockId) = some lock := by
    rw [adjustBalance_frame gives]
    exact found
  refine ((adjustBalance_conveys gives).trans
    (eraseLock_conveys foundGiven)).congr ?_
  intro id
  simp

end Locks

section Stakes

variable {db after : Database} {required : Option Int}

theorem appendStaking_conveys (s : Staking) (next : Nat) :
    Conveys db
      { db with stakings := db.stakings ++ [s], nextStakingId := next }
      (fun id => inAsset id s.amount.assetId s.amount.amount) := by
  refine .of_moves (fun _ => ⟨rfl, ?_⟩) rfl rfl
  intro id
  simp only [surplus, held, coreHeld, fbaHeld, total_append, total_cons,
    total_nil]
  omega

theorem setStaking_conveys {s fresh : Staking}
    (found : db.findStaking fresh.id = some s)
    (sameAmount : fresh.amount = s.amount) :
    Conveys db (db.setStaking fresh) 0 := by
  refine .of_same_holdings rfl ?_ rfl rfl
  intro id
  simp only [surplus, setStaking, held, coreHeld, fbaHeld,
    total_replaceFirst found, sameAmount]
  omega

theorem eraseStaking_conveys {matching : Staking → Bool} {s : Staking}
    (found : db.stakings.find? matching = some s) :
    Conveys db { db with stakings := db.stakings.eraseP matching }
      (fun id => -inAsset id s.amount.assetId s.amount.amount) := by
  refine .of_moves (fun _ => ⟨rfl, ?_⟩) rfl rfl
  intro id
  simp only [surplus, held, coreHeld, fbaHeld, total_eraseP found]
  omega

theorem addVoteWeights_conveys {wit : WitnessId} {weights : Int}
    (returns : db.addVoteWeights wit weights = .ok after) :
    Conveys db after 0 := by
  obtain ⟨witness, found, rfl⟩ := addVoteWeights_eq_ok returns
  exact setWitness_conveys_nothing _ found rfl

theorem reduceVoteWeights_conveys {wit : WitnessId} {s : Staking}
    (returns : db.reduceVoteWeights wit s = .ok after) :
    Conveys db after 0 ∧ after.stakings = db.stakings := by
  obtain ⟨witness, found, rfl⟩ := reduceVoteWeights_eq_ok returns
  exact ⟨setWitness_conveys_nothing _ found rfl, rfl⟩

theorem stakingCreate_conveys {o : StakingCreateOperation}
    (returns : (stakingCreateEvaluator required o).run db = .ok after) :
    Conveys db after 0 := by
  apply run_conveys (payFee_conveysFee fun _ _ => rfl) _ returns
  intro _ paid applied _ _ applies
  simp only [stakingCreateEvaluator, bind_eq_ok] at applies
  obtain ⟨taken, takes, weights, _, adds⟩ := applies
  refine (((appendStaking_conveys _ _).trans
    (adjustBalance_conveys takes)).trans (addVoteWeights_conveys adds)).congr ?_
  intro id
  simp [Asset.neg, inAsset_neg]

theorem stakingUpdate_conveys {o : StakingUpdateOperation}
    (returns : (stakingUpdateEvaluator required o).run db = .ok after) :
    Conveys db after 0 := by
  apply run_conveys (payFee_conveysFee fun _ _ => rfl) _ returns
  intro _ paid applied _ _ applies
  simp only [stakingUpdateEvaluator, bind_eq_ok, orThrow_eq_ok,
    getWitness_eq_ok] at applies
  obtain ⟨s, found, product, _, previous, foundPrevious, left, _, adds⟩ :=
    applies
  have again : paid.findStaking s.id = some s :=
    (id_of_findStaking found).symm ▸ found
  have moved : Conveys paid
      (paid.setStaking { s with trustNode := o.trustNode }) 0 :=
    setStaking_conveys again rfl
  have reduced :=
    setWitness_conveys_nothing { previous with totalVoteWeights := left }
      foundPrevious rfl
  refine ((moved.trans reduced).trans (addVoteWeights_conveys adds)).congr ?_
  intro id
  rfl

theorem stakingClaim_conveys {o : StakingClaimOperation}
    (returns : (stakingClaimEvaluator required o).run db = .ok after) :
    Conveys db after 0 := by
  apply run_conveys (payFee_conveysFee fun _ _ => rfl) _ returns
  intro _ paid applied _ _ applies
  simp only [stakingClaimEvaluator, bind_eq_ok, orThrow_eq_ok] at applies
  obtain ⟨s, found, reduced, reduces, refunded, refunds, removes⟩ := applies
  cases removes
  obtain ⟨reducing, sameStakings⟩ :
      Conveys paid reduced 0 ∧ reduced.stakings = paid.stakings := by
    unfold claimVoteWeights at reduces
    split at reduces
    · exact reduceVoteWeights_conveys reduces
    · cases reduces
      exact ⟨Conveys.refl paid, rfl⟩
  have foundRefunded :
      refunded.stakings.find? (·.id == o.stakingId) = some s := by
    rw [adjustBalance_frame refunds]
    exact sameStakings ▸ found
  refine ((reducing.trans (adjustBalance_conveys refunds)).trans
    (eraseStaking_conveys foundRefunded)).congr ?_
  intro id
  simp

end Stakes

section TrustNodes

variable {db after : Database} {account : AccountId} {helper : PledgeHelper}

theorem appendPledge_conveys {p : TrustNodePledge}
    (inCore : p.amount.assetId = GRAPHENE_GXS_ASSET) :
    Conveys db { db with pledges := db.pledges ++ [p] }
      (fun id => inAsset id p.amount.assetId p.amount.amount) := by
  intro state
  refine ⟨⟨rfl, ?_⟩,
    { state with pledges := forall_concat state.pledges inCore }⟩
  intro id
  simp only [surplus, held, coreHeld, fbaHeld, total_append, total_cons,
    total_nil]
  omega

theorem setPledge_conveys {matching : TrustNodePledge → Bool}
    {p fresh : TrustNodePledge} (found : db.pledges.find? matching = some p)
    (sameAsset : fresh.amount.assetId = p.amount.assetId) :
    Conveys db
      { db with pledges := replaceFirst matching fresh db.pledges }
      (fun id =>
        inAsset id p.amount.assetId
          (fresh.amount.amount - p.amount.amount)) := by
  intro state
  refine ⟨⟨rfl, ?_⟩, { state with
    pledges := forall_replaceFirst state.pledges ?_ }⟩
  · intro id
    simp only [surplus, held, coreHeld, fbaHeld, total_replaceFirst found,
      sameAsset, inAsset_sub]
    omega
  · rw [sameAsset]
    exact state.pledges p (List.mem_of_find?_eq_some found)

theorem erasePledge_conveys {matching : TrustNodePledge → Bool}
    {p : TrustNodePledge} (found : db.pledges.find? matching = some p) :
    Conveys db { db with pledges := db.pledges.eraseP matching }
      (fun id => -inAsset id p.amount.assetId p.amount.amount) := by
  intro state
  refine ⟨⟨rfl, ?_⟩,
    { state with pledges := forall_eraseP state.pledges }⟩
  intro id
  simp only [surplus, held, coreHeld, fbaHeld, total_eraseP found]
  omega

theorem createWitness_conveys {w : Witness} (noPool : w.voteRewardPool = 0)
    (returns : db.createWitness w = .ok after) : Conveys db after 0 := by
  obtain ⟨_, _, returns⟩ := bind_eq_ok.mp returns
  cases returns
  refine .of_same_holdings rfl ?_ rfl rfl
  intro id
  simp only [surplus, held, coreHeld, fbaHeld, total_append, total_cons,
    total_nil, noPool]
  simp

theorem setVoteId_conveys (next : Nat) :
    Conveys db { db with nextAvailableVoteId := next } 0 :=
  .of_same_holdings rfl (fun _ => rfl) rfl rfl

theorem setCommitteeMembers_conveys (members : List CommitteeMember) :
    Conveys db { db with committeeMembers := members } 0 :=
  .of_same_holdings rfl (fun _ => rfl) rfl rfl

theorem createCommitteeMember_conveys {m : CommitteeMember}
    (returns : db.createCommitteeMember m = .ok after) :
    Conveys db after 0 := by
  obtain ⟨_, _, returns⟩ := bind_eq_ok.mp returns
  cases returns
  exact setCommitteeMembers_conveys _

theorem HelperFits.inCore (fits : HelperFits helper db account) :
    helper.pledgeToCharge.assetId = GRAPHENE_GXS_ASSET := by
  rcases fits with ⟨_, rfl⟩ | ⟨p, _, rfl⟩
  · rfl
  · rfl

theorem applyAccount_conveys
    (inCore : helper.pledgeToCharge.assetId = GRAPHENE_GXS_ASSET)
    (returns : helper.applyAccount db account = .ok after) :
    Conveys db after 0 := by
  unfold PledgeHelper.applyAccount at returns
  split at returns
  · split at returns
    · simp only [bind_eq_ok, orThrow_eq_ok] at returns
      obtain ⟨pointed, _, p, found, amount, adds, charges⟩ := returns
      obtain ⟨sameAsset, sum⟩ := plus_eq_ok adds
      have pledged :=
        @setPledge_conveys db _ _ { p with amount := amount } found
          (by rw [sum])
      refine (pledged.trans (adjustBalance_conveys charges)).congr ?_
      intro id
      simp only [Pi.add_apply, Pi.zero_apply, Asset.neg, inAsset_neg, sum,
        sameAsset, inAsset_sub, inAsset_add]
      omega
    · simp only [createPledge, bind_eq_ok] at returns
      obtain ⟨created, ⟨_, _, creates⟩, charges⟩ := returns
      cases creates
      refine ((appendPledge_conveys inCore).trans
        (adjustBalance_conveys charges)).congr ?_
      intro id
      simp [Asset.neg, inAsset_neg]
  · cases returns
    exact Conveys.refl db

theorem applyWitness_conveys {witness : WitnessId}
    (inCore : helper.pledgeToCharge.assetId = GRAPHENE_GXS_ASSET)
    (returns : helper.applyWitness db account witness = .ok after) :
    Conveys db after 0 := by
  simp only [PledgeHelper.applyWitness, bind_eq_ok,
    getWitness_eq_ok] at returns
  obtain ⟨middle, charges, w, found, returns⟩ := returns
  cases returns
  exact ((applyAccount_conveys inCore charges).trans
    (setWitness_conveys_nothing { w with isValid := true } found rfl)).congr
      fun _ => rfl

theorem applyCommitteeMember_conveys {member : CommitteeMemberId}
    (inCore : helper.pledgeToCharge.assetId = GRAPHENE_GXS_ASSET)
    (returns : helper.applyCommitteeMember db account member = .ok after) :
    Conveys db after 0 := by
  simp only [PledgeHelper.applyCommitteeMember, bind_eq_ok] at returns
  obtain ⟨middle, charges, m, _, returns⟩ := returns
  cases returns
  exact ((applyAccount_conveys inCore charges).trans
    (setCommitteeMembers_conveys _)).congr fun _ => rfl

theorem invalidateWitness_conveys
    (returns : helper.invalidateWitness db = .ok after) :
    Conveys db after 0 := by
  unfold PledgeHelper.invalidateWitness at returns
  split at returns
  · cases returns
    exact Conveys.refl db
  · simp only [bind_eq_ok, getWitness_eq_ok] at returns
    obtain ⟨w, found, returns⟩ := returns
    cases returns
    exact setWitness_conveys_nothing _ found rfl

theorem invalidateCommitteeMember_conveys
    (returns : helper.invalidateCommitteeMember db = .ok after) :
    Conveys db after 0 := by
  unfold PledgeHelper.invalidateCommitteeMember at returns
  split at returns
  · cases returns
    exact Conveys.refl db
  · obtain ⟨m, _, returns⟩ := bind_eq_ok.mp returns
    cases returns
    exact setCommitteeMembers_conveys _

/-- The pledge, which is in the core asset, goes into a vesting balance of
it. -/
theorem applyWithdraw_conveys
    (returns : helper.applyWithdraw db account = .ok after) :
    Conveys db after 0 := by
  simp only [PledgeHelper.applyWithdraw, bind_eq_ok, orThrow_eq_ok] at returns
  obtain ⟨pointed, _, p, found, ⟨newVbid, vested⟩, deposits, unseated,
    invalidates, returns⟩ := returns
  intro state
  have foundVested : vested.pledges.find? (isPledgeOf pointed) = some p := by
    rw [depositLazyVesting_frame deposits]
    exact found
  have inCore := state.pledges p (List.mem_of_find?_eq_some found)
  refine ((((depositLazyVesting_conveys deposits).trans
    (erasePledge_conveys foundVested)).trans
      (invalidateWitness_conveys invalidates)).trans
        (invalidateCommitteeMember_conveys returns)).congr ?_ state
  intro id
  simp [inCore]

variable {op : TrustNodeOperation}

theorem doEvaluate_inCore {before : PledgeHelper}
    (late : afterHardfork1129 db = true)
    (evaluated : (op.doEvaluate before db).2 = .ok ()) :
    (op.doEvaluate before db).1.pledgeToCharge.assetId =
      GRAPHENE_GXS_ASSET := by
  cases op with
  | witnessCreate op => exact (unless_gated_fits evaluated late).inCore
  | witnessUpdate op => exact (unless_gated_fits evaluated late).inCore
  | witnessSetCommission op =>
      simp only [TrustNodeOperation.doEvaluate,
        WitnessSetCommissionOperation.doEvaluate] at evaluated ⊢
      have same := unless_ok evaluated
      rw [same] at evaluated ⊢
      exact (evaluateAccount_fits (andThen_ok evaluated)).inCore
  | witnessUnbanned op =>
      exact (evaluateAccount_fits (andThen_ok evaluated)).inCore
  | pledgeWithdraw op =>
      obtain ⟨p, _, left⟩ := evaluateWithdraw_fits evaluated
      simp only [TrustNodeOperation.doEvaluate, left]
      rfl
  | committeeMemberCreate op => exact (unless_gated_fits evaluated late).inCore
  | committeeMemberUpdate op => exact (unless_gated_fits evaluated late).inCore

theorem doApply_conveys
    (inCore : helper.pledgeToCharge.assetId = GRAPHENE_GXS_ASSET)
    (returns : op.doApply helper db = .ok after) : Conveys db after 0 := by
  cases op with
  | witnessCreate op =>
      simp only [TrustNodeOperation.doApply, WitnessCreateOperation.doApply,
        bind_eq_ok] at returns
      obtain ⟨created, creates, returns⟩ := returns
      have creating :=
        (setVoteId_conveys _).trans (createWitness_conveys rfl creates)
      split at returns
      · exact (creating.trans (applyAccount_conveys inCore returns)).congr
          fun _ => rfl
      · cases returns
        exact creating.congr fun _ => rfl
  | witnessUpdate op =>
      simp only [TrustNodeOperation.doApply, WitnessUpdateOperation.doApply,
        bind_eq_ok] at returns
      obtain ⟨_, _, returns⟩ := returns
      split at returns
      · exact applyWitness_conveys inCore returns
      · cases returns
        exact Conveys.refl db
  | witnessSetCommission op =>
      simp only [TrustNodeOperation.doApply,
        WitnessSetCommissionOperation.doApply, bind_eq_ok,
        getWitness_eq_ok] at returns
      obtain ⟨w, found, returns⟩ := returns
      exact ((setWitness_conveys_nothing
        { w with
          commissionRate := op.commissionRate
          commissionUpdateTime := db.headBlockTime } found rfl).trans
            (applyWitness_conveys inCore returns)).congr fun _ => rfl
  | witnessUnbanned op =>
      simp only [TrustNodeOperation.doApply, WitnessUnbannedOperation.doApply,
        bind_eq_ok, getWitness_eq_ok] at returns
      obtain ⟨w, found, returns⟩ := returns
      exact ((setWitness_conveys_nothing
        { w with previousMissed := w.totalMissed, isBanned := false }
          found rfl).trans
            (applyWitness_conveys inCore returns)).congr fun _ => rfl
  | pledgeWithdraw op => exact applyWithdraw_conveys returns
  | committeeMemberCreate op =>
      simp only [TrustNodeOperation.doApply,
        CommitteeMemberCreateOperation.doApply, bind_eq_ok] at returns
      obtain ⟨created, creates, returns⟩ := returns
      have creating :=
        (setVoteId_conveys _).trans (createCommitteeMember_conveys creates)
      split at returns
      · exact (creating.trans (applyAccount_conveys inCore returns)).congr
          fun _ => rfl
      · cases returns
        exact creating.congr fun _ => rfl
  | committeeMemberUpdate op =>
      simp only [TrustNodeOperation.doApply,
        CommitteeMemberUpdateOperation.doApply, bind_eq_ok] at returns
      obtain ⟨_, _, returns⟩ := returns
      split at returns
      · exact applyCommitteeMember_conveys inCore returns
      · cases returns
        exact Conveys.refl db

theorem trustNode_conveys {requiredFee : Option Int} {before : PledgeHelper}
    (returns : op.run requiredFee before db = .ok after) :
    Conveys db after 0 := by
  intro state
  have late : afterHardfork1129 db = true :=
    decide_eq_true
      (Nat.lt_trans (by decide : HARDFORK_1129_TIME < HARDFORK_1029_TIME)
        state.late)
  refine run_conveys (payFee_conveysFee fun _ _ => rfl) ?_ returns state
  intro _ paid applied evaluated _ applies
  exact doApply_conveys (doEvaluate_inCore late evaluated) applies

end TrustNodes

end GxbCore.Ledger
