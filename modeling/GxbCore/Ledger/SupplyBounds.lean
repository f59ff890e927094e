import GxbCore.Ledger.AssetOps
import GxbCore.Ledger.Budget
import GxbCore.Ledger.FeeRoom

/-!
# Bounds on the supplies

What is recorded as the supply of an asset is not negative and at most its
maximum, and no pool, fees or balance are negative.  The operations on assets,
the fees of any operation, the pay of witnesses and the maintenance keep this,
with one exception: an update of an asset can set its maximum below what has
been issued.

The supply of the core asset is lowered without a look at it, by fees that go
back to the reserve and by the budget.  What carries the proof is that it covers
everything that is held in the core asset.
-/

namespace GxbCore.Ledger

open Database

section Covered

variable {core : AssetId} {db : Database} {a : AssetObject}

/-- Every supply is between nothing and its maximum, and no pool, fees or
balance are negative. -/
structure SuppliesBounded (db : Database) : Prop where
  supply :
    ∀ a ∈ db.assets,
      0 ≤ a.dynamicData.currentSupply ∧
        a.dynamicData.currentSupply ≤ a.options.maxSupply ∧
        a.options.maxSupply ≤ GRAPHENE_MAX_SHARE_SUPPLY
  pools :
    ∀ a ∈ db.assets,
      0 ≤ a.dynamicData.feePool ∧ 0 ≤ a.dynamicData.accumulatedFees
  balances : ∀ b ∈ db.balances, 0 ≤ b.balance

/-- The holders are sound, and the supply of the core asset covers what is held
in it. -/
structure Covered (db : Database) : Prop where
  sound : Sound db.currentCoreAssetId db
  surplus : 0 ≤ surplus db.currentCoreAssetId db db.currentCoreAssetId

theorem held_nonneg (sound : Sound core db) (id : AssetId) :
    0 ≤ db.held id := by
  obtain ⟨balances, vestings, stakings, locks, pledges⟩ :=
    held_terms_nonneg sound id
  rw [held]
  omega

/-- The witness budget is one of the parts that are held in the core asset. -/
theorem witnessBudget_le_coreHeld (sound : Sound core db) :
    db.properties.witnessBudget ≤ db.coreHeld + db.fbaHeld := by
  obtain ⟨pools, fees, rewards, fbas⟩ := coreHeld_terms_nonneg sound
  have pool := sound.stakingRewardPool.1
  rw [coreHeld, fbaHeld]
  omega

theorem Covered.covers (covered : Covered db)
    (found : db.assets[db.currentCoreAssetId]? = some a) :
    a.dynamicData.accumulatedFees + db.properties.witnessBudget ≤
      a.dynamicData.currentSupply := by
  have nonneg := covered.surplus
  have isSupply :
      outstandingOf db.assets db.currentCoreAssetId = outstanding a := by
    rw [outstandingOf, found]
    rfl
  rw [Database.surplus, inAsset, if_pos rfl, isSupply, outstanding] at nonneg
  have holders := held_nonneg covered.sound db.currentCoreAssetId
  have budget := witnessBudget_le_coreHeld covered.sound
  have confidential :=
    (covered.sound.assets a (List.mem_of_getElem? found)).confidentialSupply
  omega

theorem Covered.funded (covered : Covered db)
    (found : db.assets[db.currentCoreAssetId]? = some a) : FundedBy db a := by
  have inOrder := covered.sound.assets a (List.mem_of_getElem? found)
  refine ⟨found, inOrder.accumulatedFees, covered.sound.witnessBudget,
    covered.covers found, inOrder.supply_le, ?_⟩
  have atMost := inOrder.maxSupply_le
  unfold GRAPHENE_MAX_SHARE_SUPPLY at atMost
  omega

theorem Covered.bounded (covered : Covered db) : SuppliesBounded db where
  supply a member := by
    have inOrder := covered.sound.assets a member
    refine ⟨?_, inOrder.supply_le, inOrder.maxSupply_le⟩
    obtain ⟨id, found⟩ := List.getElem?_of_mem member
    by_cases isCore : id = db.currentCoreAssetId
    · rw [isCore] at found
      have covers := covered.covers found
      have budget := covered.sound.witnessBudget
      have fees := inOrder.accumulatedFees
      omega
    · exact covered.sound.supplies id a found isCore
  pools a member :=
    ⟨(covered.sound.assets a member).feePool,
      (covered.sound.assets a member).accumulatedFees⟩
  balances := covered.sound.balances

/-- A call that keeps the holders sound and takes nothing from the surplus keeps
the state covered. -/
theorem Covered.keep {after : Database} {credit : AssetId → Int}
    (covered : Covered db) (moves : Moves db.currentCoreAssetId db after credit)
    (keeps : Keeps db.currentCoreAssetId db after)
    (atMost : credit db.currentCoreAssetId ≤ 0) : Covered after := by
  have sameCore := moves.core_eq
  refine ⟨?_, ?_⟩
  · rw [sameCore]
    exact keeps covered.sound
  · rw [sameCore, moves.surplus_eq]
    have nonneg := covered.surplus
    omega

end Covered

section ProcessFees

variable {core : AssetId} {db after : Database} {id acct : AccountId}
  {account : AccountObject} {amount fees : Int} {requireVesting : Bool}

theorem payCashback_keeps
    (isCore : db.currentCoreAssetId = core) (nonneg : 0 ≤ amount)
    (returns : db.payCashback acct amount requireVesting = .ok after) :
    Moves core db after (fun id => inAsset id core amount) ∧
      Keeps core db after := by
  obtain ⟨_, _, deposits⟩ := bind_eq_ok.mp returns
  exact ⟨depositCashback_moves isCore deposits,
    depositCashback_sound isCore nonneg deposits⟩

theorem keeps_trans {middle : Database} (first : Keeps core db middle)
    (later : Keeps core middle after) : Keeps core db after :=
  fun sound => later (first sound)

theorem renewReferrer_keeps (found : db.accounts[id]? = some account)
    (returns : db.renewReferrer id = .ok after) :
    Moves core db after 0 ∧ Keeps core db after := by
  cases renewReferrer_eq_ok found returns
  constructor
  · refine (setAccount_moves _ found).congr ?_
    intro asset
    simp [pending]
  · intro sound
    exact setAccount_sound sound
      (sound.accounts account (List.mem_of_getElem? found))

theorem accumulateFees_keeps (isCore : db.currentCoreAssetId = core)
    (nonneg : 0 ≤ amount) (returns : db.accumulateFees amount = .ok after) :
    Moves core db after (fun id => inAsset id core amount) ∧
      Keeps core db after := by
  rw [accumulateFees, modifyDynamicData_eq_ok] at returns
  obtain ⟨a, found, d, changed, rfl⟩ := returns
  obtain ⟨accumulated, checked, changed⟩ := bind_eq_ok.mp changed
  cases changed
  rw [eq_of_share checked, isCore]
  rw [isCore] at found
  constructor
  · refine (setAsset_moves _ found).congr ?_
    intro asset
    simp only [outstanding, inAsset_sub, inAsset_add]
    omega
  · intro sound
    have before := sound.assets a (List.mem_of_getElem? found)
    refine setAsset_sound sound { before with accumulatedFees := ?_ } ?_
    · exact Int.add_nonneg before.accumulatedFees nonneg
    · exact sound.supplies core a found

/-- Fees that are paid out are credited to the holders of the core asset. -/
theorem payOutFees_keeps (isCore : db.currentCoreAssetId = core)
    (nonneg : 0 ≤ fees) (fits : fees < 2 ^ 63)
    (found : db.accounts[id]? = some account)
    (returns : db.payOutFees id fees requireVesting = .ok after) :
    Moves core db after (fun id => inAsset id core fees) ∧
      Keeps core db after := by
  obtain ⟨inside, _⟩ := List.getElem?_eq_some_iff.mp found
  obtain ⟨renewed, renews, returns⟩ := bind_eq_ok.mp returns
  obtain ⟨row, isRow, returns⟩ := bind_eq_ok.mp returns
  have isRenewed : renewed.accounts[id]? =
      some { account with referrer := db.paidReferrer account } := by
    rw [renewReferrer_eq_ok found renews]
    exact List.getElem?_set_self inside
  cases isRenewed.symm.trans (getAccount_eq_ok.mp isRow)
  have computes := computes_feeCuts account.feeSplit nonneg fits
  simp only [computes.network, computes.lifetime, computes.rest,
    computes.referral, computes.referrer, computes.registrar, bind_eq_ok,
    Except.ok.injEq, exists_eq_left'] at returns
  obtain ⟨network, accumulates, first, paysFirst, second, paysSecond,
    paysLast⟩ := returns
  obtain ⟨lowNetwork, lowLifetime, lowReferrer, lowRegistrar, whole⟩ :=
    feeCuts_exact account.feeSplit nonneg
  have renewing := @renewReferrer_keeps core _ _ _ _ found renews
  have coreRenewed := renewing.1.core_eq.trans isCore
  have networking := accumulateFees_keeps coreRenewed lowNetwork accumulates
  have coreNetwork := networking.1.core_eq.trans coreRenewed
  have paying := payCashback_keeps coreNetwork lowLifetime paysFirst
  have coreFirst := paying.1.core_eq.trans coreNetwork
  have payingSecond := payCashback_keeps coreFirst lowReferrer paysSecond
  have coreSecond := payingSecond.1.core_eq.trans coreFirst
  have payingLast := payCashback_keeps coreSecond lowRegistrar paysLast
  constructor
  · refine ((((renewing.1.trans networking.1).trans paying.1).trans
      payingSecond.1).trans payingLast.1).congr ?_
    intro asset
    simp only [Pi.add_apply, Pi.zero_apply, Int.zero_add, ← inAsset_add]
    exact congrArg (inAsset asset core) whole
  · exact keeps_trans renewing.2 (keeps_trans networking.2
      (keeps_trans paying.2 (keeps_trans payingSecond.2 payingLast.2)))

/-- The fees of an account leave its pending fees for the holders who get
them. -/
theorem processFees_keeps (isCore : db.currentCoreAssetId = core)
    (inRange :
      ∀ a ∈ db.accounts,
        (0 ≤ a.pendingFees ∧ a.pendingFees < 2 ^ 63) ∧
          (0 ≤ a.pendingVestedFees ∧ a.pendingVestedFees < 2 ^ 63))
    (returns : db.processFees id = .ok after) :
    Moves core db after 0 ∧ Keeps core db after := by
  obtain ⟨account, found, returns⟩ := bind_eq_ok.mp returns
  rw [getAccount_eq_ok] at found
  obtain ⟨fees, vested⟩ := inRange account (List.mem_of_getElem? found)
  split at returns
  · simp only [bind_eq_ok, getAccount_eq_ok] at returns
    obtain ⟨middle, paysFees, last, paysVested, _, _, _, _, row, isRow,
      returns⟩ := returns
    cases returns
    obtain ⟨_, middleTerms⟩ :=
      payOutFees_disbursed fees.1 fees.2 found paysFees
    obtain ⟨middleRow, isMiddle, middleSame⟩ := row_of_terms middleTerms found
    obtain ⟨_, lastTerms⟩ :=
      payOutFees_disbursed vested.1 vested.2 isMiddle paysVested
    obtain ⟨lastRow, isLast, lastSame⟩ := row_of_terms lastTerms isMiddle
    cases isRow.symm.trans isLast
    have samePending : pending row = pending account := by
      show pending row.terms = pending account.terms
      rw [lastSame, middleSame]
    have paying := payOutFees_keeps isCore fees.1 fees.2 found paysFees
    have coreMiddle := paying.1.core_eq.trans isCore
    have payingVested :=
      payOutFees_keeps coreMiddle vested.1 vested.2 isMiddle paysVested
    constructor
    · refine ((paying.1.trans payingVested.1).trans
        (setAccount_moves _ isRow)).congr ?_
      intro asset
      simp only [Pi.add_apply, Pi.zero_apply, samePending, ← inAsset_add]
      refine (congrArg (inAsset asset core) ?_).trans (inAsset_zero asset core)
      simp only [pending]
      omega
    · intro sound
      have nothing : (0 : Int) ≤ 0 ∧ (0 : Int) < 2 ^ 63 := by decide
      exact setAccount_sound (payingVested.2 (paying.2 sound))
        ⟨nothing, nothing⟩
  · cases returns
    exact ⟨Moves.refl core db, fun sound => sound⟩

end ProcessFees

section Block

/-- `update_global_dynamic_data`: the block is the head. -/
def Database.updateGlobalDynamicData (db : Database) (timestamp : Time) :
    Database :=
  { db with
    properties := { db.properties with
      headBlockNumber := db.properties.headBlockNumber + 1
      time := timestamp } }

/-- `modify` on the witness budget and the staking reward pool. -/
def Database.setFunds (db : Database) (witnessBudget pool : Int) : Database :=
  { db with
    properties := { db.properties with
      witnessBudget := witnessBudget
      currentStakingRewardPool := pool } }

/-- `update_signing_witness`: the witness is paid out of the budget, and since
staking a part of the pay goes to the reward pool. -/
def Database.updateSigningWitness (db : Database) (wit : WitnessId) :
    Except Fault Database := do
  let witnessPay :=
    min db.parameters.witnessPayPerBlock db.properties.witnessBudget
  let budget ← share (db.properties.witnessBudget - witnessPay)
  let db := db.setFunds budget db.properties.currentStakingRewardPool
  if db.headBlockTime > HARDFORK_1025_TIME ∧
      db.parameters.voteParams.stakingModeOn = true then do
    let product ←
      share
        (witnessPay * db.parameters.voteParams.witnessRewardProportion.toNat)
    let witnessRewards := min (product.tdiv 1000) witnessPay
    let rest ← share (witnessPay - witnessRewards)
    let pool ← share (db.properties.currentStakingRewardPool + rest)
    (db.setFunds db.properties.witnessBudget pool).depositWitnessPay wit
      witnessRewards
  else
    db.depositWitnessPay wit witnessPay

variable {core : AssetId} {db after : Database} {wit : WitnessId}

theorem setFunds_moves (witnessBudget pool : Int) :
    Moves core db (db.setFunds witnessBudget pool)
      (fun id =>
        inAsset id core
          (witnessBudget + pool -
            (db.properties.witnessBudget +
              db.properties.currentStakingRewardPool))) := by
  refine ⟨rfl, ?_⟩
  intro id
  simp only [surplus, setFunds, held, coreHeld, fbaHeld, inAsset_add,
    inAsset_sub]
  omega

theorem setFunds_sound {witnessBudget pool : Int} (sound : Sound core db)
    (budgetNonneg : 0 ≤ witnessBudget) (poolNonneg : 0 ≤ pool)
    (poolFits : pool < 2 ^ 63) : Sound core (db.setFunds witnessBudget pool) :=
  { sound with
    witnessBudget := budgetNonneg
    stakingRewardPool := ⟨poolNonneg, poolFits⟩ }

theorem fundedDeposit_keeps {witnessBudget pool amount : Int}
    (isCore : db.currentCoreAssetId = core) (budgetNonneg : 0 ≤ witnessBudget)
    (poolRange : 0 ≤ pool ∧ pool < 2 ^ 63) (nonneg : 0 ≤ amount)
    (paidFor :
      witnessBudget + pool + amount =
        db.properties.witnessBudget + db.properties.currentStakingRewardPool)
    (deposits :
      (db.setFunds witnessBudget pool).depositWitnessPay wit amount =
        .ok after) : Moves core db after 0 ∧ Keeps core db after := by
  have funding := @setFunds_moves core db witnessBudget pool
  have depositing :=
    depositWitnessPay_moves (funding.core_eq.trans isCore) deposits
  constructor
  · refine (funding.trans depositing).congr ?_
    intro id
    simp only [Pi.add_apply, Pi.zero_apply, ← inAsset_add]
    refine (congrArg (inAsset id core) ?_).trans (inAsset_zero id core)
    omega
  · intro sound
    exact depositWitnessPay_sound nonneg deposits
      (setFunds_sound sound budgetNonneg poolRange.1 poolRange.2)

/-- What a witness and the reward pool get is taken from the budget. -/
theorem updateSigningWitness_keeps (isCore : db.currentCoreAssetId = core)
    (pays : 0 ≤ db.parameters.witnessPayPerBlock) (sound : Sound core db)
    (returns : db.updateSigningWitness wit = .ok after) :
    Moves core db after 0 ∧ Keeps core db after := by
  have budgetNonneg := sound.witnessBudget
  obtain ⟨poolNonneg, poolFits⟩ := sound.stakingRewardPool
  obtain ⟨witnessPay, isPay⟩ :
      ∃ witnessPay, witnessPay =
        min db.parameters.witnessPayPerBlock db.properties.witnessBudget :=
    ⟨_, rfl⟩
  have payNonneg : 0 ≤ witnessPay := by
    rw [isPay]
    exact le_min pays budgetNonneg
  have payCovered : witnessPay ≤ db.properties.witnessBudget := by
    rw [isPay]
    exact min_le_right _ _
  rw [updateSigningWitness, ← isPay] at returns
  obtain ⟨budget, isBudget, returns⟩ := bind_eq_ok.mp returns
  have sameBudget := eq_of_share isBudget
  dsimp only at returns
  split at returns
  · obtain ⟨product, isProduct, returns⟩ := bind_eq_ok.mp returns
    obtain ⟨rest, isRest, returns⟩ := bind_eq_ok.mp returns
    obtain ⟨pool, isPool, deposits⟩ := bind_eq_ok.mp returns
    obtain ⟨rewards, isRewards⟩ :
        ∃ rewards, rewards = min (product.tdiv 1000) witnessPay := ⟨_, rfl⟩
    rw [← isRewards] at isRest deposits
    have productNonneg : 0 ≤ product := by
      rw [eq_of_share isProduct]
      exact Int.mul_nonneg payNonneg (Int.natCast_nonneg _)
    have rewardsNonneg : 0 ≤ rewards := by
      rw [isRewards]
      exact le_min (Int.tdiv_nonneg productNonneg (by decide)) payNonneg
    have rewardsCovered : rewards ≤ witnessPay := by
      rw [isRewards]
      exact min_le_right _ _
    obtain ⟨samePool, _, newFits⟩ := share_eq_ok isPool
    have isSum : pool =
        db.properties.currentStakingRewardPool + (witnessPay - rewards) :=
      samePool.trans (congrArg _ (eq_of_share isRest))
    have poolRange : 0 ≤ pool ∧ pool < 2 ^ 63 := by
      refine ⟨by omega, ?_⟩
      rw [samePool]
      exact newFits
    have deposited :
        (db.setFunds budget pool).depositWitnessPay wit rewards =
          .ok after := deposits
    exact fundedDeposit_keeps isCore (by omega) poolRange rewardsNonneg
      (by omega) deposited
  · exact fundedDeposit_keeps isCore (by omega) ⟨poolNonneg, poolFits⟩
      payNonneg (by omega) returns

end Block

section Budget

variable {db after : Database} {a : AssetObject} {record : BudgetRecord}

/-- The core asset after a budget: the supply changes by what the budget takes
beside the fees and the budget before. -/
def Database.lentTo (db : Database) (a : AssetObject) (witnessBudget : Int) :
    AssetObject :=
  { a with
    dynamicData := { a.dynamicData with
      currentSupply :=
        a.dynamicData.currentSupply +
          (witnessBudget - a.dynamicData.accumulatedFees -
            db.properties.witnessBudget)
      accumulatedFees := 0 } }

def Database.setBudgetTime (db : Database) : Database :=
  { db with
    properties := { db.properties with
      lastBudgetTime := db.properties.time } }

def Database.budgeted (db : Database) (a : AssetObject) (witnessBudget : Int) :
    Database :=
  ((db.setAsset db.currentCoreAssetId (db.lentTo a witnessBudget)).setFunds
    witnessBudget db.properties.currentStakingRewardPool).setBudgetTime

theorem processBudget_eq_ok (funded : FundedBy db a)
    (processed : db.processBudget = .ok (after, record)) :
    ∃ witnessBudget,
      witnessBudget ≤ reserveOf db a ∧ witnessBudget ≤ db.requestedBudget ∧
        (0 ≤ db.requestedBudget → 0 ≤ witnessBudget) ∧
        after = db.budgeted a witnessBudget := by
  obtain ⟨made, isMade, isFees, isUnused, low, high⟩ :=
    initializeBudgetRecord_spec funded
  simp only [processBudget, isMade, bind_eq_ok, getAsset_eq_ok,
    Except.ok.injEq, exists_eq_left', isFees, isUnused] at processed
  obtain ⟨core, isCore, _, _, less, isLess, delta, isDelta, supply, isSupply,
    returned⟩ := processed
  cases funded.found.symm.trans isCore
  cases returned
  refine ⟨min db.requestedBudget made.totalBudget,
    Int.le_trans (min_le_right _ _) high, min_le_left _ _,
    fun asked => le_min asked low, ?_⟩
  rw [eq_of_share isSupply, eq_of_share isDelta, eq_of_share isLess]
  rfl

theorem setBudgetTime_moves (core : AssetId) (db : Database) :
    Moves core db db.setBudgetTime 0 :=
  ⟨rfl, fun id => by
    simp [setBudgetTime, surplus, held, coreHeld, fbaHeld]⟩

theorem budgeted_moves {witnessBudget : Int}
    (found : db.assets[db.currentCoreAssetId]? = some a) :
    Moves db.currentCoreAssetId db (db.budgeted a witnessBudget) 0 := by
  refine (((setAsset_moves (db.lentTo a witnessBudget) found).trans
    (setFunds_moves witnessBudget
      db.properties.currentStakingRewardPool)).trans
        (setBudgetTime_moves _ _)).congr ?_
  intro id
  simp only [Pi.add_apply, Pi.zero_apply, outstanding, lentTo, setAsset,
    ← inAsset_add, Int.add_zero]
  refine (congrArg (inAsset id _) ?_).trans (inAsset_zero id _)
  omega

theorem budgeted_sound {witnessBudget : Int} (funded : FundedBy db a)
    (sound : Sound db.currentCoreAssetId db) (nonneg : 0 ≤ witnessBudget)
    (atMost : witnessBudget ≤ reserveOf db a) :
    Sound db.currentCoreAssetId (db.budgeted a witnessBudget) := by
  have before := sound.assets a (List.mem_of_getElem? funded.found)
  rw [reserveOf] at atMost
  have inOrder : SoundAsset (db.lentTo a witnessBudget) :=
    { before with
      accumulatedFees := Int.le_refl 0
      supply_le := by
        show a.dynamicData.currentSupply +
            (witnessBudget - a.dynamicData.accumulatedFees -
              db.properties.witnessBudget) ≤ a.options.maxSupply
        omega }
  have supplied :
      Sound db.currentCoreAssetId
        (db.setAsset db.currentCoreAssetId (db.lentTo a witnessBudget)) :=
    setAsset_sound sound inOrder fun notCore => absurd rfl notCore
  have funds :=
    setFunds_sound supplied nonneg sound.stakingRewardPool.1
      sound.stakingRewardPool.2
  exact { funds with }

/-- The end of a maintenance that stays within its bounds. -/
theorem Covered.finish (covered : Covered db) (due : Due db)
    (within : Within db)
    (finished : db.finishMaintenance = .ok (after, record)) :
    Covered after := by
  have ready : Covered db.installParameters.setMaintenanceTime :=
    ⟨{ covered.sound with }, covered.surplus⟩
  have asked : 0 ≤ db.installParameters.setMaintenanceTime.requestedBudget := by
    rw [requestedBudget_nonneg_iff, blocksToMaint_ready due within.time]
    exact within.budget
  obtain ⟨a, found⟩ :
      ∃ a, db.assets[db.currentCoreAssetId]? = some a := by
    rw [finishMaintenance, processBudget] at finished
    obtain ⟨a, found, _⟩ := bind_eq_ok.mp finished
    exact ⟨a, getAsset_eq_ok.mp found⟩
  have funded := ready.funded found
  obtain ⟨witnessBudget, atMost, _, nonneg, rfl⟩ :=
    processBudget_eq_ok funded finished
  exact ready.keep (budgeted_moves found)
    (fun sound => budgeted_sound funded sound (nonneg asked) atMost)
    (Int.le_refl 0)

end Budget

section Runs

variable {db after : Database}

/-- An operation of which the fee is all there is to see here. -/
def Evaluator.OnlyPays (eval : Evaluator) : Prop :=
  eval.PaysWhole ∧ ∀ coreFee db, eval.doApply coreFee db = .ok db

/-- One step on the supplies, with what it has to meet for them to stay within
their bounds. -/
inductive SupplyStep (db : Database) : Database → Prop
  | create {after : Database} (required : Option Int)
      (o : AssetCreateOperation) (valid : o.validate = .ok ())
      (fits : OddFeeFits db o)
      (returns : (assetCreateEvaluator required o).run db = .ok after) :
      SupplyStep db after
  | update {after : Database} (required : Option Int)
      (o : AssetUpdateOperation) (valid : o.validate = .ok ())
      (covers :
        ∀ a, db.assets[o.assetToUpdate]? = some a →
          a.dynamicData.currentSupply ≤ o.newOptions.maxSupply)
      (returns : (assetUpdateEvaluator required o).run db = .ok after) :
      SupplyStep db after
  | issue {after : Database} (required : Option Int)
      (o : AssetIssueOperation) (valid : o.validate = .ok ())
      (returns : (assetIssueEvaluator required o).run db = .ok after) :
      SupplyStep db after
  | reserve {after : Database} (required : Option Int)
      (o : AssetReserveOperation) (valid : o.validate = .ok ())
      (returns : (assetReserveEvaluator required o).run db = .ok after) :
      SupplyStep db after
  | fundFeePool {after : Database} (required : Option Int)
      (o : AssetFundFeePoolOperation) (valid : o.validate = .ok ())
      (returns : (assetFundFeePoolEvaluator required o).run db = .ok after) :
      SupplyStep db after
  | claimFees {after : Database} (required : Option Int)
      (o : AssetClaimFeesOperation) (valid : o.validate = .ok ())
      (returns : (assetClaimFeesEvaluator required o).run db = .ok after) :
      SupplyStep db after
  | payFee {after : Database} (eval : Evaluator) (only : eval.OnlyPays)
      (returns : eval.run db = .ok after) : SupplyStep db after
  | processFees {after : Database} (id : AccountId)
      (returns : db.processFees id = .ok after) : SupplyStep db after
  /-- a new head block; the hard fork that changes the core asset finds the new
  one covered -/
  | block {after : Database} (timestamp : Time) (wit : WitnessId)
      (pays : 0 ≤ db.parameters.witnessPayPerBlock)
      (sameCore :
        (db.updateGlobalDynamicData timestamp).currentCoreAssetId =
            db.currentCoreAssetId ∨
          Covered (db.updateGlobalDynamicData timestamp))
      (returns :
        (db.updateGlobalDynamicData timestamp).updateSigningWitness wit =
          .ok after) : SupplyStep db after
  | maintain {after : Database} {record : BudgetRecord} (due : Due db)
      (within : Within db)
      (finished : db.finishMaintenance = .ok (after, record)) :
      SupplyStep db after

theorem clearedPool_nonneg {core : AssetId} (sound : Sound core db)
    (o : AssetUpdateOperation) : 0 ≤ clearedPool db o := by
  rw [clearedPool]
  cases found : db.assets[o.assetToUpdate]? with
  | none => exact Int.le_refl 0
  | some a =>
      rw [Option.map_some, Option.getD_some]
      split
      · exact (sound.assets a (List.mem_of_getElem? found)).feePool
      · exact Int.le_refl 0

theorem SupplyStep.covered (step : SupplyStep db after) (covered : Covered db) :
    Covered after := by
  cases step with
  | create required o valid fits returns =>
      obtain ⟨moves, keeps⟩ := assetCreate_keeps rfl valid returns
      exact covered.keep moves (keeps fits) (Int.le_refl 0)
  | update required o valid covers returns =>
      obtain ⟨coreFee, converted, prepared, converts, moves⟩ :=
        assetUpdate_moves rfl returns
      refine covered.keep moves (assetUpdate_sound valid covers returns) ?_
      have sound := convertFee_sound prepared converts covered.sound
      have poolNonneg := clearedPool_nonneg sound o
      rw [inAsset, if_pos rfl]
      omega
  | issue required o valid returns =>
      obtain ⟨moves, keeps⟩ := assetIssue_keeps rfl valid returns
      exact covered.keep moves keeps (Int.le_refl 0)
  | reserve required o valid returns =>
      obtain ⟨moves, keeps⟩ := assetReserve_keeps rfl valid returns
      exact covered.keep moves keeps (Int.le_refl 0)
  | fundFeePool required o valid returns =>
      obtain ⟨moves, keeps⟩ := assetFundFeePool_keeps rfl valid returns
      exact covered.keep moves keeps (Int.le_refl 0)
  | claimFees required o valid returns =>
      obtain ⟨moves, keeps⟩ := assetClaimFees_keeps rfl returns
      exact covered.keep moves keeps (Int.le_refl 0)
  | payFee eval only returns =>
      obtain ⟨moves, keeps⟩ :=
        @run_keeps _ _ _ _ 0 only.1 rfl
          (fun coreFee paid applied _ _ applies => by
            rw [only.2] at applies
            cases applies
            exact ⟨Moves.refl _ _, fun sound => sound⟩)
          returns
      exact covered.keep moves keeps (Int.le_refl 0)
  | processFees id returns =>
      obtain ⟨moves, keeps⟩ :=
        processFees_keeps rfl covered.sound.accounts returns
      exact covered.keep moves keeps (Int.le_refl 0)
  | block timestamp wit pays sameCore returns =>
      have headed : Covered (db.updateGlobalDynamicData timestamp) := by
        rcases sameCore with same | switched
        · refine ⟨?_, ?_⟩
          · rw [same]
            exact { covered.sound with }
          · rw [same]
            exact covered.surplus
        · exact switched
      have paysHere :
          0 ≤ (db.updateGlobalDynamicData
            timestamp).parameters.witnessPayPerBlock := pays
      obtain ⟨moves, keeps⟩ :=
        updateSigningWitness_keeps rfl paysHere headed.sound returns
      exact headed.keep moves keeps (Int.le_refl 0)
  | maintain due within finished =>
      exact covered.finish due within finished

/-- The states reached from one whose core supply is covered. -/
inductive SupplyRun : Database → Prop
  | start {db : Database} (covered : Covered db) : SupplyRun db
  | step {db after : Database} (run : SupplyRun db)
      (step : SupplyStep db after) : SupplyRun after

theorem SupplyRun.covered (run : SupplyRun db) : Covered db := by
  induction run with
  | start covered => exact covered
  | step _ step ih => exact step.covered ih

/-- In every run in which no update sets the maximum of an asset below its
supply, every supply stays between nothing and its maximum, and no pool, fees or
balance are negative. -/
theorem supplies_bounded (run : SupplyRun db) : SuppliesBounded db :=
  run.covered.bounded

end Runs

section Sample

/-- Two assets of which 100 have been issued, and their issuer. -/
def issuedDatabase : Database :=
  { plainDatabase with accounts := [plainAccount 1] }

def setsMaximum (maxSupply : Int) : AssetUpdateOperation where
  fee := ⟨0, 1⟩
  issuer := 0
  assetToUpdate := 0
  newIssuer := none
  newOptions := { plainAsset.options with maxSupply := maxSupply }
  newSymbol := none

theorem issuedDatabase_covered : Covered issuedDatabase where
  sound := { plainDatabase_sound with accounts := by decide }
  surplus := by decide

theorem supplies_bounded_lowered :
    ∃ after,
      (assetUpdateEvaluator none (setsMaximum 100)).run issuedDatabase =
          .ok after ∧
        SuppliesBounded after :=
  ⟨_, rfl, supplies_bounded
    (.step (.start issuedDatabase_covered)
      (.update none (setsMaximum 100) (by decide) (by decide) rfl))⟩

/-- The maximum can be set below what has been issued. -/
theorem maximum_below_supply :
    ∃ after, SupplyRun issuedDatabase ∧
      (setsMaximum 99).validate = .ok () ∧
      (assetUpdateEvaluator none (setsMaximum 99)).run issuedDatabase =
          .ok after ∧
        ¬ SuppliesBounded after := by
  refine ⟨_, .start issuedDatabase_covered, by decide, rfl, ?_⟩
  intro bounded
  exact absurd (bounded.supply _ List.mem_cons_self).2.1 (by decide)

end Sample

end GxbCore.Ledger
