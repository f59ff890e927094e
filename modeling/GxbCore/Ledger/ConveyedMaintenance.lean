import GxbCore.Ledger.ConveyedOperations
import GxbCore.Ledger.FbaDistribution

/-!
# Blocks and maintenance past all hard forks

The pay of a witness comes out of the witness budget, fees that are processed
come out of the pending fees, rewards come out of the reward pools, and a budget
is booked on the supply.  None of them conveys anything to the holders as a
whole.
-/

namespace GxbCore.Ledger

open Database

section Block

variable {db after : Database} {wit : WitnessId}

theorem LateState.headed (state : LateState db) {timestamp : Time}
    (later : db.headBlockTime < timestamp) :
    LateState (db.updateGlobalDynamicData timestamp) where
  late := Nat.lt_trans state.late later
  fees := state.fees
  pledges := state.pledges

theorem fundedDeposit_conveys {witnessBudget pool amount : Int}
    (paidFor :
      witnessBudget + pool + amount =
        db.properties.witnessBudget + db.properties.currentStakingRewardPool)
    (deposits :
      (db.setFunds witnessBudget pool).depositWitnessPay wit amount =
        .ok after) : Conveys db after 0 := by
  refine ((setFunds_conveys witnessBudget pool).trans
    (depositWitnessPay_conveys deposits)).congr ?_
  intro id
  simp only [Pi.add_apply, Pi.zero_apply, ← inAsset_add]
  refine (congrArg (inAsset id _) ?_).trans (inAsset_zero id _)
  omega

theorem updateSigningWitness_conveys
    (returns : db.updateSigningWitness wit = .ok after) :
    Conveys db after 0 := by
  rw [updateSigningWitness] at returns
  obtain ⟨budget, isBudget, returns⟩ := bind_eq_ok.mp returns
  have sameBudget := eq_of_share isBudget
  dsimp only at returns
  split at returns
  · obtain ⟨product, _, returns⟩ := bind_eq_ok.mp returns
    obtain ⟨rest, isRest, returns⟩ := bind_eq_ok.mp returns
    obtain ⟨pool, isPool, deposits⟩ := bind_eq_ok.mp returns
    have sameRest := eq_of_share isRest
    have samePool : pool = db.properties.currentStakingRewardPool + rest :=
      eq_of_share isPool
    exact @fundedDeposit_conveys db after wit budget pool _ (by omega) deposits
  · exact fundedDeposit_conveys (by omega) returns

end Block

section ProcessFees

variable {db after : Database} {id acct : AccountId} {amount : Int}
  {requireVesting : Bool}

theorem payCashback_late (state : LateState db)
    (returns : db.payCashback acct amount requireVesting = .ok after) :
    LateState after := by
  obtain ⟨_, _, deposits⟩ := bind_eq_ok.mp returns
  exact (depositCashback_conveys deposits state).2

theorem renewReferrer_late (state : LateState db)
    (returns : db.renewReferrer id = .ok after) : LateState after := by
  simp only [renewReferrer, bind_eq_ok, getAccount_eq_ok] at returns
  obtain ⟨account, found, referrer, _, returns⟩ := returns
  split at returns
  · cases returns
    exact (@setAccount_conveys_nothing db id account
      { account with referrer := account.lifetimeReferrer } found rfl rfl
        state).2
  · cases returns
    exact state

theorem payOutFees_late {fees : Int} (state : LateState db)
    (returns : db.payOutFees id fees requireVesting = .ok after) :
    LateState after := by
  simp only [payOutFees, bind_eq_ok] at returns
  obtain ⟨renewed, renews, row, _, network, _, lifetime, _, rest, _, referral,
    _, accumulated, accumulates, referrer, _, registrar, _, first, paysFirst,
    second, paysSecond, paysLast⟩ := returns
  have same := modifyDynamicData_sameRoles accumulates
  have stateRenewed := renewReferrer_late state renews
  have stateAccumulated :=
    stateRenewed.of_same same.time same.accounts same.pledges
  have stateFirst := payCashback_late stateAccumulated paysFirst
  exact payCashback_late (payCashback_late stateFirst paysSecond) paysLast

theorem processFees_conveys (returns : db.processFees id = .ok after) :
    Conveys db after 0 := by
  intro state
  refine ⟨(processFees_keeps state.core_eq state.fees returns).1, ?_⟩
  obtain ⟨account, _, returns⟩ := bind_eq_ok.mp returns
  split at returns
  · simp only [bind_eq_ok, getAccount_eq_ok] at returns
    obtain ⟨middle, paysFees, last, paysVested, _, _, _, _, row, found,
      returns⟩ := returns
    cases returns
    have stateLast :=
      payOutFees_late (payOutFees_late state paysFees) paysVested
    have nothing : FeesInRange 0 := ⟨by decide, by decide⟩
    exact { stateLast with
      fees := forall_set stateLast.fees ⟨nothing, nothing⟩ }
  · cases returns
    exact state

end ProcessFees

section Rewards

variable {db after : Database} {backup : List Witness} {s : Staking}

theorem statisticalVoteWeight_conveys (db : Database) :
    Conveys db db.statisticalVoteWeight 0 := by
  refine .of_same_holdings rfl ?_ rfl rfl
  intro id
  simp only [surplus, statisticalVoteWeight, held, coreHeld, fbaHeld, total,
    List.map_map, Function.comp_def]

/-- What a witness and its voters get is taken from the pool. -/
theorem payTrustNode_conveys {pools totalWeight : Int} {id : WitnessId}
    (returns : payTrustNode pools totalWeight db id = .ok after) :
    Conveys db after 0 := by
  simp only [payTrustNode, bind_eq_ok, getWitness_eq_ok] at returns
  obtain ⟨wit, found, returns⟩ := returns
  split at returns
  · simp only [bind_eq_ok] at returns
    obtain ⟨pay, _, pool, isPool, product, _, rewardPool, isRewardPool,
      witnessPay, isPay, deposits⟩ := returns
    have samePool := eq_of_share isPool
    have sameRewardPool := eq_of_share isRewardPool
    have samePay := eq_of_share isPay
    have taken := @setFunds_conveys db db.properties.witnessBudget pool
    have noted :=
      @setWitness_conveys
        (db.setFunds db.properties.witnessBudget pool) id wit
        { wit with voteRewardPool := rewardPool } found
    refine ((taken.trans noted).trans
      (depositWitnessPay_conveys deposits)).congr ?_
    intro asset
    simp only [Pi.add_apply, Pi.zero_apply, ← inAsset_add]
    refine (congrArg (inAsset asset _) ?_).trans (inAsset_zero asset _)
    omega
  · cases returns
    exact Conveys.refl db

theorem payVoter_conveys (returns : db.payVoter backup s = .ok after) :
    Conveys db after 0 := by
  simp only [payVoter, bind_eq_ok, getWitness_eq_ok] at returns
  obtain ⟨wit, _, pay, _, returns⟩ := returns
  split at returns
  · simp only [bind_eq_ok, getWitness_eq_ok] at returns
    obtain ⟨paid, pays, witness, found, pool, isPool, returns⟩ := returns
    cases returns
    refine ((stakingCashback_conveys pays).trans
      (setWitness_conveys { witness with voteRewardPool := pool }
        found)).congr ?_
    intro asset
    simp only [Pi.add_apply, Pi.zero_apply, ← inAsset_add, eq_of_share isPool]
    refine (congrArg (inAsset asset _) ?_).trans (inAsset_zero asset _)
    omega
  · cases returns
    exact Conveys.refl db

theorem handlingExpiredStaking_conveys {wit : WitnessId}
    (found : db.findStaking s.id = some s)
    (returns : db.handlingExpiredStaking s wit = .ok after) :
    Conveys db after 0 := by
  unfold handlingExpiredStaking at returns
  split at returns
  · have marked :
        Conveys db (db.setStaking { s with isValid := false }) 0 :=
      setStaking_conveys found rfl
    exact (marked.trans (reduceVoteWeights_conveys returns).1).congr
      fun _ => rfl
  · cases returns
    exact Conveys.refl db

theorem visitStaking_conveys {id : Nat}
    (returns : visitStaking backup db id = .ok after) : Conveys db after 0 := by
  unfold visitStaking at returns
  split at returns
  · cases returns
    exact Conveys.refl db
  · next s found =>
      have again : db.findStaking s.id = some s :=
        (id_of_findStaking found).symm ▸ found
      split at returns
      · unfold visitValidStaking at returns
        split at returns
        · obtain ⟨paid, pays, expires⟩ := bind_eq_ok.mp returns
          have foundPaid : paid.findStaking s.id = some s := by
            rw [findStaking, (payVoter_sameVotes pays).stakings]
            exact again
          exact ((payVoter_conveys pays).trans
            (handlingExpiredStaking_conveys foundPaid expires)).congr
              fun _ => rfl
        · split at returns
          · exact handlingExpiredStaking_conveys again returns
          · cases returns
            exact Conveys.refl db
      · cases returns
        exact Conveys.refl db

theorem distributeStakingRewards_conveys {tally : List Int}
    (returns : db.distributeStakingRewards tally = .ok after) :
    Conveys db after 0 := by
  simp only [distributeStakingRewards, bind_eq_ok] at returns
  obtain ⟨totalWeight, _, returns⟩ := returns
  split at returns
  · obtain ⟨paid, pays, visits⟩ := bind_eq_ok.mp returns
    have paying : Conveys db paid 0 := by
      refine @foldlM_keeps _ _ _ _ (fun middle => Conveys db middle 0) _ _ _
        ?_ (Conveys.refl db) pays
      intro id _ before later conveys pays
      exact (conveys.trans (payTrustNode_conveys pays)).congr fun _ => rfl
    refine @foldlM_keeps _ _ _ _ (fun middle => Conveys db middle 0) _ _ _ ?_
      paying visits
    intro id _ before later conveys visits
    exact (conveys.trans (visitStaking_conveys visits)).congr fun _ => rfl
  · cases returns
    exact Conveys.refl db

end Rewards

section Budget

variable {db after : Database} {record : BudgetRecord}

/-- A record begins with the fees and the budget that go back to the
reserve. -/
theorem initializeBudgetRecord_returned {a : AssetObject}
    (found : db.assets[db.currentCoreAssetId]? = some a)
    (returns : db.initializeBudgetRecord = .ok record) :
    record.fromAccumulatedFees = a.dynamicData.accumulatedFees ∧
      record.fromUnusedWitnessBudget = db.properties.witnessBudget := by
  simp only [initializeBudgetRecord, bind_eq_ok, getAsset_eq_ok] at returns
  obtain ⟨core, foundCore, reserve, _, returns⟩ := returns
  cases found.symm.trans foundCore
  split at returns
  · cases returns
    exact ⟨rfl, rfl⟩
  · simp only [bind_eq_ok] at returns
    obtain ⟨_, _, _, _, budget, _, returns⟩ := returns
    cases returns
    exact ⟨rfl, rfl⟩

/-- What is lent to the witnesses and what goes back is booked on the supply. -/
theorem processBudget_conveys
    (returns : db.processBudget = .ok (after, record)) :
    Conveys db after 0 := by
  simp only [processBudget, bind_eq_ok, getAsset_eq_ok] at returns
  obtain ⟨a, found, made, makes, _, _, less, isLess, delta, isDelta, supply,
    isSupply, returned⟩ := returns
  obtain ⟨fees, unused⟩ := initializeBudgetRecord_returned found makes
  obtain ⟨witnessBudget, isBudget⟩ :
      ∃ witnessBudget,
        witnessBudget = min db.requestedBudget made.totalBudget :=
    ⟨_, rfl⟩
  rw [← isBudget] at isLess returned
  have same : after = db.budgeted a witnessBudget := by
    cases returned
    rw [eq_of_share isSupply, eq_of_share isDelta, eq_of_share isLess, fees,
      unused]
    rfl
  rw [same]
  refine .of_moves ?_ rfl rfl
  intro isCore
  rw [← isCore]
  exact budgeted_moves found

theorem finishMaintenance_conveys
    (returns : db.finishMaintenance = .ok (after, record)) :
    Conveys db after 0 := by
  have installed : Conveys db db.installParameters.setMaintenanceTime 0 :=
    .of_same_holdings rfl (fun _ => rfl) rfl rfl
  exact (installed.trans (processBudget_conveys returns)).congr fun _ => rfl

/-- Nothing is distributed in a wrong asset: the accumulator is empty, or its
asset is not configured and all goes to the network. -/
def NothingDistributed (db : Database) (fbaId : Nat) : Prop :=
  ∀ fba, db.fbas[fbaId]? = some fba →
    fba.accumulatedFbaFees = 0 ∨ db.isConfigured fba = .ok false

theorem splitFbaBalance_conveys {fbaId : Nat}
    {networkPct buybackPct issuerPct : UInt16}
    (nothing : NothingDistributed db fbaId)
    (returns :
      db.splitFbaBalance fbaId networkPct buybackPct issuerPct =
        .ok after) : Conveys db after 0 := by
  simp only [splitFbaBalance, bind_eq_ok, orThrow_eq_ok] at returns
  obtain ⟨_, _, fba, found, returns⟩ := returns
  split at returns
  · cases returns
    exact Conveys.refl db
  · next filled =>
      have configured :=
        (nothing fba found).resolve_left filled
      simp only [bind_eq_ok] at returns
      obtain ⟨_, _, isConfigured, asked, returns⟩ := returns
      cases configured.symm.trans asked
      simp only [Bool.not_false, if_true, bind_eq_ok] at returns
      obtain ⟨lowered, lowers, returns⟩ := returns
      cases returns
      rw [lowerSupply, modifyDynamicData_eq_ok] at lowers
      obtain ⟨a, foundAsset, d, changed, rfl⟩ := lowers
      obtain ⟨supply, checked, changed⟩ := bind_eq_ok.mp changed
      cases changed
      have lowering := setAsset_conveys
        { a with
          dynamicData := { a.dynamicData with currentSupply := supply } }
        foundAsset
      have clearing : Conveys
          (db.setAsset db.currentCoreAssetId
            { a with
              dynamicData := { a.dynamicData with currentSupply := supply } })
          ((db.setAsset db.currentCoreAssetId
            { a with
              dynamicData :=
                { a.dynamicData with currentSupply := supply } }).clearFba
            fbaId fba) _ :=
        .of_moves (fun _ => setFba_moves _ found) rfl rfl
      intro state
      refine (lowering.trans clearing).congr ?_ state
      intro id
      simp only [Pi.add_apply, Pi.zero_apply, outstanding, state.core_eq,
        eq_of_share checked, ← inAsset_add]
      refine (congrArg (inAsset id _) ?_).trans (inAsset_zero id _)
      omega

end Budget

end GxbCore.Ledger
