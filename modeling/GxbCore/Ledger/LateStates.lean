import GxbCore.Ledger.AssetOps
import GxbCore.Ledger.SupplyBounds
import GxbCore.Ledger.Transfers

/-!
# Calls past all hard forks

Past the last hard fork asset 1 is the core asset for good.  A late state is one
past it, whose unprocessed fees are in the range of an amount and whose pledges
are in the core asset.  A call conveys a credit when it leaves a late state late
and credits the holders of each asset, net of what it adds to the supply, by as
much.  What is conveyed adds up along a sequence of calls.
-/

namespace GxbCore.Ledger

open Database

section LateState

/-- An amount of fees that is not negative and fits 64 bits with a sign. -/
def FeesInRange (fees : Int) : Prop :=
  0 ≤ fees ∧ fees < 2 ^ 63

/-- A state past the last hard fork. -/
structure LateState (db : Database) : Prop where
  late : HARDFORK_1029_TIME < db.headBlockTime
  fees :
    ∀ a ∈ db.accounts,
      FeesInRange a.pendingFees ∧ FeesInRange a.pendingVestedFees
  pledges : ∀ p ∈ db.pledges, p.amount.assetId = GRAPHENE_GXS_ASSET

/-- The call leaves a late state late and credits the holders of each asset with
`credit`, net of what it adds to the supply. -/
def Conveys (db after : Database) (credit : AssetId → Int) : Prop :=
  LateState db → Moves GRAPHENE_GXS_ASSET db after credit ∧ LateState after

variable {db middle after : Database} {credit more : AssetId → Int}

theorem LateState.core_eq (state : LateState db) :
    db.currentCoreAssetId = GRAPHENE_GXS_ASSET := by
  have late := state.late
  unfold currentCoreAssetId
  rw [if_pos]
  · rfl
  · exact Nat.lt_trans (by decide : HARDFORK_1008_TIME < HARDFORK_1029_TIME)
      late

/-- A state is late when its time, its accounts and its pledges are those of a
late state. -/
theorem LateState.of_same (state : LateState db)
    (sameTime : after.properties.time = db.properties.time)
    (sameAccounts : after.accounts = db.accounts)
    (samePledges : after.pledges = db.pledges) : LateState after where
  late := by
    rw [headBlockTime, sameTime]
    exact state.late
  fees := by
    rw [sameAccounts]
    exact state.fees
  pledges := by
    rw [samePledges]
    exact state.pledges

namespace Conveys

theorem refl (db : Database) : Conveys db db 0 :=
  fun state => ⟨Moves.refl _ db, state⟩

theorem trans (first : Conveys db middle credit)
    (later : Conveys middle after more) : Conveys db after (credit + more) := by
  intro state
  obtain ⟨moves, stateMiddle⟩ := first state
  obtain ⟨movesMore, stateAfter⟩ := later stateMiddle
  exact ⟨moves.trans movesMore, stateAfter⟩

theorem congr (conveys : Conveys db after credit)
    (same : ∀ id, credit id = more id) : Conveys db after more := by
  intro state
  obtain ⟨moves, stateAfter⟩ := conveys state
  exact ⟨moves.congr same, stateAfter⟩

/-- A call that touches neither accounts nor pledges. -/
theorem of_moves
    (moves :
      db.currentCoreAssetId = GRAPHENE_GXS_ASSET →
        Moves GRAPHENE_GXS_ASSET db after credit)
    (sameAccounts : after.accounts = db.accounts)
    (samePledges : after.pledges = db.pledges) : Conveys db after credit := by
  intro state
  have moved := moves state.core_eq
  exact ⟨moved, state.of_same moved.sameTime sameAccounts samePledges⟩

theorem of_same_holdings (sameTime : after.properties.time = db.properties.time)
    (sameSurplus :
      ∀ id, surplus GRAPHENE_GXS_ASSET after id =
        surplus GRAPHENE_GXS_ASSET db id)
    (sameAccounts : after.accounts = db.accounts)
    (samePledges : after.pledges = db.pledges) : Conveys db after 0 :=
  of_moves
    (fun _ =>
      ⟨sameTime, fun id => by
        rw [sameSurplus, Pi.zero_apply, Int.sub_zero]⟩)
    sameAccounts samePledges

end Conveys

end LateState

section Rows

variable {db after : Database}

theorem adjustBalance_conveys {account : AccountId} {delta : Asset}
    (returns : db.adjustBalance account delta = .ok after) :
    Conveys db after (fun id => inAsset id delta.assetId delta.amount) := by
  have frame := adjustBalance_frame returns
  exact .of_moves (fun _ => adjustBalance_moves returns) (by rw [frame])
    (by rw [frame])

theorem setAsset_conveys {id : AssetId} {a : AssetObject}
    (fresh : AssetObject) (found : db.assets[id]? = some a) :
    Conveys db (db.setAsset id fresh)
      (fun x =>
        inAsset x id (outstanding a - outstanding fresh)
          + inAsset x GRAPHENE_GXS_ASSET
              (fresh.dynamicData.feePool - a.dynamicData.feePool)) :=
  .of_moves (fun _ => setAsset_moves fresh found) rfl rfl

theorem setAccount_conveys {id : AccountId} {a fresh : AccountObject}
    (found : db.accounts[id]? = some a)
    (inRange :
      LateState db →
        FeesInRange fresh.pendingFees ∧ FeesInRange fresh.pendingVestedFees) :
    Conveys db (db.setAccount id fresh)
      (fun x => inAsset x GRAPHENE_GXS_ASSET (pending fresh - pending a)) := by
  intro state
  refine ⟨setAccount_moves fresh found, ?_⟩
  exact { state with fees := forall_set state.fees (inRange state) }

theorem LateState.feesOf (state : LateState db) {id : AccountId}
    {a : AccountObject} (found : db.accounts[id]? = some a) :
    FeesInRange a.pendingFees ∧ FeesInRange a.pendingVestedFees :=
  state.fees a (List.mem_of_getElem? found)

theorem setAccount_conveys_nothing {id : AccountId} {a fresh : AccountObject}
    (found : db.accounts[id]? = some a)
    (sameFees : fresh.pendingFees = a.pendingFees)
    (sameVested : fresh.pendingVestedFees = a.pendingVestedFees) :
    Conveys db (db.setAccount id fresh) 0 := by
  refine (setAccount_conveys found ?_).congr ?_
  · intro state
    rw [sameFees, sameVested]
    exact state.feesOf found
  · intro x
    simp [pending, sameFees, sameVested]

theorem setWitness_conveys {id : WitnessId} {w : Witness} (fresh : Witness)
    (found : db.witnesses[id]? = some w) :
    Conveys db (db.setWitness id fresh)
      (fun x =>
        inAsset x GRAPHENE_GXS_ASSET
          (fresh.voteRewardPool - w.voteRewardPool)) :=
  .of_moves (fun _ => setWitness_moves fresh found) rfl rfl

theorem setWitness_conveys_nothing {id : WitnessId} {w : Witness}
    (fresh : Witness) (found : db.witnesses[id]? = some w)
    (samePool : fresh.voteRewardPool = w.voteRewardPool) :
    Conveys db (db.setWitness id fresh) 0 := by
  refine (setWitness_conveys fresh found).congr ?_
  intro x
  simp [samePool]

theorem setFunds_conveys (witnessBudget pool : Int) :
    Conveys db (db.setFunds witnessBudget pool)
      (fun id =>
        inAsset id GRAPHENE_GXS_ASSET
          (witnessBudget + pool -
            (db.properties.witnessBudget +
              db.properties.currentStakingRewardPool))) :=
  .of_moves (fun _ => setFunds_moves witnessBudget pool) rfl rfl

end Rows

section Deposits

variable {db middle after : Database} {acct : AccountId} {amount : Int}
  {ovbid newVbid : Option VestingBalanceId} {requireVesting : Bool}

theorem depositLazyVesting_conveys {seconds : UInt32} {owner : AccountId}
    (returns :
      db.depositLazyVesting ovbid amount seconds owner requireVesting =
        .ok (newVbid, after)) :
    Conveys db after (fun id => inAsset id GRAPHENE_GXS_ASSET amount) := by
  have frame := depositLazyVesting_frame returns
  exact .of_moves (fun isCore => depositLazyVesting_moves isCore returns)
    (by rw [frame]) (by rw [frame])

theorem depositForAccount_conveys {seconds : UInt32} {owner : AccountId}
    {account : AccountObject} (found : db.accounts[acct]? = some account)
    (deposits :
      db.depositLazyVesting ovbid amount seconds owner requireVesting =
        .ok (newVbid, middle))
    (points : PointsAccount acct account middle after) :
    Conveys db after (fun id => inAsset id GRAPHENE_GXS_ASSET amount) := by
  have conveys := depositLazyVesting_conveys deposits
  rcases points with same | ⟨fresh, pointed, fees, vestedFees⟩
  · rw [same]
    exact conveys
  · have foundMiddle : middle.accounts[acct]? = some account := by
      rw [depositLazyVesting_frame deposits]
      exact found
    rw [pointed]
    refine (conveys.trans
      (setAccount_conveys_nothing foundMiddle fees vestedFees)).congr ?_
    intro id
    exact Int.add_zero _

theorem Conveys.nothing (nothing : amount = 0) :
    Conveys db db (fun id => inAsset id GRAPHENE_GXS_ASSET amount) := by
  refine (Conveys.refl db).congr ?_
  intro id
  simp [nothing]

theorem depositCashback_conveys
    (returns : db.depositCashback acct amount requireVesting = .ok after) :
    Conveys db after (fun id => inAsset id GRAPHENE_GXS_ASSET amount) := by
  intro state
  have moves := depositCashback_moves state.core_eq returns
  rcases depositCashback_cases returns with
    ⟨nothing, same⟩ | ⟨a, found, same⟩ |
      ⟨account, newVbid, middle, found, deposits, points⟩
  · rw [same]
    exact Conveys.nothing nothing state
  · refine ⟨moves, state.of_same moves.sameTime ?_ ?_⟩
    · rw [same]
      rfl
    · rw [same]
      rfl
  · exact depositForAccount_conveys found deposits points state

theorem stakingCashback_conveys
    (returns : db.stakingCashback acct amount = .ok after) :
    Conveys db after (fun id => inAsset id GRAPHENE_GXS_ASSET amount) := by
  rcases stakingCashback_cases returns with
    ⟨nothing, same⟩ | ⟨account, ovbid, newVbid, middle, found, deposits, points⟩
  · rw [same]
    exact Conveys.nothing nothing
  · exact depositForAccount_conveys found deposits points

theorem depositWitnessPay_conveys {wit : WitnessId}
    (returns : db.depositWitnessPay wit amount = .ok after) :
    Conveys db after (fun id => inAsset id GRAPHENE_GXS_ASSET amount) := by
  rcases depositWitnessPay_cases returns with
    ⟨nothing, same⟩ | ⟨witness, newVbid, middle, payVb, found, deposits, ends⟩
  · rw [same]
    exact Conveys.nothing nothing
  · have conveys := depositLazyVesting_conveys deposits
    have foundMiddle : middle.witnesses[wit]? = some witness := by
      rw [depositLazyVesting_frame deposits]
      exact found
    rcases ends with same | same
    · rw [same]
      exact conveys
    · rw [same]
      refine (conveys.trans
        (setWitness_conveys_nothing { witness with payVb := payVb }
          foundMiddle rfl)).congr ?_
      intro id
      exact Int.add_zero _

end Deposits

section Fees

variable {db after : Database} {coreFee : Int} {payer : AccountId}

theorem payFee_conveys (nonneg : 0 ≤ coreFee)
    (returns : db.payFee payer coreFee = .ok after) :
    Conveys db after (fun id => inAsset id GRAPHENE_GXS_ASSET coreFee) := by
  obtain ⟨a, found, ⟨same, high⟩ | ⟨same, high⟩⟩ := payFee_cases returns
  · rw [same]
    refine (setAccount_conveys found ?_).congr ?_
    · intro state
      obtain ⟨fees, vested⟩ := state.feesOf found
      exact ⟨⟨Int.add_nonneg fees.1 nonneg, high⟩, vested⟩
    · intro id
      simp only [pending]
      congr 1
      omega
  · rw [same]
    refine (setAccount_conveys found ?_).congr ?_
    · intro state
      obtain ⟨fees, vested⟩ := state.feesOf found
      exact ⟨fees, ⟨Int.add_nonneg vested.1 nonneg, high⟩⟩
    · intro id
      simp only [pending]
      congr 1
      omega

theorem payFbaFee_conveys {fbaId : Nat} (nonneg : 0 ≤ coreFee)
    (returns : db.payFbaFee fbaId payer coreFee = .ok after) :
    Conveys db after (fun id => inAsset id GRAPHENE_GXS_ASSET coreFee) := by
  have moves := @payFbaFee_moves GRAPHENE_GXS_ASSET _ _ _ _ _ returns
  obtain ⟨f, found, ⟨_, _, same⟩ | ⟨_, paid⟩⟩ := payFbaFee_cases returns
  · exact .of_moves (fun _ => moves) (by rw [same]) (by rw [same])
  · exact payFee_conveys nonneg paid

def Evaluator.ConveysFee (eval : Evaluator) : Prop :=
  ∀ (coreFee : Int) (before after : Database),
    0 ≤ coreFee → eval.payFee coreFee before = .ok after →
      Conveys before after (fun id => inAsset id GRAPHENE_GXS_ASSET coreFee) ∧
        FeeFrame before after

variable {eval : Evaluator}

theorem payFee_conveysFee
    (books :
      ∀ coreFee before,
        eval.payFee coreFee before = before.payFee eval.feePayer coreFee) :
    eval.ConveysFee := by
  intro coreFee before after nonneg returns
  rw [books] at returns
  exact ⟨payFee_conveys nonneg returns, (payFee_frame returns).1⟩

theorem payFbaFee_frame {fbaId : Nat}
    (returns : db.payFbaFee fbaId payer coreFee = .ok after) :
    FeeFrame db after := by
  obtain ⟨f, found, ⟨_, _, same⟩ | ⟨_, paid⟩⟩ := payFbaFee_cases returns
  · rw [same]
    exact { FeeFrame.refl db with }
  · exact (payFee_frame paid).1

theorem convertFee_conveys {account : AccountId} {fee : Asset}
    (prepared : db.prepareFee account fee = .ok coreFee)
    (returns : db.convertFee fee coreFee = .ok after) :
    Conveys db after
      (fun id =>
        inAsset id fee.assetId fee.amount
          - inAsset id GRAPHENE_GXS_ASSET coreFee) := by
  refine .of_moves (fun isCore => convertFee_moves isCore prepared returns) ?_
    (convertFee_frame prepared returns).pledges
  rcases convertFee_cases prepared returns with ⟨_, _, same⟩ | ⟨_, _, _, same⟩
  · rw [same]
  · rw [same]
    rfl

/-- The fee of an operation is balanced: what is conveyed is what was booked
beside it and what the operation conveys. -/
theorem Evaluator.Ran.conveys {converted paid applied : Database}
    {booked : Int} {credit : AssetId → Int}
    (ran : eval.Ran db after coreFee converted paid applied)
    (pays :
      Conveys converted paid
        (fun id => inAsset id GRAPHENE_GXS_ASSET booked))
    (applies : Conveys paid applied credit) :
    Conveys db after
      (fun id =>
        inAsset id GRAPHENE_GXS_ASSET (booked - coreFee) + credit id) := by
  refine ((((convertFee_conveys ran.prepared ran.converts).trans pays).trans
    applies).trans (adjustBalance_conveys ran.charges)).congr ?_
  intro id
  simp only [Pi.add_apply, Asset.neg, inAsset_neg, inAsset_sub]
  omega

/-- An operation that books its whole fee conveys what its `do_apply`
conveys. -/
theorem run_conveys {credit : AssetId → Int} (conveysFee : eval.ConveysFee)
    (applies :
      ∀ coreFee paid applied,
        eval.doEvaluate db = .ok () → FeeFrame db paid →
          eval.doApply coreFee paid = .ok applied →
            Conveys paid applied credit)
    (returns : eval.run db = .ok after) : Conveys db after credit := by
  obtain ⟨coreFee, converted, paid, applied, ran⟩ := run_cases returns
  obtain ⟨pays, framePaid⟩ :=
    conveysFee coreFee converted paid ran.coreFee_nonneg ran.pays
  have frame := (convertFee_frame ran.prepared ran.converts).trans framePaid
  have applying :=
    applies coreFee paid applied ran.evaluated frame ran.applies
  refine (ran.conveys pays applying).congr ?_
  intro id
  simp

end Fees

end GxbCore.Ledger
