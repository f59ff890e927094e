import GxbCore.Lib.Portions
import GxbCore.Ledger.StakingTerms

/-!
# What the rewards pay

The maintenance moves value between the reward pool, the vote reward pools of
the witnesses and the vesting balances of those who are paid.  A call is summed
up by what it adds to each of them; it leaves the terms of the witnesses alone.
-/

namespace GxbCore.Ledger

open Database

/-- What a witness is, apart from its votes and what it has been paid. -/
def Witness.terms (wit : Witness) : Witness :=
  { wit with payVb := none, totalVoteWeights := 0, voteRewardPool := 0 }

namespace Database

/-- `current_staking_reward_pool` -/
def rewardPool (db : Database) : Int :=
  db.properties.currentStakingRewardPool

def votePool (db : Database) (id : WitnessId) : Int :=
  (db.witnesses[id]?.map (·.voteRewardPool)).getD 0

def vestsFor (core : AssetId) (account : AccountId) (vbo : VestingBalance) :
    Int :=
  if vbo.owner = account then
    inAsset core vbo.balance.assetId vbo.balance.amount
  else
    0

/-- What an account holds in vesting balances in the core asset. -/
def vestedFor (db : Database) (account : AccountId) : Int :=
  total (vestsFor db.currentCoreAssetId account) db.vestings

def atAccount (owner : AccountId) (amount : Int) (account : AccountId) : Int :=
  if account = owner then amount else 0

end Database

/-- The call leaves the terms of the witnesses and the time alone. -/
structure SameTerms (db after : Database) : Prop where
  terms :
    after.witnesses.map Witness.terms = db.witnesses.map Witness.terms
  headBlockTime : after.headBlockTime = db.headBlockTime

theorem SameTerms.trans {db middle after : Database}
    (first : SameTerms db middle) (later : SameTerms middle after) :
    SameTerms db after :=
  ⟨later.terms.trans first.terms,
    later.headBlockTime.trans first.headBlockTime⟩

/-- What a call adds to the reward pool, to the vote reward pools and to what
vests for the accounts. -/
structure Pays (db after : Database)
    (pool : Int) (votePools : WitnessId → Int) (vested : AccountId → Int) :
    Prop extends SameTerms db after where
  rewardPool : after.rewardPool = db.rewardPool + pool
  votePool : ∀ id, after.votePool id = db.votePool id + votePools id
  vestedFor :
    ∀ account, after.vestedFor account = db.vestedFor account + vested account

namespace Pays

variable {db middle after : Database} {pool more : Int}
  {votePools moreVotePools : WitnessId → Int}
  {vested moreVested : AccountId → Int}

theorem refl (db : Database) : Pays db db 0 (fun _ => 0) (fun _ => 0) where
  terms := rfl
  headBlockTime := rfl
  rewardPool := (Int.add_zero _).symm
  votePool _ := (Int.add_zero _).symm
  vestedFor _ := (Int.add_zero _).symm

theorem trans (first : Pays db middle pool votePools vested)
    (later : Pays middle after more moreVotePools moreVested) :
    Pays db after (pool + more) (fun id => votePools id + moreVotePools id)
      (fun account => vested account + moreVested account) where
  toSameTerms := first.toSameTerms.trans later.toSameTerms
  rewardPool := by rw [later.rewardPool, first.rewardPool, Int.add_assoc]
  votePool id := by rw [later.votePool, first.votePool, Int.add_assoc]
  vestedFor account := by
    rw [later.vestedFor, first.vestedFor, Int.add_assoc]

theorem congr (pays : Pays db after pool votePools vested)
    (samePool : pool = more)
    (sameVotePools : ∀ id, votePools id = moreVotePools id)
    (sameVested : ∀ account, vested account = moreVested account) :
    Pays db after more moreVotePools moreVested where
  toSameTerms := pays.toSameTerms
  rewardPool := by rw [pays.rewardPool, samePool]
  votePool id := by rw [pays.votePool, sameVotePools]
  vestedFor account := by rw [pays.vestedFor, sameVested]

end Pays

section Deposits

variable {db after : Database} {amount : Int} {account : AccountId}
  {id : WitnessId} {seconds : UInt32}
  {ovbid newVbid : Option VestingBalanceId}

theorem votePool_of_found {wit : Witness}
    (found : db.witnesses[id]? = some wit) :
    db.votePool id = wit.voteRewardPool := by
  simp [votePool, found]

theorem setWitness_pays {wit : Witness} (fresh : Witness)
    (found : db.witnesses[id]? = some wit)
    (sameTerms : fresh.terms = wit.terms) :
    Pays db (db.setWitness id fresh) 0
      (atWitness id (fresh.voteRewardPool - wit.voteRewardPool))
      (fun _ => 0) where
  terms := by
    obtain ⟨inside, isWit⟩ := List.getElem?_eq_some_iff.mp found
    rw [setWitness, List.map_set, sameTerms]
    apply List.ext_getElem?
    intro other
    rw [List.getElem?_set]
    split
    · next here =>
        subst here
        simp [inside, isWit]
    · rfl
  headBlockTime := rfl
  rewardPool := (Int.add_zero _).symm
  votePool other := by
    have inside : id < db.witnesses.length :=
      (List.getElem?_eq_some_iff.mp found).1
    unfold atWitness
    split
    · next here =>
        rw [here, votePool_of_found found]
        simp [votePool, setWitness, inside]
    · next elsewhere =>
        simp [votePool, setWitness,
          List.getElem?_set_ne (Ne.symm elsewhere)]
  vestedFor _ := (Int.add_zero _).symm

theorem findReusable_owner {ovbid : Option VestingBalanceId}
    {place : VestingBalanceId × VestingBalance}
    (returns : db.findReusable ovbid seconds account = .ok (some place)) :
    place.2.owner = account := by
  unfold findReusable at returns
  split at returns
  · cases returns
  · simp only [bind_eq_ok, orThrow_eq_ok] at returns
    obtain ⟨vbo, _, returns⟩ := returns
    split at returns
    · next reusable =>
        cases returns
        simp only [isReusable, Bool.and_eq_true, beq_iff_eq] at reusable
        exact reusable.1.1
    · cases returns

theorem depositLazyVesting_vests {requireVesting : Bool}
    (returns :
      db.depositLazyVesting ovbid amount seconds account requireVesting =
        .ok (newVbid, after))
    (other : AccountId) :
    total (vestsFor db.currentCoreAssetId other) after.vestings =
      db.vestedFor other + atAccount account amount other := by
  unfold depositLazyVesting at returns
  split at returns
  · next nothing =>
      cases returns
      simp [atAccount, nothing, vestedFor]
  · obtain ⟨reusable, found, returns⟩ := bind_eq_ok.mp returns
    cases reusable with
    | none =>
        cases returns
        simp [vestedFor, vestsFor, lazyVesting, inAsset, atAccount, eq_comm]
    | some place =>
        obtain ⟨deposited, added, returns⟩ := bind_eq_ok.mp returns
        cases returns
        obtain ⟨sameAsset, balance⟩ :=
          VestingBalance.depositWith_balance added
        have owned := findReusable_owner found
        have keepsOwner := VestingBalance.depositWith_owner added
        rw [setVesting, total_set deposited (findReusable_eq_some found),
          vestedFor]
        simp only [vestsFor, keepsOwner, owned, balance, sameAsset, inAsset,
          atAccount, if_true, eq_comm]
        split
        · omega
        · omega

theorem depositLazyVesting_pays {requireVesting : Bool}
    (returns :
      db.depositLazyVesting ovbid amount seconds account requireVesting =
        .ok (newVbid, after)) :
    Pays db after 0 (fun _ => 0) (atAccount account amount) := by
  have frame := depositLazyVesting_frame returns
  constructor
  · rw [frame]
    exact ⟨rfl, rfl⟩
  · rw [frame]
    exact (Int.add_zero _).symm
  · intro id
    rw [frame]
    exact (Int.add_zero _).symm
  · intro other
    rw [← depositLazyVesting_vests returns other, frame]
    rfl

/-- `deposit_witness_pay` pays the account of the witness. -/
theorem depositWitnessPay_pays {wit : Witness}
    (isWitness : db.witnesses[id]? = some wit)
    (returns : db.depositWitnessPay id amount = .ok after) :
    Pays db after 0 (fun _ => 0) (atAccount wit.witnessAccount amount) := by
  rcases depositWitnessPay_cases returns with
    ⟨nothing, same⟩ | ⟨witness, newVbid, middle, payVb, found, deposits, ends⟩
  · rw [same, nothing]
    apply (Pays.refl db).congr rfl
    · exact fun _ => rfl
    · intro other
      simp [atAccount]
  · cases isWitness.symm.trans found
    have deposited := depositLazyVesting_pays deposits
    have foundMiddle : middle.witnesses[id]? = some wit := by
      rw [depositLazyVesting_frame deposits]
      exact found
    rcases ends with same | same
    · rw [same]
      exact deposited
    · rw [same]
      have pointed :
          Pays middle (middle.setWitness id { wit with payVb := payVb }) 0
            (atWitness id (wit.voteRewardPool - wit.voteRewardPool))
            (fun _ => 0) :=
        setWitness_pays _ foundMiddle rfl
      apply (deposited.trans pointed).congr rfl
      · intro other
        simp [atWitness]
      · exact fun _ => Int.add_zero _

/-- `staking_cashback` pays the account. -/
theorem stakingCashback_pays
    (returns : db.stakingCashback account amount = .ok after) :
    Pays db after 0 (fun _ => 0) (atAccount account amount) := by
  rcases stakingCashback_cases returns with
    ⟨nothing, same⟩ | ⟨stored, ovbid, newVbid, middle, found, deposits, points⟩
  · rw [same, nothing]
    apply (Pays.refl db).congr rfl
    · exact fun _ => rfl
    · intro other
      simp [atAccount]
  · have deposited := depositLazyVesting_pays deposits
    rcases points with same | ⟨updated, same, _, _⟩
    · rw [same]
      exact deposited
    · rw [same]
      exact ⟨⟨deposited.terms, deposited.headBlockTime⟩,
        deposited.rewardPool, deposited.votePool, deposited.vestedFor⟩

end Deposits

section Rounds

variable {db after : Database} {pools totalWeight : Int} {id : WitnessId}
  {wit : Witness} {backup : List Witness} {s : Staking}

def Witness.votePay (wit : Witness) (reward : Int) : Int :=
  min reward ((reward * wit.commissionRate.toNat).tdiv 1000)

theorem payTrustNode_pays
    (found : db.witnesses[id]? = some wit) (eligible : rewards wit = true)
    (returns : payTrustNode pools totalWeight db id = .ok after) :
    ∃ computed,
      db.rewardPay pools wit.totalVoteWeights totalWeight = .ok computed ∧
        Pays db after (-min computed db.rewardPool)
          (atWitness id (wit.votePay (min computed db.rewardPool)))
          (atAccount wit.witnessAccount
            (min computed db.rewardPool
              - wit.votePay (min computed db.rewardPool))) := by
  simp only [payTrustNode, bind_eq_ok, getWitness_eq_ok] at returns
  obtain ⟨witness, isWitness, returns⟩ := returns
  cases found.symm.trans isWitness
  rw [if_pos eligible] at returns
  simp only [bind_eq_ok] at returns
  obtain ⟨computed, computes, pool, poolChecked, product, productChecked,
    voteRewardPool, votePoolChecked, witnessPay, payChecked, deposits⟩ :=
      returns
  refine ⟨computed, computes, ?_⟩
  have isPool := eq_of_share poolChecked
  have isVotePool := eq_of_share votePoolChecked
  rw [eq_of_share productChecked] at payChecked isVotePool
  have isPay := eq_of_share payChecked
  have taken :
      Pays db
        { db with properties := { db.properties with
            currentStakingRewardPool := pool } }
        (-min computed db.rewardPool) (fun _ => 0) (fun _ => 0) := by
    constructor
    · exact ⟨rfl, rfl⟩
    · change pool = _
      rw [isPool, Int.sub_eq_add_neg]
      rfl
    · exact fun _ => (Int.add_zero _).symm
    · exact fun _ => (Int.add_zero _).symm
  have noted := taken.trans
    (setWitness_pays { wit with voteRewardPool := voteRewardPool } found rfl)
  have isNoted :
      (db.witnesses.set id
        { wit with voteRewardPool := voteRewardPool })[id]? =
        some { wit with voteRewardPool := voteRewardPool } := by
    simp [(List.getElem?_eq_some_iff.mp found).1]
  apply (noted.trans (depositWitnessPay_pays isNoted deposits)).congr
  · omega
  · intro other
    rw [isVotePool, add_sub_cancel_left, Int.add_zero, Int.zero_add]
    rfl
  · intro other
    rw [isPay, Int.add_zero, Int.zero_add]
    rfl

theorem payTrustNode_of_not
    (found : db.witnesses[id]? = some wit) (notEligible : rewards wit = false)
    (returns : payTrustNode pools totalWeight db id = .ok after) :
    after = db := by
  simp only [payTrustNode, bind_eq_ok, getWitness_eq_ok] at returns
  obtain ⟨witness, isWitness, returns⟩ := returns
  cases found.symm.trans isWitness
  rw [if_neg (by simp [notEligible])] at returns
  cases returns
  rfl

theorem payTrustNode_sameTerms
    (returns : payTrustNode pools totalWeight db id = .ok after) :
    SameTerms db after := by
  obtain ⟨wit, found, _⟩ := bind_eq_ok.mp returns
  rw [getWitness_eq_ok] at found
  by_cases isEligible : rewards wit = true
  · obtain ⟨computed, _, pays⟩ := payTrustNode_pays found isEligible returns
    exact pays.toSameTerms
  · rw [payTrustNode_of_not found (Bool.eq_false_of_not_eq_true isEligible)
      returns]
    exact ⟨rfl, rfl⟩

theorem voterPay_eq_ok {before : Witness} {pay : Int}
    (isBefore : backup[s.trustNode]? = some before)
    (returns : voterPay backup s wit = .ok pay) :
    pay =
      min ((before.voteRewardPool * s.voteWeights).tdiv
        before.totalVoteWeights) wit.voteRewardPool := by
  simp only [voterPay, bind_eq_ok, orThrow_eq_ok] at returns
  obtain ⟨stored, isStored, product, productChecked, weighted,
    weightedChecked, quotient, quotientChecked, returns⟩ := returns
  cases isBefore.symm.trans isStored
  cases returns
  rw [eq_of_share quotientChecked, eq_of_share weightedChecked,
    eq_of_share productChecked, Int.mul_assoc]
  rfl

/-- What a stake is paid comes out of the pool of its witness. -/
theorem payVoter_pays (found : db.witnesses[s.trustNode]? = some wit)
    (returns : db.payVoter backup s = .ok after) :
    ∃ pay, voterPay backup s wit = .ok pay ∧
      Pays db after 0 (atWitness s.trustNode (-pay))
        (atAccount s.owner pay) := by
  simp only [payVoter, bind_eq_ok, getWitness_eq_ok] at returns
  obtain ⟨witness, isWitness, pay, computes, returns⟩ := returns
  cases found.symm.trans isWitness
  refine ⟨pay, computes, ?_⟩
  split at returns
  · simp only [bind_eq_ok, getWitness_eq_ok] at returns
    obtain ⟨paid, pays, again, isAgain, pool, poolChecked, returns⟩ := returns
    cases returns
    have isPool := eq_of_share poolChecked
    apply ((stakingCashback_pays pays).trans
      (setWitness_pays { again with voteRewardPool := pool }
        isAgain rfl)).congr rfl
    · intro other
      rw [isPool, Int.zero_add]
      simp only [atWitness]
      split
      · omega
      · rfl
    · exact fun _ => Int.add_zero _
  · next nothing =>
      cases returns
      have isZero : pay = 0 := not_not.mp nothing
      apply (Pays.refl db).congr rfl
      · intro other
        simp [atWitness, isZero]
      · intro other
        simp [atAccount, isZero]

theorem handlingExpiredStaking_pays
    (returns : db.handlingExpiredStaking s id = .ok after) :
    Pays db after 0 (fun _ => 0) (fun _ => 0) := by
  unfold handlingExpiredStaking at returns
  split at returns
  · obtain ⟨witness, found, rfl⟩ := reduceVoteWeights_eq_ok returns
    have flagged :
        Pays db (db.setStaking { s with isValid := false }) 0 (fun _ => 0)
          (fun _ => 0) :=
      ⟨⟨rfl, rfl⟩, (Int.add_zero _).symm, fun _ => (Int.add_zero _).symm,
        fun _ => (Int.add_zero _).symm⟩
    have reduced := setWitness_pays { witness with
      totalVoteWeights :=
        witness.totalVoteWeights
          - min s.voteWeights witness.totalVoteWeights } found rfl
    apply (flagged.trans reduced).congr rfl
    · intro other
      simp [atWitness]
    · exact fun _ => rfl
  · cases returns
    exact .refl db

end Rounds

section Operations

variable {db middle after : Database} {required : Option Int}

/-- The call moves nothing between the pools and the vesting balances. -/
def PaysNothing (db after : Database) : Prop :=
  Pays db after 0 (fun _ => 0) (fun _ => 0)

theorem PaysNothing.trans (first : PaysNothing db middle)
    (later : PaysNothing middle after) : PaysNothing db after :=
  Pays.trans first later

theorem PaysNothing.of_same (witnesses : after.witnesses = db.witnesses)
    (vestings : after.vestings = db.vestings)
    (properties : after.properties = db.properties) :
    PaysNothing db after where
  terms := by rw [witnesses]
  headBlockTime := by rw [headBlockTime, properties, headBlockTime]
  rewardPool := by
    rw [rewardPool, properties, Int.add_zero, rewardPool]
  votePool id := by
    rw [votePool, witnesses, Int.add_zero, votePool]
  vestedFor account := by
    rw [vestedFor, currentCoreAssetId, headBlockTime, vestings, properties,
      Int.add_zero]
    rfl

theorem PaysNothing.prepend (later : PaysNothing middle after)
    (witnesses : middle.witnesses = db.witnesses)
    (vestings : middle.vestings = db.vestings)
    (properties : middle.properties = db.properties) : PaysNothing db after :=
  PaysNothing.trans (.of_same witnesses vestings properties) later

theorem adjustBalance_paysNothing {account : AccountId} {delta : Asset}
    (returns : db.adjustBalance account delta = .ok after) :
    PaysNothing db after := by
  rw [adjustBalance_frame returns]
  exact .of_same rfl rfl rfl

theorem setWitness_paysNothing {id : WitnessId} {wit : Witness}
    (weights : Int) (found : db.witnesses[id]? = some wit) :
    PaysNothing db
      (db.setWitness id { wit with totalVoteWeights := weights }) := by
  apply (setWitness_pays { wit with totalVoteWeights := weights }
    found rfl).congr rfl
  · intro other
    simp [atWitness]
  · exact fun _ => rfl

theorem addVoteWeights_paysNothing {wit : WitnessId} {weights : Int}
    (returns : db.addVoteWeights wit weights = .ok after) :
    PaysNothing db after := by
  obtain ⟨witness, found, rfl⟩ := addVoteWeights_eq_ok returns
  exact setWitness_paysNothing _ found

theorem reduceVoteWeights_paysNothing {wit : WitnessId} {s : Staking}
    (returns : db.reduceVoteWeights wit s = .ok after) :
    PaysNothing db after := by
  obtain ⟨witness, found, rfl⟩ := reduceVoteWeights_eq_ok returns
  exact setWitness_paysNothing _ found

theorem stakingCreate_paysNothing {o : StakingCreateOperation}
    (returns : (stakingCreateEvaluator required o).run db = .ok after) :
    PaysNothing db after := by
  obtain ⟨_, assets, accounts, applied, _, applies, charges⟩ :=
    run_applies (fun _ _ => rfl) returns
  simp only [stakingCreateEvaluator, bind_eq_ok] at applies
  obtain ⟨taken, takes, weights, _, adds⟩ := applies
  have created : PaysNothing db taken :=
    (adjustBalance_paysNothing takes).prepend rfl rfl rfl
  exact (created.trans (addVoteWeights_paysNothing adds)).trans
    (adjustBalance_paysNothing charges)

theorem stakingUpdate_paysNothing {o : StakingUpdateOperation}
    (returns : (stakingUpdateEvaluator required o).run db = .ok after) :
    PaysNothing db after := by
  obtain ⟨_, assets, accounts, applied, _, applies, charges⟩ :=
    run_applies (fun _ _ => rfl) returns
  simp only [stakingUpdateEvaluator, bind_eq_ok, getWitness_eq_ok] at applies
  obtain ⟨s, _, _, _, previous, isPrevious, left, _, adds⟩ := applies
  have reduced := setWitness_paysNothing left isPrevious
  have moved : PaysNothing db _ := reduced.prepend rfl rfl rfl
  exact (moved.trans (addVoteWeights_paysNothing adds)).trans
    (adjustBalance_paysNothing charges)

theorem claimVoteWeights_paysNothing {s : Staking}
    (returns : claimVoteWeights s db = .ok after) : PaysNothing db after := by
  unfold claimVoteWeights at returns
  split at returns
  · exact reduceVoteWeights_paysNothing returns
  · cases returns
    exact .of_same rfl rfl rfl

theorem stakingClaim_paysNothing {o : StakingClaimOperation}
    (returns : (stakingClaimEvaluator required o).run db = .ok after) :
    PaysNothing db after := by
  obtain ⟨_, assets, accounts, applied, _, applies, charges⟩ :=
    run_applies (fun _ _ => rfl) returns
  simp only [stakingClaimEvaluator, bind_eq_ok] at applies
  obtain ⟨s, _, reduced, reduces, paid, pays, removes⟩ := applies
  cases removes
  have lessVotes : PaysNothing db reduced :=
    (claimVoteWeights_paysNothing reduces).prepend rfl rfl rfl
  have repaid := lessVotes.trans (adjustBalance_paysNothing pays)
  have removed : PaysNothing paid
      { paid with stakings := paid.stakings.eraseP (·.id == o.stakingId) } :=
    .of_same rfl rfl rfl
  exact (repaid.trans removed).trans (adjustBalance_paysNothing charges)

end Operations

end GxbCore.Ledger
