import GxbCore.Ledger.Staking

/-!
# The weight of votes

A witness's `total_vote_weights` is written in five places: when a stake is
made, when it is moved (at both witnesses), when it is claimed, and when it
expires.  It is the weight of the valid stakes that name the witness, in every
run in which no stake is claimed after its expiry while the staking mode is off:
such a claim takes the weight of a stake that no longer counts.
-/

namespace GxbCore.Ledger

open Database

namespace Database

def countsFor (id : WitnessId) (s : Staking) : Int :=
  if s.isValid = true ∧ s.trustNode = id then s.voteWeights else 0

def stakedFor (db : Database) (id : WitnessId) : Int :=
  total (countsFor id) db.stakings

def recordedFor (db : Database) (id : WitnessId) : Int :=
  (db.witnesses[id]?.map (·.totalVoteWeights)).getD 0

/-- What the witness object records beyond the stakes. -/
def excess (db : Database) (id : WitnessId) : Int :=
  db.recordedFor id - db.stakedFor id

/-- An amount that one of the witnesses has. -/
def atWitness (wit : WitnessId) (weights : Int) (id : WitnessId) : Int :=
  if id = wit then weights else 0

end Database

/-- The recorded weights are those of the stakes, and no stake is negative. -/
structure Weighed (db : Database) : Prop where
  excess_eq : ∀ id, db.excess id = 0
  amounts : ∀ s ∈ db.stakings, 0 ≤ s.amount.amount

/-- The call touches neither the stakes nor the recorded weights. -/
structure SameVotes (db after : Database) : Prop where
  stakings : after.stakings = db.stakings
  recorded : ∀ id, after.recordedFor id = db.recordedFor id

section Votes

variable {db middle after : Database}

theorem SameVotes.refl (db : Database) : SameVotes db db :=
  ⟨rfl, fun _ => rfl⟩

theorem SameVotes.trans (first : SameVotes db middle)
    (later : SameVotes middle after) : SameVotes db after :=
  ⟨later.stakings.trans first.stakings,
    fun id => (later.recorded id).trans (first.recorded id)⟩

theorem SameVotes.weighed (same : SameVotes db after) (weighed : Weighed db) :
    Weighed after where
  excess_eq := by
    intro id
    rw [← weighed.excess_eq id, excess, excess, same.recorded, stakedFor,
      stakedFor, same.stakings]
  amounts := by
    rw [same.stakings]
    exact weighed.amounts

theorem Weighed.recordedFor_eq (weighed : Weighed db) (id : WitnessId) :
    db.recordedFor id = db.stakedFor id :=
  Int.sub_eq_zero.mp (weighed.excess_eq id)

variable {id : WitnessId}

theorem recordedFor_of_found {wit : Witness}
    (found : db.witnesses[id]? = some wit) :
    db.recordedFor id = wit.totalVoteWeights := by
  simp [recordedFor, found]

theorem recordedFor_setWitness {wit : Witness} (fresh : Witness)
    (found : db.witnesses[id]? = some wit) (other : WitnessId) :
    (db.setWitness id fresh).recordedFor other =
      if other = id then fresh.totalVoteWeights
      else db.recordedFor other := by
  have inside : id < db.witnesses.length :=
    (List.getElem?_eq_some_iff.mp found).1
  by_cases same : other = id
  · rw [same, if_pos rfl]
    simp [recordedFor, setWitness, inside]
  · rw [if_neg same]
    simp [recordedFor, setWitness, List.getElem?_set_ne (Ne.symm same)]

theorem setWitness_sameVotes {wit fresh : Witness}
    (found : db.witnesses[id]? = some wit)
    (sameWeight : fresh.totalVoteWeights = wit.totalVoteWeights) :
    SameVotes db (db.setWitness id fresh) := by
  refine ⟨rfl, ?_⟩
  intro other
  rw [recordedFor_setWitness fresh found]
  split
  · next same => rw [same, sameWeight, recordedFor_of_found found]
  · rfl

theorem FeeFrame.sameVotes (frame : FeeFrame db after) : SameVotes db after :=
  ⟨frame.stakings, fun id => by simp [recordedFor, frame.witnesses]⟩

theorem adjustBalance_sameVotes {account : AccountId} {delta : Asset}
    (returns : db.adjustBalance account delta = .ok after) :
    SameVotes db after := by
  rw [adjustBalance_frame returns]
  exact ⟨rfl, fun _ => rfl⟩

theorem depositLazyVesting_sameVotes {ovbid newVbid : Option VestingBalanceId}
    {amount : Int} {seconds : UInt32} {owner : AccountId}
    {requireVesting : Bool}
    (returns :
      db.depositLazyVesting ovbid amount seconds owner requireVesting =
        .ok (newVbid, after)) : SameVotes db after := by
  rw [depositLazyVesting_frame returns]
  exact ⟨rfl, fun _ => rfl⟩

theorem depositWitnessPay_sameVotes {wit : WitnessId} {amount : Int}
    (returns : db.depositWitnessPay wit amount = .ok after) :
    SameVotes db after := by
  rcases depositWitnessPay_cases returns with
    ⟨_, same⟩ | ⟨witness, newVbid, middle, payVb, found, deposits, ends⟩
  · rw [same]
    exact .refl db
  · have deposited := depositLazyVesting_sameVotes deposits
    have foundMiddle : middle.witnesses[wit]? = some witness := by
      rw [depositLazyVesting_frame deposits]
      exact found
    rcases ends with same | same
    · rw [same]
      exact deposited
    · rw [same]
      exact deposited.trans (setWitness_sameVotes foundMiddle rfl)

theorem stakingCashback_sameVotes {acct : AccountId} {amount : Int}
    (returns : db.stakingCashback acct amount = .ok after) :
    SameVotes db after := by
  rcases stakingCashback_cases returns with
    ⟨_, same⟩ | ⟨account, ovbid, newVbid, middle, found, deposits, points⟩
  · rw [same]
    exact .refl db
  · have deposited := depositLazyVesting_sameVotes deposits
    rcases points with same | ⟨updated, same, _, _⟩
    · rw [same]
      exact deposited
    · rw [same]
      exact deposited.trans ⟨rfl, fun _ => rfl⟩

end Votes

section Writes

variable {db after : Database} {wit : WitnessId} {s : Staking}

theorem addVoteWeights_eq_ok {weights : Int}
    (returns : db.addVoteWeights wit weights = .ok after) :
    ∃ witness, db.witnesses[wit]? = some witness ∧
      after = db.setWitness wit { witness with
        totalVoteWeights := witness.totalVoteWeights + weights } := by
  simp only [addVoteWeights, bind_eq_ok, getWitness_eq_ok] at returns
  obtain ⟨witness, found, sum, checked, returns⟩ := returns
  cases returns
  rw [eq_of_share checked]
  exact ⟨witness, found, rfl⟩

theorem reduceVoteWeights_eq_ok
    (returns : db.reduceVoteWeights wit s = .ok after) :
    ∃ witness, db.witnesses[wit]? = some witness ∧
      after = db.setWitness wit { witness with
        totalVoteWeights :=
          witness.totalVoteWeights
            - min s.voteWeights witness.totalVoteWeights } := by
  simp only [reduceVoteWeights, bind_eq_ok, getWitness_eq_ok] at returns
  obtain ⟨witness, found, product, productChecked, left, leftChecked,
    returns⟩ := returns
  cases returns
  rw [eq_of_share leftChecked, eq_of_share productChecked]
  exact ⟨witness, found, rfl⟩

theorem voteWeights_nonneg (nonneg : 0 ≤ s.amount.amount) : 0 ≤ s.voteWeights :=
  Int.mul_nonneg nonneg (Int.natCast_nonneg _)

theorem countsFor_nonneg (nonneg : 0 ≤ s.amount.amount) (id : WitnessId) :
    0 ≤ countsFor id s := by
  unfold countsFor
  split
  · exact voteWeights_nonneg nonneg
  · exact Int.le_refl 0

/-- A valid stake is in the count of its witness, so the count is not cut. -/
theorem Weighed.voteWeights_le (weighed : Weighed db)
    (member : s ∈ db.stakings) (isValid : s.isValid = true) :
    s.voteWeights ≤ db.recordedFor s.trustNode := by
  rw [weighed.recordedFor_eq]
  have counted : countsFor s.trustNode s = s.voteWeights := by
    simp [countsFor, isValid]
  rw [← counted]
  apply le_total_of_mem _ member
  intro other otherMember
  exact countsFor_nonneg (weighed.amounts other otherMember) s.trustNode

theorem mem_of_findStaking {id : Nat} (found : db.findStaking id = some s) :
    s ∈ db.stakings :=
  List.mem_of_find?_eq_some found

theorem id_of_findStaking {id : Nat} (found : db.findStaking id = some s) :
    s.id = id := by
  simpa using List.find?_some found

theorem countsFor_of_valid (isValid : s.isValid = true) (id : WitnessId) :
    countsFor id s = atWitness s.trustNode s.voteWeights id := by
  simp [countsFor, atWitness, isValid, eq_comm]

theorem countsFor_of_invalid (isInvalid : s.isValid = false) (id : WitnessId) :
    countsFor id s = 0 := by
  simp [countsFor, isInvalid]

theorem excess_setWitness {witness : Witness} (fresh : Witness)
    (found : db.witnesses[wit]? = some witness) (id : WitnessId) :
    (db.setWitness wit fresh).excess id =
      db.excess id +
        atWitness wit (fresh.totalVoteWeights - witness.totalVoteWeights)
          id := by
  rw [excess, recordedFor_setWitness fresh found, excess,
    show (db.setWitness wit fresh).stakedFor id = db.stakedFor id from rfl,
    atWitness]
  split
  · next here =>
      rw [here, recordedFor_of_found found]
      omega
  · omega

theorem excess_addVoteWeights {weights : Int}
    (returns : db.addVoteWeights wit weights = .ok after) (id : WitnessId) :
    after.excess id = db.excess id + atWitness wit weights id := by
  obtain ⟨witness, found, rfl⟩ := addVoteWeights_eq_ok returns
  rw [excess_setWitness _ found]
  dsimp only
  rw [add_sub_cancel_left]

theorem excess_reduceVoteWeights (atMost : s.voteWeights ≤ db.recordedFor wit)
    (returns : db.reduceVoteWeights wit s = .ok after) (id : WitnessId) :
    after.excess id = db.excess id - atWitness wit s.voteWeights id := by
  obtain ⟨witness, found, rfl⟩ := reduceVoteWeights_eq_ok returns
  rw [recordedFor_of_found found] at atMost
  rw [excess_setWitness _ found]
  dsimp only [atWitness]
  split
  · omega
  · omega

theorem excess_setStaking (fresh : Staking)
    (found : db.findStaking fresh.id = some s) (id : WitnessId) :
    (db.setStaking fresh).excess id =
      db.excess id + countsFor id s - countsFor id fresh := by
  have staked :
      (db.setStaking fresh).stakedFor id =
        db.stakedFor id - countsFor id s + countsFor id fresh :=
    total_replaceFirst found
  have recorded :
      (db.setStaking fresh).recordedFor id = db.recordedFor id := rfl
  rw [excess, excess, staked, recorded]
  omega

end Writes

section Operations

variable {db paid applied after : Database} {required : Option Int}
  {coreFee : Int}

/-- Up to `do_apply` an evaluator touches no votes. -/
theorem Evaluator.Ran.paid_frame {eval : Evaluator} {converted : Database}
    (ran : eval.Ran db after coreFee converted paid applied)
    (paysFee :
      ∀ middle later, eval.payFee coreFee middle = .ok later →
        middle.payFee eval.feePayer coreFee = .ok later) : FeeFrame db paid :=
  (convertFee_frame ran.prepared ran.converts).trans
    (payFee_frame (paysFee _ _ ran.pays)).1

theorem SameVotes.excess_eq (same : SameVotes db after) (id : WitnessId) :
    after.excess id = db.excess id := by
  rw [excess, excess, same.recorded, stakedFor, stakedFor, same.stakings]

theorem stakingCreate_applies {o : StakingCreateOperation}
    (weighed : Weighed db) (nonneg : 0 ≤ o.amount.amount)
    (applies :
      (stakingCreateEvaluator required o).doApply coreFee db = .ok after) :
    Weighed after := by
  simp only [stakingCreateEvaluator, bind_eq_ok] at applies
  obtain ⟨charged, charges, weights, checked, adds⟩ := applies
  have same := adjustBalance_sameVotes charges
  constructor
  · intro id
    rw [excess_addVoteWeights adds, same.excess_eq, eq_of_share checked]
    have before := weighed.excess_eq id
    simp only [excess, stakedFor, recordedFor, total_append, total_cons,
      total_nil, countsFor, atWitness, Staking.voteWeights, true_and,
      eq_comm (a := id)] at before ⊢
    omega
  · obtain ⟨witness, found, rfl⟩ := addVoteWeights_eq_ok adds
    intro s member
    change s ∈ charged.stakings at member
    rw [same.stakings] at member
    rcases List.mem_append.mp member with older | newer
    · exact weighed.amounts s older
    · rw [List.mem_singleton.mp newer]
      exact nonneg

theorem stakingCreate_weighed {o : StakingCreateOperation}
    (weighed : Weighed db) (nonneg : 0 ≤ o.amount.amount)
    (returns : (stakingCreateEvaluator required o).run db = .ok after) :
    Weighed after := by
  obtain ⟨coreFee, converted, paid, applied, ran⟩ := run_cases returns
  have frame := ran.paid_frame fun _ _ pays => pays
  exact (adjustBalance_sameVotes ran.charges).weighed
    (stakingCreate_applies (frame.sameVotes.weighed weighed) nonneg
      ran.applies)

/-- A valid stake that is moved takes its whole weight along. -/
theorem stakingUpdate_applies {o : StakingUpdateOperation}
    (weighed : Weighed db)
    (isValid : ∀ s, db.findStaking o.stakingId = some s → s.isValid = true)
    (applies :
      (stakingUpdateEvaluator required o).doApply coreFee db = .ok after) :
    Weighed after := by
  simp only [stakingUpdateEvaluator, bind_eq_ok, orThrow_eq_ok,
    getWitness_eq_ok] at applies
  obtain ⟨s, found, product, productChecked, previous, foundPrevious, left,
    leftChecked, adds⟩ := applies
  have valid := isValid s found
  have member := mem_of_findStaking found
  have whole : min product previous.totalVoteWeights = s.voteWeights := by
    have below := weighed.voteWeights_le member valid
    rw [recordedFor_of_found
      (show db.witnesses[s.trustNode]? = some previous from foundPrevious)]
        at below
    rw [eq_of_share productChecked]
    exact min_eq_left below
  rw [whole] at adds leftChecked
  have again : db.findStaking s.id = some s :=
    (id_of_findStaking found).symm ▸ found
  constructor
  · intro id
    rw [excess_addVoteWeights adds, excess_setWitness _ foundPrevious,
      excess_setStaking { s with trustNode := o.trustNode } again, weighed.excess_eq, eq_of_share leftChecked]
    simp only [countsFor, atWitness, valid, Staking.voteWeights, true_and,
      eq_comm (a := id)]
    split
    · split
      · omega
      · omega
    · split
      · omega
      · omega
  · obtain ⟨witness, _, rfl⟩ := addVoteWeights_eq_ok adds
    exact forall_replaceFirst weighed.amounts (weighed.amounts s member)

theorem stakingUpdate_weighed {o : StakingUpdateOperation}
    (weighed : Weighed db)
    (returns : (stakingUpdateEvaluator required o).run db = .ok after) :
    Weighed after := by
  obtain ⟨coreFee, converted, paid, applied, ran⟩ := run_cases returns
  have frame := ran.paid_frame fun _ _ pays => pays
  have evaluated := ran.evaluated
  simp only [stakingUpdateEvaluator, bind_eq_ok, fcAssert_eq_ok,
    orThrow_eq_ok] at evaluated
  obtain ⟨_, _, s, found, _, _, previous, _, _, _, _, _, _, _, _, _, valid⟩ :=
    evaluated
  refine (adjustBalance_sameVotes ran.charges).weighed
    (stakingUpdate_applies (frame.sameVotes.weighed weighed) ?_ ran.applies)
  intro other foundPaid
  have foundOther : db.findStaking o.stakingId = some other := by
    rw [findStaking, ← frame.stakings]
    exact foundPaid
  cases found.symm.trans foundOther
  exact valid

/-- A claim takes a stake out of the count at most once, when the staking mode
is on or the stake is still valid. -/
theorem stakingClaim_applies {o : StakingClaimOperation} (weighed : Weighed db)
    (counted :
      ∀ s, db.findStaking o.stakingId = some s →
        s.isValid = !db.parameters.voteParams.stakingModeOn)
    (applies :
      (stakingClaimEvaluator required o).doApply coreFee db = .ok after) :
    Weighed after := by
  simp only [stakingClaimEvaluator, bind_eq_ok, orThrow_eq_ok] at applies
  obtain ⟨s, found, reduced, reduces, refunded, refunds, returns⟩ := applies
  cases returns
  have same := adjustBalance_sameVotes refunds
  have member := mem_of_findStaking found
  have isCounted := counted s found
  -- the weight that the witness loses is the one that the stake has
  have taken :
      reduced.stakings = db.stakings ∧
        ∀ id, reduced.excess id = db.excess id - countsFor id s := by
    unfold claimVoteWeights at reduces
    split at reduces
    · next modeOff =>
        rw [modeOff] at isCounted
        have valid : s.isValid = true := isCounted
        refine ⟨?_, ?_⟩
        · obtain ⟨witness, _, rfl⟩ := reduceVoteWeights_eq_ok reduces
          rfl
        · intro id
          rw [excess_reduceVoteWeights
            (weighed.voteWeights_le member valid) reduces,
            ← countsFor_of_valid valid]
    · next modeOn =>
        cases reduces
        rw [Bool.not_eq_false] at modeOn
        rw [modeOn] at isCounted
        refine ⟨rfl, ?_⟩
        intro id
        rw [countsFor_of_invalid isCounted, Int.sub_zero]
  obtain ⟨sameStakings, excessReduced⟩ := taken
  have foundRefunded :
      refunded.stakings.find? (·.id == o.stakingId) = some s := by
    rw [same.stakings, sameStakings]
    exact found
  constructor
  · intro id
    have staked :
        total (countsFor id)
            (refunded.stakings.eraseP (·.id == o.stakingId)) =
          total (countsFor id) refunded.stakings - countsFor id s :=
      total_eraseP foundRefunded
    have before := same.excess_eq id
    rw [excessReduced, weighed.excess_eq] at before
    simp only [excess, stakedFor, recordedFor] at before ⊢
    rw [staked]
    omega
  · intro other erased
    have older := List.mem_of_mem_eraseP erased
    rw [same.stakings, sameStakings] at older
    exact weighed.amounts other older

theorem stakingClaim_weighed {o : StakingClaimOperation} (weighed : Weighed db)
    (claimsCounted :
      db.parameters.voteParams.stakingModeOn = true ∨
        ∀ s, db.findStaking o.stakingId = some s → s.isValid = true)
    (returns : (stakingClaimEvaluator required o).run db = .ok after) :
    Weighed after := by
  obtain ⟨coreFee, converted, paid, applied, ran⟩ := run_cases returns
  have frame := ran.paid_frame fun _ _ pays => pays
  have evaluated := ran.evaluated
  simp only [stakingClaimEvaluator, bind_eq_ok, fcAssert_eq_ok,
    orThrow_eq_ok] at evaluated
  obtain ⟨s, found, _, _, _, _, whenOn⟩ := evaluated
  refine (adjustBalance_sameVotes ran.charges).weighed
    (stakingClaim_applies (frame.sameVotes.weighed weighed) ?_ ran.applies)
  intro other foundPaid
  have foundOther : db.findStaking o.stakingId = some other := by
    rw [findStaking, ← frame.stakings]
    exact foundPaid
  cases found.symm.trans foundOther
  rw [frame.parameters]
  rcases claimsCounted with modeOn | valid
  · rw [modeOn, whenOn modeOn]
    rfl
  · cases mode : db.parameters.voteParams.stakingModeOn with
    | false => exact valid s found
    | true => exact whenOn mode

end Operations

section Maintenance

variable {db after : Database}

/-- A stake that expires is taken out of the count with the flag. -/
theorem handlingExpiredStaking_weighed {s : Staking} (weighed : Weighed db)
    (found : db.findStaking s.id = some s) (valid : s.isValid = true)
    (returns : db.handlingExpiredStaking s s.trustNode = .ok after) :
    Weighed after := by
  unfold handlingExpiredStaking at returns
  split at returns
  · have member := mem_of_findStaking found
    have below :
        s.voteWeights ≤
          (db.setStaking { s with isValid := false }).recordedFor
            s.trustNode :=
      weighed.voteWeights_le member valid
    constructor
    · intro id
      rw [excess_reduceVoteWeights below returns,
        excess_setStaking { s with isValid := false } found,
        weighed.excess_eq,
        countsFor_of_invalid (s := { s with isValid := false }) rfl,
        ← countsFor_of_valid valid]
      omega
    · obtain ⟨witness, _, rfl⟩ := reduceVoteWeights_eq_ok returns
      exact forall_replaceFirst weighed.amounts (weighed.amounts s member)
  · cases returns
    exact weighed

theorem payTrustNode_sameVotes {pools totalWeight : Int} {id : WitnessId}
    (returns : payTrustNode pools totalWeight db id = .ok after) :
    SameVotes db after := by
  simp only [payTrustNode, bind_eq_ok, getWitness_eq_ok] at returns
  obtain ⟨wit, found, returns⟩ := returns
  split at returns
  · simp only [bind_eq_ok] at returns
    obtain ⟨pay, _, pool, _, product, _, rewardPool, _, witnessPay, _,
      deposits⟩ := returns
    have noted :
        SameVotes db
          (db.setWitness id { wit with voteRewardPool := rewardPool }) :=
      setWitness_sameVotes found rfl
    have deposited := depositWitnessPay_sameVotes deposits
    exact ⟨deposited.stakings,
      fun other => (deposited.recorded other).trans (noted.recorded other)⟩
  · cases returns
    exact .refl db

theorem payVoter_sameVotes {backup : List Witness} {s : Staking}
    (returns : db.payVoter backup s = .ok after) : SameVotes db after := by
  simp only [payVoter, bind_eq_ok, getWitness_eq_ok] at returns
  obtain ⟨wit, _, pay, _, returns⟩ := returns
  split at returns
  · simp only [bind_eq_ok, getWitness_eq_ok] at returns
    obtain ⟨paid, pays, witness, found, pool, _, returns⟩ := returns
    cases returns
    exact (stakingCashback_sameVotes pays).trans
      (setWitness_sameVotes found rfl)
  · cases returns
    exact .refl db

theorem visitStaking_weighed {backup : List Witness} {id : Nat}
    (weighed : Weighed db) (returns : visitStaking backup db id = .ok after) :
    Weighed after := by
  unfold visitStaking at returns
  split at returns
  · cases returns
    exact weighed
  · next s found =>
      have again : db.findStaking s.id = some s :=
        (id_of_findStaking found).symm ▸ found
      split at returns
      · next valid =>
          unfold visitValidStaking at returns
          split_ifs at returns
          · obtain ⟨paid, pays, handles⟩ := bind_eq_ok.mp returns
            have same := payVoter_sameVotes pays
            refine handlingExpiredStaking_weighed (same.weighed weighed) ?_
              valid handles
            rw [findStaking, same.stakings]
            exact again
          · exact handlingExpiredStaking_weighed weighed again valid returns
          · cases returns
            exact weighed
      · cases returns
        exact weighed

theorem distributeStakingRewards_weighed {tally : List Int}
    (weighed : Weighed db)
    (returns : db.distributeStakingRewards tally = .ok after) :
    Weighed after := by
  simp only [distributeStakingRewards, bind_eq_ok] at returns
  obtain ⟨totalWeight, _, returns⟩ := returns
  split at returns
  · obtain ⟨paid, pays, visits⟩ := bind_eq_ok.mp returns
    have paidWeighed : Weighed paid :=
      foldlM_keeps
        (fun id _ before later kept pay =>
          (payTrustNode_sameVotes pay).weighed kept)
        weighed pays
    exact foldlM_keeps
      (fun id _ before later kept visit => visitStaking_weighed kept visit)
      paidWeighed visits
  · cases returns
    exact weighed

end Maintenance

inductive StakingEvent where
  | create (o : StakingCreateOperation)
  | update (o : StakingUpdateOperation)
  | claim (o : StakingClaimOperation)
  | maintenance
  | elsewhere
  deriving DecidableEq, Repr

/-- The steps of the chain, as far as stakes and votes go.  Everything but the
staking operations and the maintenance leaves both alone, whatever else it
changes: the parameters, the time, balances, or the witnesses, to which it may
add some without votes. -/
inductive StakingStep : StakingEvent → Database → Database → Prop
  | create {db after : Database} (required : Option Int)
      (o : StakingCreateOperation)
      (returns : (stakingCreateEvaluator required o).run db = .ok after) :
      StakingStep (.create o) db after
  | update {db after : Database} (required : Option Int)
      (o : StakingUpdateOperation)
      (returns : (stakingUpdateEvaluator required o).run db = .ok after) :
      StakingStep (.update o) db after
  | claim {db after : Database} (required : Option Int)
      (o : StakingClaimOperation)
      (returns : (stakingClaimEvaluator required o).run db = .ok after) :
      StakingStep (.claim o) db after
  | maintenance {db after : Database} (tally : List Int)
      (modeOn :
        db.headBlockTime > HARDFORK_1025_TIME ∧
          db.parameters.voteParams.stakingModeOn = true)
      (returns : db.distributeStakingRewards tally = .ok after) :
      StakingStep .maintenance db after
  | elsewhere {db after : Database} (added : Nat)
      (stakings : after.stakings = db.stakings)
      (weights :
        after.witnesses.map (·.totalVoteWeights) =
          db.witnesses.map (·.totalVoteWeights) ++ List.replicate added 0) :
      StakingStep .elsewhere db after

/-- The step stakes no negative amount, and claims no stake that no longer
counts while the staking mode is off. -/
def StakingEvent.Regular (db : Database) : StakingEvent → Prop
  | .create o => 0 ≤ o.amount.amount
  | .claim o =>
      db.parameters.voteParams.stakingModeOn = true ∨
        ∀ s, db.findStaking o.stakingId = some s → s.isValid = true
  | _ => True

inductive RegularRun (start : Database) : Database → Prop
  | start : RegularRun start start
  | step {db after : Database} {event : StakingEvent}
      (earlier : RegularRun start db) (taken : StakingStep event db after)
      (regular : event.Regular db) :
      RegularRun start after

/-- A chain on which nobody has staked. -/
structure NoStakes (db : Database) : Prop where
  stakings : db.stakings = []
  weights : ∀ wit ∈ db.witnesses, wit.totalVoteWeights = 0

section Runs

variable {start db after : Database}

theorem recordedFor_eq_getD (db : Database) (id : WitnessId) :
    db.recordedFor id =
      ((db.witnesses.map (·.totalVoteWeights))[id]?).getD 0 := by
  rw [recordedFor, List.getElem?_map]

theorem elsewhere_sameVotes {added : Nat}
    (stakings : after.stakings = db.stakings)
    (weights :
      after.witnesses.map (·.totalVoteWeights) =
        db.witnesses.map (·.totalVoteWeights) ++ List.replicate added 0) :
    SameVotes db after := by
  refine ⟨stakings, ?_⟩
  intro id
  rw [recordedFor_eq_getD, recordedFor_eq_getD, weights,
    List.getElem?_append]
  split
  · rfl
  · next outside =>
      rw [List.getElem?_replicate, List.getElem?_eq_none (by omega)]
      split
      · rfl
      · rfl

theorem StakingStep.weighed {event : StakingEvent}
    (taken : StakingStep event db after) (regular : event.Regular db)
    (weighed : Weighed db) : Weighed after := by
  cases taken with
  | create required o returns =>
      exact stakingCreate_weighed weighed regular returns
  | update required o returns => exact stakingUpdate_weighed weighed returns
  | claim required o returns =>
      exact stakingClaim_weighed weighed regular returns
  | maintenance tally _ returns =>
      exact distributeStakingRewards_weighed weighed returns
  | elsewhere added stakings weights =>
      exact (elsewhere_sameVotes stakings weights).weighed weighed

theorem NoStakes.weighed (noStakes : NoStakes db) :
    Weighed db where
  excess_eq := by
    intro id
    have recorded : db.recordedFor id = 0 := by
      unfold recordedFor
      cases found : db.witnesses[id]? with
      | none => rfl
      | some wit => exact noStakes.weights wit (List.mem_of_getElem? found)
    rw [excess, recorded, stakedFor, noStakes.stakings]
    rfl
  amounts := by
    rw [noStakes.stakings]
    exact fun _ member => absurd member List.not_mem_nil

theorem RegularRun.weighed (run : RegularRun start db)
    (noStakes : NoStakes start) : Weighed db := by
  induction run with
  | start => exact noStakes.weighed
  | step _ taken regular ih =>
      exact taken.weighed regular ih

/-- In every state that is reached by regular steps, the votes of every witness
are the weight of the valid stakes that name it. -/
theorem vote_weights_right (noStakes : NoStakes start)
    (run : RegularRun start db) (id : WitnessId) (wit : Witness)
    (found : db.witnesses[id]? = some wit) :
    wit.totalVoteWeights = db.stakedFor id := by
  rw [← recordedFor_of_found found]
  exact (run.weighed noStakes).recordedFor_eq id

end Runs

section Sample

/-- One witness and one holder of a hundred; stakes for a week and for a
quarter. -/
def oneWitness : Database :=
  { plainDatabase with
    accounts := [plainAccount 11]
    balances := [⟨0, 1, 100⟩]
    witnesses := [{
      witnessAccount := 0
      payVb := none
      voteId := 0
      totalMissed := 0
      previousMissed := 0
      isValid := true
      isBanned := false
      totalVoteWeights := 0
      voteRewardPool := 0
      commissionRate := 0
      commissionUpdateTime := 0 }]
    parameters := { plainParameters with
      voteParams := {
        stakingModeOn := true
        setCommissionInterval := 0
        stakingRewardsVestingSeconds := 0
        missedBlockLimit := 100
        maxStakingCount := 10
        witnessRewardProportion := 500
        validNodesNumber := 35
        minStakingAmount := 1 }
      stakingParams := [("7", ⟨7, 1, true⟩), ("90", ⟨90, 1, true⟩)] } }

def sampleStake (amount : Int) (programId : String) (days : UInt32) :
    StakingCreateOperation where
  fee := ⟨0, 1⟩
  owner := 0
  trustNode := 0
  amount := ⟨amount, 1⟩
  programId := programId
  weight := 1
  stakingDays := days

/-- The result of a call, or the state before it. -/
def orElse (db : Database) (call : Except Fault Database) : Database :=
  match call with
  | .ok after => after
  | .error _ => db

/-- Both stakes are made. -/
def staked : Database :=
  let first :=
    orElse oneWitness
      ((stakingCreateEvaluator none (sampleStake 10 "7" 7)).run oneWitness)
  orElse first
    ((stakingCreateEvaluator none (sampleStake 20 "90" 90)).run first)

def dayEight : Database :=
  { staked with
    properties := { staked.properties with time := 1610000000 + 8 * 86400 } }

/-- The maintenance has taken the first stake out of the count. -/
def maintained : Database :=
  orElse dayEight (dayEight.distributeStakingRewards dayEight.voteTally)

def modeOff : Database :=
  { maintained with
    parameters := { maintained.parameters with
      voteParams := { maintained.parameters.voteParams with
        stakingModeOn := false } } }

/-- The first stake is claimed. -/
def claimed : Database :=
  orElse modeOff ((stakingClaimEvaluator none ⟨⟨0, 1⟩, 0, 0⟩).run modeOff)

theorem maintained_regular : RegularRun oneWitness maintained := by
  have first :
      RegularRun oneWitness
        (orElse oneWitness
          ((stakingCreateEvaluator none
            (sampleStake 10 "7" 7)).run oneWitness)) :=
    .step .start (.create none (sampleStake 10 "7" 7) (by decide))
      (show (0 : Int) ≤ 10 by decide)
  have both : RegularRun oneWitness staked :=
    .step first (.create none (sampleStake 20 "90" 90) (by decide))
      (show (0 : Int) ≤ 20 by decide)
  have later : RegularRun oneWitness dayEight :=
    .step both (.elsewhere 0 rfl (by decide)) trivial
  exact .step later
    (.maintenance dayEight.voteTally (by decide) (by decide)) trivial

theorem vote_weights_right_maintained :
    ∃ wit, maintained.witnesses[0]? = some wit ∧
      wit.totalVoteWeights = maintained.stakedFor 0 ∧
      maintained.stakedFor 0 = 20 :=
  ⟨_, rfl,
    vote_weights_right ⟨rfl, by decide⟩ maintained_regular 0 _ rfl,
    by decide⟩

/-- The claim of the expired stake takes its weight a second time. -/
theorem claimed_stake_counts_twice :
    RegularRun oneWitness modeOff ∧
      StakingStep (.claim ⟨⟨0, 1⟩, 0, 0⟩) modeOff claimed ∧
      claimed.recordedFor 0 = 10 ∧ claimed.stakedFor 0 = 20 :=
  ⟨.step maintained_regular (.elsewhere 0 rfl (by decide)) trivial,
    .claim none ⟨⟨0, 1⟩, 0, 0⟩ (by decide), by decide, by decide⟩

end Sample

end GxbCore.Ledger
