import GxbCore.Ledger.RewardArithmetic

/-!
# Overflow of the rewards

Along every run the recorded votes and the weights of the stakes stay
`share_type`, and no pool is below zero, whether or not the votes are counted
right.  So the distribution throws for the products only, and not at all in a
state in which they fit.
-/

namespace GxbCore.Ledger

open Database

/-- What every run keeps, as far as the arithmetic of the rewards goes. -/
structure RewardRange (db : Database) : Prop where
  stakes : ∀ s ∈ db.stakings, s.InRange
  votes : VotesInRange db
  pool_nonneg : 0 ≤ db.rewardPool
  pool_lt : db.rewardPool < 2 ^ 63
  votePools : ∀ id, 0 ≤ db.votePool id
  rates : ∀ id, db.commissionRateOf id ≤ 1000

/-- The step stakes no negative amount. -/
def StakingEvent.StakesNonneg (_ : Database) : StakingEvent → Prop
  | .create o => 0 ≤ o.amount.amount
  | _ => True

section Operations

variable {db after : Database} {required : Option Int}

theorem addVoteWeights_votesInRange {id : WitnessId} {weights : Int}
    (returns : db.addVoteWeights id weights = .ok after)
    (nonneg : 0 ≤ weights) (votes : VotesInRange db) : VotesInRange after := by
  simp only [addVoteWeights, bind_eq_ok, getWitness_eq_ok] at returns
  obtain ⟨wit, found, sum, checked, returns⟩ := returns
  cases returns
  obtain ⟨isSum, _, sumLt⟩ := share_eq_ok checked
  intro other
  have before := votes id
  rw [recordedFor_of_found found] at before
  rw [recordedFor_setWitness _ found]
  split
  · dsimp only
    omega
  · exact votes other

theorem RewardRange.of_paysNothing (range : RewardRange db)
    (nothing : PaysNothing db after)
    (stakes : ∀ s ∈ after.stakings, s.InRange) (votes : VotesInRange after) :
    RewardRange after where
  stakes := stakes
  votes := votes
  pool_nonneg := by
    rw [nothing.rewardPool, Int.add_zero]
    exact range.pool_nonneg
  pool_lt := by
    rw [nothing.rewardPool, Int.add_zero]
    exact range.pool_lt
  votePools id := by
    rw [nothing.votePool, Int.add_zero]
    exact range.votePools id
  rates id := by
    rw [nothing.commissionRateOf]
    exact range.rates id

theorem stakingCreate_range {o : StakingCreateOperation}
    (range : RewardRange db) (nonneg : 0 ≤ o.amount.amount)
    (returns : (stakingCreateEvaluator required o).run db = .ok after) :
    RewardRange after := by
  have nothing := stakingCreate_paysNothing returns
  obtain ⟨stakings, _, _⟩ := stakingCreate_opens returns
  obtain ⟨_, assets, accounts, applied, _, applies, charges⟩ :=
    run_applies (fun _ _ => rfl) returns
  simp only [stakingCreateEvaluator, bind_eq_ok] at applies
  obtain ⟨taken, takes, weights, checked, adds⟩ := applies
  obtain ⟨isProduct, _, productLt⟩ := share_eq_ok checked
  have productNonneg : 0 ≤ o.amount.amount * (o.weight.toNat : Int) :=
    Int.mul_nonneg nonneg (Int.natCast_nonneg _)
  apply range.of_paysNothing nothing
  · rw [stakings]
    exact forall_concat range.stakes ⟨nonneg, productLt⟩
  · have taken := (adjustBalance_sameVotes takes).votesInRange range.votes
    have added :=
      addVoteWeights_votesInRange adds (isProduct ▸ productNonneg) taken
    exact (adjustBalance_sameVotes charges).votesInRange added

theorem SameStakes.stakesInRange (same : SameStakes db after)
    (stakes : ∀ s ∈ db.stakings, s.InRange) :
    ∀ s ∈ after.stakings, s.InRange := by
  intro s member
  have shown : s.bare ∈ db.stakings.map Staking.bare := by
    rw [← same.stakings]
    exact List.mem_map_of_mem member
  obtain ⟨before, isBefore, isBare⟩ := List.mem_map.mp shown
  have inRange : before.bare.InRange := stakes before isBefore
  rw [isBare] at inRange
  exact inRange

theorem stakingUpdate_range {o : StakingUpdateOperation}
    (range : RewardRange db)
    (returns : (stakingUpdateEvaluator required o).run db = .ok after) :
    RewardRange after := by
  have nothing := stakingUpdate_paysNothing returns
  obtain ⟨_, _, _, same⟩ := stakingUpdate_moves returns
  obtain ⟨_, assets, accounts, applied, _, applies, charges⟩ :=
    run_applies (fun _ _ => rfl) returns
  simp only [stakingUpdateEvaluator, bind_eq_ok, orThrow_eq_ok,
    getWitness_eq_ok] at applies
  obtain ⟨s, found, product, productChecked, previous, isPrevious, left,
    leftChecked, adds⟩ := applies
  have weightNonneg :=
    voteWeights_nonneg (range.stakes s (mem_of_findStaking found)).1
  have isProduct := eq_of_share productChecked
  have isLeft := eq_of_share leftChecked
  have before := range.votes s.trustNode
  have sameWitness : db.witnesses[s.trustNode]? = some previous :=
    isPrevious
  rw [recordedFor_of_found sameWitness] at before
  apply range.of_paysNothing nothing (same.stakesInRange range.stakes)
  have reduced :
      VotesInRange
        (db.setWitness s.trustNode
          { previous with totalVoteWeights := left }) := by
    intro other
    rw [recordedFor_setWitness _ sameWitness]
    split
    · dsimp only
      omega
    · exact range.votes other
  have added := addVoteWeights_votesInRange adds (by omega) reduced
  exact (adjustBalance_sameVotes charges).votesInRange added

theorem stakingClaim_range {o : StakingClaimOperation} (range : RewardRange db)
    (returns : (stakingClaimEvaluator required o).run db = .ok after) :
    RewardRange after := by
  have nothing := stakingClaim_paysNothing returns
  obtain ⟨_, _, _, stakings, _⟩ := stakingClaim_closes returns
  obtain ⟨_, assets, accounts, applied, _, applies, charges⟩ :=
    run_applies (fun _ _ => rfl) returns
  simp only [stakingClaimEvaluator, bind_eq_ok, orThrow_eq_ok] at applies
  obtain ⟨s, found, reduced, reduces, paid, pays, removes⟩ := applies
  cases removes
  have reducedVotes : VotesInRange reduced := by
    unfold claimVoteWeights at reduces
    split at reduces
    · exact reduceVoteWeights_votesInRange reduces
        (range.stakes s (mem_of_findStaking found)) range.votes
    · cases reduces
      exact range.votes
  apply range.of_paysNothing nothing
  · rw [stakings]
    exact forall_eraseP range.stakes
  · have paidVotes :=
      (adjustBalance_sameVotes pays).votesInRange reducedVotes
    exact (adjustBalance_sameVotes charges).votesInRange paidVotes

end Operations

section Maintenance

variable {db paid after : Database} {wits : List WitnessId}

theorem RewardRange.rewardedWeight_nonneg (range : RewardRange db)
    (id : WitnessId) : 0 ≤ db.rewardedWeight id := by
  unfold rewardedWeight
  split
  · exact (range.votes id).1
  · exact Int.le_refl 0

theorem RewardRange.rewardTerms (range : RewardRange db)
    (nonzero : db.wholeWeight wits ≠ 0) :
    RewardTerms db db.rewardPool (db.wholeWeight wits) where
  pools_nonneg := range.pool_nonneg
  pools_lt := range.pool_lt
  whole_pos := by
    have nonneg : 0 ≤ db.wholeWeight wits :=
      total_nonneg fun id _ => range.rewardedWeight_nonneg id
    omega
  weights := range.rewardedWeight_nonneg
  rates := range.rates

/-- The witnesses are paid their portions, whatever the votes are. -/
theorem RewardRange.paysWitnesses (range : RewardRange db)
    (nonzero : db.wholeWeight wits ≠ 0)
    (returns :
      wits.foldlM (payTrustNode db.rewardPool (db.wholeWeight wits)) db =
        .ok paid) :
    Pays db paid (-total (db.rewardOf wits) wits)
      (fun id =>
        total (fun wit => atWitness wit (db.votersPartOf wits wit) id) wits)
      (fun account =>
        total
          (fun wit =>
            atAccount (db.accountOf wit) (db.ownPartOf wits wit) account)
          wits) := by
  have terms := range.rewardTerms nonzero
  apply payTrustNodes_portions terms _ _ returns
  · intro id member
    exact le_total_of_mem (fun other _ => terms.weights other) member
  · exact total_portion_le range.pool_nonneg terms.whole_pos (Int.le_refl _)

theorem RewardRange.afterWitnesses (range : RewardRange db)
    (nonzero : db.wholeWeight wits ≠ 0)
    (returns :
      wits.foldlM (payTrustNode db.rewardPool (db.wholeWeight wits)) db =
        .ok paid) : RewardRange paid := by
  have terms := range.rewardTerms nonzero
  have pays := range.paysWitnesses nonzero returns
  have same := payTrustNodes_sameVotes returns
  have rewardsNonneg : 0 ≤ total (db.rewardOf wits) wits :=
    total_nonneg fun id _ => terms.reward_nonneg id
  have enough : total (db.rewardOf wits) wits ≤ db.rewardPool :=
    total_portion_le range.pool_nonneg terms.whole_pos (Int.le_refl _)
  have poolLt := range.pool_lt
  constructor
  · rw [same.stakings]
    exact range.stakes
  · exact same.votesInRange range.votes
  · rw [pays.rewardPool]
    omega
  · rw [pays.rewardPool]
    omega
  · intro id
    rw [pays.votePool]
    apply Int.add_nonneg (range.votePools id)
    apply total_nonneg
    intro wit _
    unfold atWitness
    split
    · exact portion_nonneg (terms.reward_nonneg wit)
        (Int.natCast_nonneg _) (by decide)
    · exact Int.le_refl 0
  · intro id
    rw [pays.commissionRateOf]
    exact range.rates id

theorem RewardRange.afterStakes (range : RewardRange paid) {ids : List Nat}
    (returns : ids.foldlM (visitStaking paid.witnesses) paid = .ok after) :
    RewardRange after := by
  have start : PaysStakes paid paid :=
    ⟨.refl paid, rfl, range.votePools, range.votes, range.stakes,
      fun _ member _ => member⟩
  have pays : PaysStakes paid after :=
    foldlM_keeps
      (fun _ _ _ _ kept visit =>
        visitStaking_keeps kept range.votePools range.votes visit)
      start returns
  refine ⟨pays.stakes, pays.votes, ?_, ?_, pays.votePools, ?_⟩
  · rw [pays.rewardPool]
    exact range.pool_nonneg
  · rw [pays.rewardPool]
    exact range.pool_lt
  · intro id
    rw [pays.terms.commissionRateOf]
    exact range.rates id

theorem distributeStakingRewards_range {tally : List Int}
    (range : RewardRange db)
    (returns : db.distributeStakingRewards tally = .ok after) :
    RewardRange after := by
  have inOrder := distributeStakingRewards_in_order returns
  simp only [distributeInOrder, bind_eq_ok] at inOrder
  obtain ⟨sum, sums, inOrder⟩ := inOrder
  rw [rewardTotalWeight_eq_ok sums] at inOrder
  split at inOrder
  · next nonzero =>
      obtain ⟨paid, pays, visits⟩ := bind_eq_ok.mp inOrder
      exact (range.afterWitnesses nonzero pays).afterStakes visits
  · cases inOrder
    exact range

end Maintenance

/-- All that is to be paid, and all that vests for an account, is within the
largest supply. -/
structure Bounded (db : Database) : Prop where
  unpaid_le : db.unpaid ≤ GRAPHENE_MAX_SHARE_SUPPLY
  vestings : Vests db
  vested : ∀ account, db.vestedFor account ≤ GRAPHENE_MAX_SHARE_SUPPLY

/-- The sum of the weights fits, and so do the products of the rewards when
there are any: up to hard fork 1029 pool and weight of a witness, its reward and
its commission rate, and the filled vote reward pool with the amount and the
weight of a stake. -/
structure ProductsFit (db : Database) (wits : List WitnessId) : Prop where
  whole : db.wholeWeight wits < 2 ^ 63
  early :
    db.wholeWeight wits ≠ 0 → db.headBlockTime ≤ HARDFORK_1029_TIME →
      ∀ id ∈ wits, db.rewardPool * db.rewardedWeight id < 2 ^ 63
  commissions :
    db.wholeWeight wits ≠ 0 →
      ∀ id ∈ wits, db.rewardOf wits id * db.commissionRateOf id < 2 ^ 63
  stakes :
    db.wholeWeight wits ≠ 0 →
      ∀ s ∈ db.stakings, s.isValid = true →
        db.eligible s.trustNode = true → db.recordedFor s.trustNode ≠ 0 →
          db.filledPool wits s.trustNode * s.amount.amount < 2 ^ 63 ∧
            db.filledPool wits s.trustNode * s.voteWeights < 2 ^ 63

section Runs

variable {start db after : Database} {wits : List WitnessId}

theorem NoRewards.range (noRewards : NoRewards db) : RewardRange db where
  stakes := by
    rw [noRewards.stakings]
    exact fun _ member => absurd member List.not_mem_nil
  votes id := by
    have zero : db.recordedFor id = 0 := by
      rw [noRewards.weighed.recordedFor_eq, stakedFor, noRewards.stakings]
      rfl
    rw [zero]
    decide
  pool_nonneg := noRewards.state.pool_nonneg
  pool_lt := noRewards.state.pool_lt
  votePools := noRewards.state.votePools
  rates := noRewards.rates

theorem StakingStep.rewardRange {event : StakingEvent}
    (taken : StakingStep event db after)
    (frame : event = .elsewhere → RewardFrame db after)
    (nonneg : event.StakesNonneg db) (range : RewardRange db) :
    RewardRange after := by
  cases taken with
  | create required o returns =>
      exact stakingCreate_range range nonneg returns
  | update required o returns => exact stakingUpdate_range range returns
  | claim required o returns => exact stakingClaim_range range returns
  | maintenance tally modeOn returns =>
      exact distributeStakingRewards_range range returns
  | elsewhere added stakings weights =>
      have frame := frame rfl
      have same := elsewhere_sameVotes stakings weights
      constructor
      · rw [stakings]
        exact range.stakes
      · exact same.votesInRange range.votes
      · exact Int.le_trans range.pool_nonneg frame.pool_grows
      · exact frame.pool_lt
      · intro id
        rw [frame.votePools]
        exact range.votePools id
      · exact frame.rates

theorem RewardRun.range
    (run : RewardRun (fun db event => event.StakesNonneg db) start db)
    (noRewards : NoRewards start) : RewardRange db := by
  induction run with
  | start => exact noRewards.range
  | step _ taken frame nonneg ih =>
      exact taken.rewardRange frame nonneg ih

theorem failsOnly_rewardTotalWeight (range : RewardRange db)
    (fits : db.wholeWeight wits < 2 ^ 63) :
    FailsOnly isNotFound (db.rewardTotalWeight wits) := by
  rw [← Int.zero_add (db.wholeWeight wits)] at fits
  unfold rewardTotalWeight
  generalize isStart : (0 : Int) = sum at fits ⊢
  have startNonneg : 0 ≤ sum := Int.le_of_eq isStart
  clear isStart
  induction wits generalizing sum with
  | nil => exact failsOnly_ok sum
  | cons id rest ih =>
      have weightNonneg := range.rewardedWeight_nonneg id
      have restNonneg : 0 ≤ db.wholeWeight rest :=
        total_nonneg fun other _ => range.rewardedWeight_nonneg other
      have split : db.wholeWeight (id :: rest) =
          db.rewardedWeight id + db.wholeWeight rest :=
        total_cons id rest
      rw [List.foldlM_cons]
      apply failsOnly_bind
      · apply failsOnly_bind (failsOnly_missing _)
        intro wit found
        rw [orThrow_eq_ok] at found
        split
        · next isEligible =>
            rw [← rewardedWeight_of_eligible found isEligible]
            apply failsOnly_share
            · omega
            · omega
        · exact failsOnly_ok sum
      · intro next first
        have isNext := rewardTotalWeight_round first
        apply ih next
        · omega
        · omega

/-- What is bounded has room for all that is to be paid. -/
theorem Bounded.solvent (bounded : Bounded db) (range : RewardRange db)
    (late : db.headBlockTime > HARDFORK_1008_TIME) :
    Solvent db where
  pool := range.pool_nonneg
  votePools := range.votePools
  vestings := bounded.vestings
  unpaid_le := bounded.unpaid_le
  vested account := by
    have vested := bounded.vested account
    have unpaid := bounded.unpaid_le
    omega
  late := late

theorem ProductsFit.rewardFits (fits : ProductsFit db wits)
    (range : RewardRange db) (nonzero : db.wholeWeight wits ≠ 0)
    (id : WitnessId) (member : id ∈ wits) :
    RewardFits db db.rewardPool (db.wholeWeight wits) id where
  weight_le :=
    le_total_of_mem (fun other _ => range.rewardedWeight_nonneg other) member
  early early := fits.early nonzero early id member
  commission := fits.commissions nonzero id member

/-- In every state that a run reaches with its amounts bounded by the largest
supply, the rewards of a maintenance do not overflow when their products fit:
the distribution throws for nothing but a missing object. -/
theorem rewards_never_overflow
    (noRewards : NoRewards start)
    (run : RewardRun (fun db event => event.StakesNonneg db) start db)
    (late : db.headBlockTime > HARDFORK_1025_TIME) (bounded : Bounded db)
    (tally : List Int)
    (fits : ProductsFit db (db.electedWitnesses tally))
    (fault : Fault)
    (throws : db.distributeStakingRewards tally = .error fault) :
    fault = .notFound := by
  have range := run.range noRewards
  have afterFork : db.headBlockTime > HARDFORK_1008_TIME :=
    UInt32.lt_trans (show HARDFORK_1008_TIME < HARDFORK_1025_TIME by decide)
      late
  have solvent := bounded.solvent range afterFork
  have fails : FailsOnly isNotFound (db.distributeStakingRewards tally) := by
    unfold distributeStakingRewards
    apply failsOnly_bind (failsOnly_rewardTotalWeight range fits.whole)
    intro sum sums
    have isWhole :
        sum = db.wholeWeight (db.electedWitnesses tally) :=
      rewardTotalWeight_eq_ok sums
    rw [isWhole]
    split
    · next nonzero =>
        have terms := range.rewardTerms nonzero
        have rewardFits := fits.rewardFits range nonzero
        apply failsOnly_bind
          (failsOnly_payTrustNodes solvent terms rewardFits)
        intro paid pays
        have paidRange := range.afterWitnesses nonzero pays
        have paysOut := range.paysWitnesses nonzero pays
        have same := payTrustNodes_sameVotes pays
        have keeps : PaysWitnesses db paid :=
          foldlM_keeps
            (fun id member _ _ kept pay =>
              kept.step terms (rewardFits id member).weight_le pay)
            ⟨.refl db, .refl db, solvent⟩ pays
        apply failsOnly_visitStakings keeps.solvent paidRange.votes
          paidRange.stakes
        intro s member valid isEligible hasVotes
        rw [paysOut.eligible] at isEligible
        rw [same.recorded] at hasVotes
        rw [same.stakings] at member
        rw [paysOut.votePool]
        exact fits.stakes nonzero s member valid isEligible hasVotes
    · exact failsOnly_ok _
  exact fails.thrown fault throws

end Runs

section Sample

theorem RewardRun.mono {allowed more : Database → StakingEvent → Prop}
    {start db : Database} (run : RewardRun allowed start db)
    (implies : ∀ db event, allowed db event → more db event) :
    RewardRun more start db := by
  induction run with
  | start => exact .start
  | step _ taken frame isAllowed ih =>
      exact .step ih taken frame
        (implies _ _ isAllowed)

theorem regular_stakesNonneg (db : Database) (event : StakingEvent)
    (regular : event.Regular db) : event.StakesNonneg db := by
  cases event with
  | create o => exact regular
  | update o => trivial
  | claim o => trivial
  | maintenance => trivial
  | elsewhere => trivial

theorem rewards_never_overflow_funded :
    (funded dayEight 400).distributeStakingRewards [30] ≠
      .error .overflow := by
  intro throws
  have isMissing :=
    rewards_never_overflow oneWitness_noRewards
      (funded_run.mono regular_stakesNonneg) (by decide)
      ⟨by decide, fun _ member => absurd member List.not_mem_nil,
        fun account => show (0 : Int) ≤ _ by decide⟩
      [30] ⟨by decide, by decide, by decide, by decide⟩ .overflow throws
  exact absurd isMissing (by decide)

/-- A holder of two hundred thousand coins. -/
def richHolder : Database :=
  { oneWitness with balances := [⟨0, 1, 20000000000⟩] }

/-- A hundred thousand of them are staked. -/
def richStaked : Database :=
  orElse richHolder
    ((stakingCreateEvaluator none (sampleStake 10000000000 "90" 90)).run
      richHolder)

/-- Ten thousand coins are in the reward pool, all of them for the voters. -/
def richRewards : Database :=
  { richStaked with
    properties := { richStaked.properties with
      currentStakingRewardPool := 1000000000 }
    witnesses := richStaked.witnesses.map fun wit =>
      { wit with commissionRate := 1000 } }

theorem richHolder_noRewards : NoRewards richHolder where
  stakings := rfl
  weights := by decide
  pool := rfl
  votePools id := by
    rcases id with _ | id
    · rfl
    · rfl
  rates id := by
    rcases id with _ | id
    · decide
    · exact Nat.zero_le _

/-- The pool times the stake is more than 64 bits hold, so that the maintenance
throws. -/
theorem rich_rewards_overflow :
    NoRewards richHolder ∧
      RewardRun (fun db event => event.StakesNonneg db) richHolder
        richRewards ∧
      richRewards.headBlockTime > HARDFORK_1029_TIME ∧
      richRewards.parameters.voteParams.stakingModeOn = true ∧
      Bounded richRewards ∧
      richRewards.distributeStakingRewards [10000000000] =
        .error .overflow := by
  have holds :
      RewardRun (fun db event => event.StakesNonneg db) richHolder
        richStaked :=
    .step .start
      (.create none (sampleStake 10000000000 "90" 90) (by decide))
      (fun isElsewhere => nomatch isElsewhere)
      (show (0 : Int) ≤ 10000000000 by decide)
  refine ⟨richHolder_noRewards,
    .step holds (.elsewhere 0 rfl (by decide))
      (fun _ => .of_lists rfl (by decide) (by decide) (by decide)) trivial,
    by decide, by decide,
    ⟨by decide, fun _ member => absurd member List.not_mem_nil,
      fun account => show (0 : Int) ≤ _ by decide⟩,
    by decide⟩

end Sample

end GxbCore.Ledger
