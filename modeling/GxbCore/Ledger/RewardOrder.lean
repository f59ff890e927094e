import GxbCore.Ledger.RewardLoops

/-!
# The rewards of a maintenance

What a maintenance pays, from the state before it alone: each witness that takes
part gets its portion of the reward pool, split by its commission rate, and each
valid stake of such a witness its portion of the vote reward pool.  In a state
whose recorded votes are those of the stakes the loops pay just that, in
whichever order they visit the witnesses and the stakes.
-/

namespace GxbCore.Ledger

open Database

namespace Database

/-- The witnesses that `sort_votable_objects` elects for the rewards. -/
def electedWitnesses (db : Database) (tally : List Int) : List WitnessId :=
  db.sortVotableWitnesses tally
    (min db.witnesses.length db.parameters.voteParams.validNodesNumber.toNat)

/-- The distribution of the rewards when the loops visit the witnesses and the
stakes in the given order. -/
def distributeInOrder (db : Database) (wits : List WitnessId)
    (stakes : List Staking) : Except Fault Database := do
  let totalWeight ← db.rewardTotalWeight wits
  if totalWeight ≠ 0 then
    let paid ← wits.foldlM (payTrustNode db.rewardPool totalWeight) db
    (stakes.map (·.id)).foldlM (visitStaking paid.witnesses) paid
  else
    return db

/-- `reward_total_weight` -/
def wholeWeight (db : Database) (wits : List WitnessId) : Int :=
  total db.rewardedWeight wits

/-- `floor(pool * total_vote_weights / reward_total_weight)` -/
def rewardOf (db : Database) (wits : List WitnessId) (id : WitnessId) : Int :=
  db.rewardFrom db.rewardPool (db.wholeWeight wits) id

/-- The part of the reward that goes to the vote reward pool:
`floor(reward * commission_rate / 1000)`. -/
def votersPartOf (db : Database) (wits : List WitnessId) (id : WitnessId) :
    Int :=
  db.votersPart db.rewardPool (db.wholeWeight wits) id

/-- The rest of the reward, the pay of the witness. -/
def ownPartOf (db : Database) (wits : List WitnessId) (id : WitnessId) : Int :=
  db.ownPart db.rewardPool (db.wholeWeight wits) id

/-- The vote reward pool once the witnesses have been paid. -/
def filledPool (db : Database) (wits : List WitnessId) (id : WitnessId) :
    Int :=
  db.votePool id
    + total (fun wit => atWitness wit (db.votersPartOf wits wit) id) wits

/-- `floor(vote_pool * amount * weight / total_vote_weights)` for a valid stake
of a witness that takes part. -/
def stakeRewardOf (db : Database) (wits : List WitnessId) (s : Staking) :
    Int :=
  if s.isValid = true ∧ db.eligible s.trustNode = true then
    portion (db.filledPool wits s.trustNode) s.voteWeights
      (db.recordedFor s.trustNode)
  else
    0

end Database

/-- The outcome of the rewards: every payment is the portion that falls to it,
and no pool is short of what it pays. -/
structure Distributed (db after : Database) (wits : List WitnessId) :
    Prop where
  pool : after.rewardPool = db.rewardPool - total (db.rewardOf wits) wits
  pool_enough : total (db.rewardOf wits) wits ≤ db.rewardPool
  votePools :
    ∀ id, after.votePool id =
      db.filledPool wits id
        - total (fun s => atWitness s.trustNode (db.stakeRewardOf wits s) id)
          db.stakings
  votePools_enough :
    ∀ id,
      total (fun s => atWitness s.trustNode (db.stakeRewardOf wits s) id)
        db.stakings ≤ db.filledPool wits id
  vested :
    ∀ account, after.vestedFor account =
      db.vestedFor account
        + total
          (fun wit =>
            atAccount (db.accountOf wit) (db.ownPartOf wits wit) account)
          wits
        + total (fun s => atAccount s.owner (db.stakeRewardOf wits s) account)
          db.stakings
  stakings : after.stakings = db.stakings.map db.expire
  weights : ∀ id, after.recordedFor id = after.stakedFor id
  terms : SameTerms db after

section Weights

variable {db : Database}

theorem rewardTotalWeight_round {id : WitnessId} {sum next : Int}
    (returns :
      (do
        let wit ← db.getWitness id
        if rewards wit then share (sum + wit.totalVoteWeights)
        else return sum : Except Fault Int) = .ok next) :
    next = sum + db.rewardedWeight id := by
  obtain ⟨wit, found, returns⟩ := bind_eq_ok.mp returns
  rw [getWitness_eq_ok] at found
  have weight :
      db.rewardedWeight id =
        if rewards wit then wit.totalVoteWeights else 0 := by
    rw [rewardedWeight, recordedFor_of_found found]
    simp [eligible, found]
  rw [weight]
  split at returns
  · next isEligible =>
      rw [if_pos isEligible]
      exact eq_of_share returns
  · next notEligible =>
      cases returns
      rw [if_neg notEligible, Int.add_zero]

theorem rewardTotalWeight_eq_ok {wits : List WitnessId} {sum : Int}
    (returns : db.rewardTotalWeight wits = .ok sum) :
    sum = db.wholeWeight wits := by
  rw [← Int.zero_add (db.wholeWeight wits)]
  unfold rewardTotalWeight at returns
  generalize (0 : Int) = start at returns ⊢
  induction wits generalizing start with
  | nil =>
      cases returns
      exact (Int.add_zero _).symm
  | cons id rest ih =>
      rw [List.foldlM_cons] at returns
      obtain ⟨next, first, later⟩ := bind_eq_ok.mp returns
      rw [ih next later, rewardTotalWeight_round first,
        wholeWeight, wholeWeight, total_cons, Int.add_assoc]

end Weights

/-- The ids of the stakes are different, and the next one is new. -/
def FreshIds (db : Database) : Prop :=
  (db.stakings.map (·.id)).Nodup ∧
    ∀ id ∈ db.stakings.map (·.id), id < db.nextStakingId

/-- The stakes have different ids, no pool is negative, and no commission is
above the whole. -/
structure RewardState (db : Database) : Prop where
  ids : FreshIds db
  pool_nonneg : 0 ≤ db.rewardPool
  pool_lt : db.rewardPool < 2 ^ 63
  votePools : ∀ id, 0 ≤ db.votePool id
  rates : ∀ id, db.commissionRateOf id ≤ 1000

section Outcome

variable {db after : Database} {wits elected : List WitnessId}
  {stakes : List Staking}

theorem Weighed.recordedFor_nonneg (weighed : Weighed db) (id : WitnessId) :
    0 ≤ db.recordedFor id := by
  rw [weighed.recordedFor_eq]
  apply total_nonneg
  intro s member
  exact countsFor_nonneg (weighed.amounts s member) id

theorem Weighed.rewardedWeight_nonneg (weighed : Weighed db) (id : WitnessId) :
    0 ≤ db.rewardedWeight id := by
  unfold rewardedWeight
  split
  · exact weighed.recordedFor_nonneg id
  · exact Int.le_refl 0

theorem Weighed.rewardTerms (weighed : Weighed db) (state : RewardState db)
    (nonzero : db.wholeWeight wits ≠ 0) :
    RewardTerms db db.rewardPool (db.wholeWeight wits) where
  pools_nonneg := state.pool_nonneg
  pools_lt := state.pool_lt
  whole_pos := by
    have nonneg : 0 ≤ db.wholeWeight wits :=
      total_nonneg fun id _ => weighed.rewardedWeight_nonneg id
    omega
  weights := weighed.rewardedWeight_nonneg
  rates := state.rates

theorem rewards_enough (weighed : Weighed db) (state : RewardState db)
    (nonzero : db.wholeWeight wits ≠ 0) :
    total (db.rewardOf wits) wits ≤ db.rewardPool :=
  total_portion_le state.pool_nonneg
    (weighed.rewardTerms state nonzero).whole_pos (Int.le_refl _)

/-- What a stake gets from the pool of a witness is the portion that falls to
its weight there. -/
theorem stakeReward_eq_portion (s : Staking) (id : WitnessId) :
    atWitness s.trustNode (db.stakeReward s) id =
      if db.eligible id = true then
        portion (db.votePool id) (countsFor id s) (db.recordedFor id)
      else 0 := by
  unfold atWitness stakeReward countsFor
  by_cases here : id = s.trustNode
  · subst here
    by_cases valid : s.isValid = true
    · simp [valid]
    · simp [valid, portion]
  · have elsewhere : s.trustNode ≠ id := Ne.symm here
    simp [here, elsewhere, portion]

/-- The rewards of the stakes do not exceed the pool of their witness: they are
its votes. -/
theorem stakeRewards_enough (weighed : Weighed db)
    (pools : ∀ id, 0 ≤ db.votePool id) (id : WitnessId) :
    total (fun s => atWitness s.trustNode (db.stakeReward s) id)
      db.stakings ≤ db.votePool id := by
  rw [total_congr fun s _ => stakeReward_eq_portion s id]
  by_cases isEligible : db.eligible id = true
  · simp only [isEligible, if_true]
    have nonneg := weighed.recordedFor_nonneg id
    rcases Int.lt_or_eq_of_le nonneg with positive | zero
    · apply total_portion_le (pools id) positive
      rw [weighed.recordedFor_eq]
      exact Int.le_refl _
    · rw [total_eq_zero fun s _ => by simp [portion, ← zero]]
      exact pools id
  · rw [total_eq_zero fun s _ => if_neg isEligible]
    exact pools id

theorem wholeWeight_perm (order : wits.Perm elected) :
    db.wholeWeight wits = db.wholeWeight elected :=
  total_perm order

/-- Whatever the order of the witnesses and of the stakes, the rewards are the
portions. -/
theorem distributeInOrder_distributes (state : RewardState db)
    (weighed : Weighed db) (late : db.headBlockTime > HARDFORK_1026_TIME)
    (witsOrder : wits.Perm elected) (stakesOrder : stakes.Perm db.stakings)
    (nonzero : db.wholeWeight elected ≠ 0)
    (returns : db.distributeInOrder wits stakes = .ok after) :
    Distributed db after elected := by
  have sameWhole : db.wholeWeight wits = db.wholeWeight elected :=
    wholeWeight_perm witsOrder
  simp only [distributeInOrder, bind_eq_ok] at returns
  obtain ⟨sum, sums, returns⟩ := returns
  rw [rewardTotalWeight_eq_ok sums, sameWhole, if_pos nonzero] at returns
  obtain ⟨paid, pays, visits⟩ := bind_eq_ok.mp returns
  have terms := weighed.rewardTerms state nonzero
  have enough := rewards_enough weighed state nonzero
  have within : ∀ id ∈ wits, db.rewardedWeight id ≤ db.wholeWeight elected := by
    intro id member
    exact le_total_of_mem (fun other _ => terms.weights other)
      (witsOrder.mem_iff.mp member)
  have first :=
    payTrustNodes_portions terms within (by
      rw [total_perm witsOrder]
      exact enough) pays
  have sameVotes := payTrustNodes_sameVotes pays
  have paidWeighed := sameVotes.weighed weighed
  have filled : ∀ id, paid.votePool id = db.filledPool elected id := by
    intro id
    rw [first.votePool, total_perm witsOrder]
    rfl
  have filledNonneg : ∀ id, 0 ≤ paid.votePool id := by
    intro id
    rw [filled]
    apply Int.add_nonneg (state.votePools id)
    apply total_nonneg
    intro wit _
    unfold atWitness
    split
    · exact portion_nonneg (terms.reward_nonneg wit)
        (Int.natCast_nonneg _) (by decide)
    · exact Int.le_refl 0
  have sameRewards : ∀ s, paid.stakeReward s = db.stakeRewardOf elected s := by
    intro s
    simp only [stakeReward, stakeRewardOf, first.eligible, filled,
      sameVotes.recorded]
  have stakeTerms : StakeTerms paid paid := by
    refine ⟨SameTerms.refl paid, ?_, ?_, filledNonneg,
      paidWeighed.recordedFor_nonneg⟩
    · rw [first.headBlockTime]
      exact late
    · rw [sameVotes.stakings]
      exact state.ids.1
  have enoughFilled := stakeRewards_enough paidWeighed filledNonneg
  rw [← sameVotes.stakings] at stakesOrder
  have members : ∀ s ∈ stakes, s ∈ paid.stakings :=
    fun s member => stakesOrder.mem_iff.mp member
  have distinct : (stakes.map (·.id)).Nodup :=
    (stakesOrder.map _).nodup_iff.mpr stakeTerms.ids
  have stakings :=
    (visitStakings_expires stakeTerms.late stakeTerms.ids members distinct
      visits).stakings
  have second :=
    visitStakings_portions stakeTerms members distinct
      (fun s member =>
        voteWeights_nonneg (paidWeighed.amounts s (members s member)))
      (fun id => by
        rw [total_perm stakesOrder]
        exact enoughFilled id)
      visits
  have afterWeighed : Weighed after :=
    foldlM_keeps
      (fun id _ before later kept visit => visitStaking_weighed kept visit)
      paidWeighed visits
  constructor
  · rw [second.rewardPool, first.rewardPool, total_perm witsOrder]
    exact Int.add_zero _
  · exact enough
  · intro id
    rw [second.votePool, filled, total_perm stakesOrder, sameVotes.stakings,
      ← Int.sub_eq_add_neg]
    simp only [sameRewards]
  · intro id
    rw [← filled, ← sameVotes.stakings]
    simp only [← sameRewards]
    exact enoughFilled id
  · intro account
    rw [second.vestedFor, first.vestedFor, total_perm witsOrder,
      total_perm stakesOrder, sameVotes.stakings]
    simp only [sameRewards]
    rfl
  · rw [stakings, sameVotes.stakings]
    apply List.map_congr_left
    intro s member
    rw [← sameVotes.stakings] at member
    rw [if_pos (List.mem_map_of_mem (stakesOrder.mem_iff.mpr member)),
      first.expire]
  · exact afterWeighed.recordedFor_eq
  · exact first.toSameTerms.trans second.toSameTerms

theorem distributeInOrder_nothing (zero : db.wholeWeight wits = 0)
    (returns : db.distributeInOrder wits stakes = .ok after) : after = db := by
  simp only [distributeInOrder, bind_eq_ok] at returns
  obtain ⟨sum, sums, returns⟩ := returns
  rw [rewardTotalWeight_eq_ok sums, zero, if_neg (by simp)] at returns
  cases returns
  rfl

/-- The code visits the elected witnesses and the stakes in their own order. -/
theorem distributeStakingRewards_in_order {tally : List Int}
    (returns : db.distributeStakingRewards tally = .ok after) :
    db.distributeInOrder (db.electedWitnesses tally) db.stakings =
      .ok after := by
  simp only [distributeStakingRewards, bind_eq_ok] at returns
  obtain ⟨sum, sums, returns⟩ := returns
  simp only [distributeInOrder, bind_eq_ok]
  refine ⟨sum, sums, ?_⟩
  split at returns
  · next nonzero =>
      obtain ⟨paid, pays, visits⟩ := bind_eq_ok.mp returns
      have sameVotes := payTrustNodes_sameVotes pays
      rw [sameVotes.stakings] at visits
      rw [if_pos nonzero]
      exact bind_eq_ok.mpr ⟨paid, pays, visits⟩
  · next zero =>
      rw [if_neg zero]
      exact returns

end Outcome

/-- Whatever else happens on the chain: the reward pool grows with the blocks
and stays a `share_type`, nothing else writes to the vote reward pools, and a
commission rate is at most the whole. -/
structure RewardFrame (db after : Database) : Prop where
  nextStakingId : after.nextStakingId = db.nextStakingId
  pool_grows : db.rewardPool ≤ after.rewardPool
  pool_lt : after.rewardPool < 2 ^ 63
  votePools : ∀ id, after.votePool id = db.votePool id
  rates : ∀ id, after.commissionRateOf id ≤ 1000

/-- The states that runs reach by steps of the kind allowed. -/
inductive RewardRun (allowed : Database → StakingEvent → Prop)
    (start : Database) : Database → Prop
  | start : RewardRun allowed start start
  | step {db after : Database} {event : StakingEvent}
      (earlier : RewardRun allowed start db)
      (taken : StakingStep event db after)
      (frame : event = .elsewhere → RewardFrame db after)
      (isAllowed : allowed db event) :
      RewardRun allowed start after

structure NoRewards (db : Database) : Prop extends NoStakes db where
  pool : db.rewardPool = 0
  votePools : ∀ id, db.votePool id = 0
  rates : ∀ id, db.commissionRateOf id ≤ 1000

section Runs

variable {start db after : Database} {required : Option Int}

theorem NoRewards.state (noRewards : NoRewards db) : RewardState db where
  ids := by
    rw [FreshIds, noRewards.stakings]
    exact ⟨List.nodup_nil, fun _ member => absurd member List.not_mem_nil⟩
  pool_nonneg := Int.le_of_eq noRewards.pool.symm
  pool_lt := by
    rw [noRewards.pool]
    decide
  votePools id := Int.le_of_eq (noRewards.votePools id).symm
  rates := noRewards.rates

theorem SameStakes.ids (same : SameStakes db after) :
    after.stakings.map (·.id) = db.stakings.map (·.id) := by
  have shown := congrArg (List.map Staking.id) same.stakings
  rw [List.map_map, List.map_map] at shown
  exact shown

theorem FreshIds.of_same (fresh : FreshIds db)
    (ids : after.stakings.map (·.id) = db.stakings.map (·.id))
    (nextStakingId : after.nextStakingId = db.nextStakingId) :
    FreshIds after := by
  unfold FreshIds
  rw [ids, nextStakingId]
  exact fresh

theorem FreshIds.create {o : StakingCreateOperation} (fresh : FreshIds db)
    (returns : (stakingCreateEvaluator required o).run db = .ok after) :
    FreshIds after := by
  obtain ⟨stakings, nextStakingId, _⟩ := stakingCreate_opens returns
  rw [FreshIds, stakings, nextStakingId]
  constructor
  · apply nodup_map_concat fresh.1
    intro s member
    exact Nat.ne_of_lt (fresh.2 s.id (List.mem_map_of_mem member))
  · intro id member
    rw [List.map_append, List.mem_append] at member
    rcases member with older | newer
    · exact Nat.lt_succ_of_lt (fresh.2 id older)
    · rw [List.mem_singleton.mp newer]
      exact Nat.lt_succ_self _

theorem FreshIds.claim {o : StakingClaimOperation} (fresh : FreshIds db)
    (returns : (stakingClaimEvaluator required o).run db = .ok after) :
    FreshIds after := by
  obtain ⟨s, _, _, stakings, nextStakingId, _⟩ := stakingClaim_closes returns
  rw [FreshIds, stakings, nextStakingId]
  refine ⟨nodup_map_eraseP fresh.1 _, ?_⟩
  intro id member
  exact fresh.2 id ((List.eraseP_sublist.map _).subset member)

theorem RewardState.of_terms (state : RewardState db) (ids : FreshIds after)
    (terms : SameTerms db after)
    (poolRange : 0 ≤ after.rewardPool ∧ after.rewardPool ≤ db.rewardPool)
    (pools : ∀ id, 0 ≤ after.votePool id) :
    RewardState after where
  ids := ids
  pool_nonneg := poolRange.1
  pool_lt := Int.lt_of_le_of_lt poolRange.2 state.pool_lt
  votePools := pools
  rates id := by
    rw [terms.commissionRateOf]
    exact state.rates id

theorem RewardState.of_paysNothing (state : RewardState db)
    (ids : FreshIds after) (nothing : PaysNothing db after) :
    RewardState after := by
  have samePool : after.rewardPool = db.rewardPool :=
    nothing.rewardPool.trans (Int.add_zero _)
  apply state.of_terms ids nothing.toSameTerms
  · rw [samePool]
    exact ⟨state.pool_nonneg, Int.le_refl _⟩
  · intro id
    rw [nothing.votePool, Int.add_zero]
    exact state.votePools id

theorem Distributed.state {wits : List WitnessId}
    (distributed : Distributed db after wits) (weighed : Weighed db)
    (state : RewardState db) (ids : FreshIds after) : RewardState after := by
  have enough := distributed.pool_enough
  have rewardsNonneg : 0 ≤ total (db.rewardOf wits) wits := by
    apply total_nonneg
    intro id _
    exact Int.ediv_nonneg
      (Int.mul_nonneg state.pool_nonneg (weighed.rewardedWeight_nonneg id))
      (total_nonneg fun other _ => weighed.rewardedWeight_nonneg other)
  apply state.of_terms ids distributed.terms
  · rw [distributed.pool]
    omega
  · intro id
    rw [distributed.votePools]
    exact Int.sub_nonneg_of_le (distributed.votePools_enough id)

theorem distributeStakingRewards_state {tally : List Int}
    (late : db.headBlockTime > HARDFORK_1026_TIME) (weighed : Weighed db)
    (state : RewardState db)
    (returns : db.distributeStakingRewards tally = .ok after) :
    RewardState after := by
  have same := distributeStakingRewards_sameStakes returns
  have inOrder := distributeStakingRewards_in_order returns
  by_cases zero : db.wholeWeight (db.electedWitnesses tally) = 0
  · rw [distributeInOrder_nothing zero inOrder]
    exact state
  · have distributed :=
      distributeInOrder_distributes state weighed late (.refl _) (.refl _)
        zero inOrder
    exact distributed.state weighed state
      (state.ids.of_same same.ids same.nextStakingId)

theorem StakingStep.rewardState {event : StakingEvent}
    (taken : StakingStep event db after)
    (frame : event = .elsewhere → RewardFrame db after)
    (weighed : Weighed db) (state : RewardState db) : RewardState after := by
  cases taken with
  | create required o returns =>
      exact state.of_paysNothing (state.ids.create returns)
        (stakingCreate_paysNothing returns)
  | update required o returns =>
      obtain ⟨s, _, _, same⟩ := stakingUpdate_moves returns
      exact state.of_paysNothing
        (state.ids.of_same same.ids same.nextStakingId)
        (stakingUpdate_paysNothing returns)
  | claim required o returns =>
      exact state.of_paysNothing (state.ids.claim returns)
        (stakingClaim_paysNothing returns)
  | maintenance tally modeOn returns =>
      exact distributeStakingRewards_state modeOn.1 weighed state returns
  | elsewhere added stakings weights =>
      have frame := frame rfl
      constructor
      · apply state.ids.of_same _ frame.nextStakingId
        rw [stakings]
      · exact Int.le_trans state.pool_nonneg frame.pool_grows
      · exact frame.pool_lt
      · intro id
        rw [frame.votePools]
        exact state.votePools id
      · exact frame.rates

theorem RewardRun.state
    (run : RewardRun (fun db event => event.Regular db) start db)
    (noRewards : NoRewards start) : Weighed db ∧ RewardState db := by
  induction run with
  | start => exact ⟨noRewards.weighed, noRewards.state⟩
  | step _ taken frame regular ih =>
      obtain ⟨weighed, state⟩ := ih
      exact ⟨taken.weighed regular weighed,
        taken.rewardState frame weighed state⟩

/-- In every state that is reached by regular steps, and whatever the order in
which the witnesses and the stakes are visited, the maintenance pays every
witness and every stake the portion that falls to it, and no pool is short. -/
theorem rewards_proportional
    (noRewards : NoRewards start)
    (run : RewardRun (fun db event => event.Regular db) start db)
    (late : db.headBlockTime > HARDFORK_1029_TIME) (tally : List Int)
    (nonzero : db.wholeWeight (db.electedWitnesses tally) ≠ 0) :
    (∀ after, db.distributeStakingRewards tally = .ok after →
      Distributed db after (db.electedWitnesses tally)) ∧
    ∀ wits stakes after,
      wits.Perm (db.electedWitnesses tally) → stakes.Perm db.stakings →
        db.distributeInOrder wits stakes = .ok after →
          Distributed db after (db.electedWitnesses tally) := by
  obtain ⟨weighed, state⟩ := run.state noRewards
  have afterFork : db.headBlockTime > HARDFORK_1026_TIME :=
    UInt32.lt_trans (show HARDFORK_1026_TIME < HARDFORK_1029_TIME by decide)
      late
  constructor
  · intro after returns
    exact distributeInOrder_distributes state weighed afterFork (.refl _)
      (.refl _) nonzero (distributeStakingRewards_in_order returns)
  · intro wits stakes after witsOrder stakesOrder returns
    exact distributeInOrder_distributes state weighed afterFork witsOrder
      stakesOrder nonzero returns

end Runs

section Sample

variable {db after : Database}

theorem RewardFrame.of_lists
    (nextStakingId : after.nextStakingId = db.nextStakingId)
    (pool : db.rewardPool ≤ after.rewardPool ∧ after.rewardPool < 2 ^ 63)
    (votePools :
      after.witnesses.map (·.voteRewardPool) =
        db.witnesses.map (·.voteRewardPool))
    (rates : ∀ wit ∈ after.witnesses, wit.commissionRate.toNat ≤ 1000) :
    RewardFrame db after where
  nextStakingId := nextStakingId
  pool_grows := pool.1
  pool_lt := pool.2
  votePools id := by
    rw [votePool, votePool, ← List.getElem?_map, votePools,
      List.getElem?_map]
  rates id := by
    unfold commissionRateOf
    cases found : after.witnesses[id]? with
    | none => exact Nat.zero_le _
    | some wit => exact rates wit (List.mem_of_getElem? found)

/-- The chain with a pool of a hundred, in which the witness lets its voters
have a part of its rewards. -/
def funded (db : Database) (rate : UInt32) : Database :=
  { db with
    properties := { db.properties with currentStakingRewardPool := 100 }
    witnesses := db.witnesses.map fun wit =>
      { wit with commissionRate := rate } }

theorem oneWitness_noRewards : NoRewards oneWitness where
  stakings := rfl
  weights := by decide
  pool := rfl
  votePools id := by
    rcases id with _ | id
    · rfl
    · rfl
  rates id := by
    rcases id with _ | id
    · decide
    · exact Nat.zero_le _

/-- Both stakes are made, wherever stakes may be made at all. -/
theorem staked_run {allowed : Database → StakingEvent → Prop}
    (creates : ∀ db o, 0 ≤ o.amount.amount → allowed db (.create o)) :
    RewardRun allowed oneWitness staked := by
  have first :
      RewardRun allowed oneWitness
        (orElse oneWitness
          ((stakingCreateEvaluator none
            (sampleStake 10 "7" 7)).run oneWitness)) :=
    .step .start (.create none (sampleStake 10 "7" 7) (by decide))
      (fun isElsewhere => nomatch isElsewhere)
      (creates _ _ (show (0 : Int) ≤ 10 by decide))
  exact .step first (.create none (sampleStake 20 "90" 90) (by decide))
    (fun isElsewhere => nomatch isElsewhere)
    (creates _ _ (show (0 : Int) ≤ 20 by decide))

theorem funded_run :
    RewardRun (fun db event => event.Regular db) oneWitness
      (funded dayEight 400) :=
  .step (staked_run fun _ _ nonneg => nonneg) (.elsewhere 0 rfl (by decide))
    (fun _ => .of_lists rfl (by decide) (by decide) (by decide)) trivial

theorem dayEight_run : RewardRun (fun _ _ => True) oneWitness dayEight :=
  .step (staked_run fun _ _ _ => trivial) (.elsewhere 0 rfl (by decide))
    (fun _ => .of_lists rfl (by decide) (by decide) (by decide)) trivial

theorem rewards_proportional_funded :
    ∃ after,
      (funded dayEight 400).distributeStakingRewards [30] = .ok after ∧
        Distributed (funded dayEight 400) after [0] ∧
        after.rewardPool = 0 ∧ after.votePool 0 = 1 ∧
        after.vestedFor 0 = 60 + 13 + 26 :=
  ⟨_, rfl,
    (rewards_proportional oneWitness_noRewards funded_run (by decide) [30]
      (by decide)).1 _ rfl,
    by decide, by decide, by decide⟩

/-- The staking mode is on again after the claim of the expired stake, and all
of the rewards is for the voters. -/
def miscounted : Database :=
  funded
    { claimed with
      parameters := { claimed.parameters with
        voteParams := { claimed.parameters.voteParams with
          stakingModeOn := true } } } 1000

/-- The stake that is left weighs more than the witness records, so that its
portion of the pool is more than the pool. -/
theorem stake_cut_short :
    RewardRun (fun _ _ => True) oneWitness miscounted ∧
      miscounted.headBlockTime > HARDFORK_1029_TIME ∧
      ∃ s after,
        miscounted.stakings = [s] ∧
          miscounted.distributeStakingRewards [10] = .ok after ∧
          miscounted.stakeRewardOf [0] s = 200 ∧
          miscounted.vestedFor s.owner = 0 ∧
          after.vestedFor s.owner = 100 ∧
          ¬Distributed miscounted after (miscounted.electedWitnesses [10]) := by
  have expired : RewardRun (fun _ _ => True) oneWitness maintained :=
    .step dayEight_run (.maintenance dayEight.voteTally (by decide) (by decide))
      (fun isElsewhere => nomatch isElsewhere) trivial
  have off : RewardRun (fun _ _ => True) oneWitness modeOff :=
    .step expired (.elsewhere 0 rfl (by decide))
      (fun _ => .of_lists rfl (by decide) (by decide) (by decide)) trivial
  have again : RewardRun (fun _ _ => True) oneWitness claimed :=
    .step off (.claim none ⟨⟨0, 1⟩, 0, 0⟩ (by decide))
      (fun isElsewhere => nomatch isElsewhere) trivial
  refine ⟨.step again (.elsewhere 0 rfl (by decide))
      (fun _ => .of_lists rfl (by decide) (by decide) (by decide)) trivial,
    by decide, _, _, rfl, rfl, by decide, by decide, by decide, ?_⟩
  intro distributed
  have short := distributed.votePools_enough 0
  exact absurd short (by decide)

end Sample

end GxbCore.Ledger
