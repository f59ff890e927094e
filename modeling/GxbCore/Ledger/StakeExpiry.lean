import GxbCore.Ledger.RewardOrder

/-!
# The expiry of stakes in the maintenance

While the staking mode is on, a stake can be claimed only once the maintenance
has marked it invalid.  The marking stands inside the distribution of the
rewards, which is skipped when the witnesses that take part have no votes: then
no stake is marked, whatever its own witness is.
-/

namespace GxbCore.Ledger

open Database

/-- The stake is marked, so that the evaluator of `staking_claim` accepts the
claim of its owner. -/
def Claimable (db : Database) (s : Staking) : Prop :=
  s.isValid = false ∧
    ∀ required fee,
      (stakingClaimEvaluator required ⟨fee, s.owner, s.id⟩).doEvaluate db =
        .ok ()

/-- The ids of the stakes are different, and their trust nodes exist. -/
structure StakesPlaced (db : Database) : Prop where
  ids : FreshIds db
  trustNodes : ∀ s ∈ db.stakings, db.witnesses[s.trustNode]?.isSome = true

section Maintenance

variable {db after : Database} {tally : List Int} {s : Staking}

theorem expire_trustNode (s : Staking) :
    (db.expire s).trustNode = s.trustNode := by
  unfold expire
  split
  · rfl
  · rfl

/-- When there are votes to be rewarded, the expiry of every stake is looked
at. -/
theorem distributeStakingRewards_expires (placed : StakesPlaced db)
    (late : db.headBlockTime > HARDFORK_1026_TIME)
    (nonzero : db.wholeWeight (db.electedWitnesses tally) ≠ 0)
    (returns : db.distributeStakingRewards tally = .ok after) :
    SameTerms db after ∧ after.stakings = db.stakings.map db.expire := by
  have inOrder := distributeStakingRewards_in_order returns
  simp only [distributeInOrder, bind_eq_ok] at inOrder
  obtain ⟨sum, sums, inOrder⟩ := inOrder
  rw [rewardTotalWeight_eq_ok sums, if_pos nonzero] at inOrder
  obtain ⟨paid, pays, visits⟩ := bind_eq_ok.mp inOrder
  have sameVotes := payTrustNodes_sameVotes pays
  have terms := payTrustNodes_sameTerms pays
  have expires :=
    visitStakings_expires (terms.headBlockTime ▸ late)
      (sameVotes.stakings ▸ placed.ids.1)
      (fun s member => sameVotes.stakings ▸ member) placed.ids.1 visits
  refine ⟨terms.trans expires.toSameTerms, ?_⟩
  rw [expires.stakings, sameVotes.stakings]
  apply List.map_congr_left
  intro s member
  rw [if_pos (List.mem_map_of_mem member), terms.expire]

theorem distributeStakingRewards_nothing
    (zero : db.wholeWeight (db.electedWitnesses tally) = 0)
    (returns : db.distributeStakingRewards tally = .ok after) : after = db :=
  distributeInOrder_nothing zero (distributeStakingRewards_in_order returns)

theorem distributeStakingRewards_placed (placed : StakesPlaced db)
    (late : db.headBlockTime > HARDFORK_1026_TIME)
    (returns : db.distributeStakingRewards tally = .ok after) :
    StakesPlaced after := by
  by_cases zero : db.wholeWeight (db.electedWitnesses tally) = 0
  · rw [distributeStakingRewards_nothing zero returns]
    exact placed
  · obtain ⟨terms, stakings⟩ :=
      distributeStakingRewards_expires placed late zero returns
    have same := distributeStakingRewards_sameStakes returns
    refine ⟨placed.ids.of_same same.ids same.nextStakingId, ?_⟩
    rw [stakings]
    intro s member
    obtain ⟨before, isBefore, rfl⟩ := List.mem_map.mp member
    rw [expire_trustNode, terms.isSome]
    exact placed.trustNodes before isBefore

theorem expire_isValid (ended : s.hasEnded db.headBlockTime = true)
    (known : db.witnesses[s.trustNode]?.isSome = true) :
    (db.expire s).isValid = false := by
  unfold expire
  by_cases valid : s.isValid = true
  · rw [if_pos ⟨valid, ended, known⟩]
  · rw [if_neg fun holds => valid holds.1]
    exact Bool.eq_false_of_not_eq_true valid

theorem claimable_of_invalid (ids : (db.stakings.map (·.id)).Nodup)
    (member : s ∈ db.stakings) (ended : s.hasEnded db.headBlockTime = true)
    (invalid : s.isValid = false) : Claimable db s := by
  refine ⟨invalid, ?_⟩
  intro required fee
  simp only [stakingClaimEvaluator, bind_eq_ok, fcAssert_eq_ok,
    orThrow_eq_ok]
  exact ⟨s, findStaking_of_mem ids member, (), fun _ => rfl, (), ended,
    fun _ => invalid⟩

end Maintenance

section Runs

variable {start db after : Database} {required : Option Int}

theorem stakingCreate_placed {o : StakingCreateOperation}
    (placed : StakesPlaced db)
    (returns : (stakingCreateEvaluator required o).run db = .ok after) :
    StakesPlaced after := by
  refine ⟨placed.ids.create returns, ?_⟩
  have terms := (stakingCreate_paysNothing returns).toSameTerms
  obtain ⟨stakings, _, _⟩ := stakingCreate_opens returns
  obtain ⟨_, _, _, _, evaluated, _, _⟩ :=
    run_applies (fun _ _ => rfl) returns
  simp only [stakingCreateEvaluator, checkTrustNode, bind_eq_ok,
    fcAssert_eq_ok, orThrow_eq_ok] at evaluated
  obtain ⟨_, _, _, _, _, _, _, _, _, _, _, _, _, _, _, _, _, _, _, _, wit,
    found, _⟩ := evaluated
  rw [stakings]
  apply forall_concat
  · intro s member
    rw [terms.isSome]
    exact placed.trustNodes s member
  · rw [terms.isSome]
    change (db.witnesses[o.trustNode]?).isSome = true
    rw [found]
    rfl

theorem stakingUpdate_placed {o : StakingUpdateOperation}
    (placed : StakesPlaced db)
    (returns : (stakingUpdateEvaluator required o).run db = .ok after) :
    StakesPlaced after := by
  have terms := (stakingUpdate_paysNothing returns).toSameTerms
  obtain ⟨_, _, _, same⟩ := stakingUpdate_moves returns
  refine ⟨placed.ids.of_same same.ids same.nextStakingId, ?_⟩
  obtain ⟨_, _, _, applied, evaluated, applies, charges⟩ :=
    run_applies (fun _ _ => rfl) returns
  simp only [stakingUpdateEvaluator, checkTrustNode, bind_eq_ok,
    fcAssert_eq_ok, orThrow_eq_ok] at evaluated
  obtain ⟨_, ⟨wit, found, _⟩, _⟩ := evaluated
  simp only [stakingUpdateEvaluator, bind_eq_ok, orThrow_eq_ok] at applies
  obtain ⟨s, _, _, _, _, _, _, _, adds⟩ := applies
  obtain ⟨_, _, rfl⟩ := addVoteWeights_eq_ok adds
  rw [(adjustBalance_sameVotes charges).stakings]
  apply forall_replaceFirst
  · intro other member
    rw [terms.isSome]
    exact placed.trustNodes other member
  · rw [terms.isSome]
    change (db.witnesses[o.trustNode]?).isSome = true
    rw [found]
    rfl

theorem stakingClaim_placed {o : StakingClaimOperation}
    (placed : StakesPlaced db)
    (returns : (stakingClaimEvaluator required o).run db = .ok after) :
    StakesPlaced after := by
  have terms := (stakingClaim_paysNothing returns).toSameTerms
  obtain ⟨_, _, _, stakings, _⟩ := stakingClaim_closes returns
  refine ⟨placed.ids.claim returns, ?_⟩
  rw [stakings]
  apply forall_eraseP
  intro s member
  rw [terms.isSome]
  exact placed.trustNodes s member

theorem StakingStep.placed {event : StakingEvent}
    (taken : StakingStep event db after)
    (frame : event = .elsewhere → RewardFrame db after)
    (placed : StakesPlaced db) : StakesPlaced after := by
  cases taken with
  | create required o returns => exact stakingCreate_placed placed returns
  | update required o returns => exact stakingUpdate_placed placed returns
  | claim required o returns => exact stakingClaim_placed placed returns
  | maintenance tally modeOn returns =>
      exact distributeStakingRewards_placed placed modeOn.1 returns
  | elsewhere added stakings weights =>
      refine ⟨placed.ids.of_same (congrArg _ stakings)
        (frame rfl).nextStakingId, ?_⟩
      rw [stakings]
      intro s member
      have before := placed.trustNodes s member
      have lengths := congrArg List.length weights
      rw [List.length_append, List.length_map, List.length_map] at lengths
      rw [Option.isSome_iff_ne_none, ne_eq, List.getElem?_eq_none_iff]
        at before ⊢
      omega

theorem NoStakes.placed (noStakes : NoStakes db) : StakesPlaced db := by
  constructor
  · rw [FreshIds, noStakes.stakings]
    exact ⟨List.nodup_nil, fun _ member => absurd member List.not_mem_nil⟩
  · rw [noStakes.stakings]
    exact fun _ member => absurd member List.not_mem_nil

theorem RewardRun.placed {allowed : Database → StakingEvent → Prop}
    (run : RewardRun allowed start db) (noStakes : NoStakes start) :
    StakesPlaced db := by
  induction run with
  | start => exact noStakes.placed
  | step _ taken frame _ ih =>
      exact taken.placed frame ih

/-- After a maintenance in a state that a run has reached, every stake whose
term has elapsed can be claimed, just when the witnesses that take part in the
rewards have votes or no elapsed stake was valid. -/
theorem expired_stakes_claimable
    (noStakes : NoStakes start)
    (run : RewardRun (fun _ _ => True) start db)
    (late : db.headBlockTime > HARDFORK_1026_TIME) (tally : List Int)
    (returns : db.distributeStakingRewards tally = .ok after) :
    (∀ s ∈ after.stakings,
      s.hasEnded after.headBlockTime = true → Claimable after s) ↔
      (db.wholeWeight (db.electedWitnesses tally) ≠ 0 ∨
        ∀ s ∈ db.stakings,
          s.hasEnded db.headBlockTime = true → s.isValid = false) := by
  have placed := run.placed noStakes
  have placedAfter := distributeStakingRewards_placed placed late returns
  by_cases zero : db.wholeWeight (db.electedWitnesses tally) = 0
  · have same := distributeStakingRewards_nothing zero returns
    subst same
    constructor
    · intro claimable
      exact .inr fun s member ended => (claimable s member ended).1
    · rintro (nonzero | invalid)
      · exact absurd zero nonzero
      · intro s member ended
        exact claimable_of_invalid placed.ids.1 member ended
          (invalid s member ended)
  · refine ⟨fun _ => .inl zero, fun _ => ?_⟩
    obtain ⟨terms, stakings⟩ :=
      distributeStakingRewards_expires placed late zero returns
    intro s member ended
    apply claimable_of_invalid placedAfter.ids.1 member ended
    rw [stakings] at member
    obtain ⟨before, isBefore, rfl⟩ := List.mem_map.mp member
    apply expire_isValid
    · rw [terms.headBlockTime] at ended
      unfold expire at ended
      split at ended
      · exact ended
      · exact ended
    · exact placed.trustNodes before isBefore

end Runs

section Sample

/-- Two stakes for the one witness, which has been banned since: after eight
days the shorter one is over. -/
def bannedWitness : Database :=
  { dayEight with
    witnesses := dayEight.witnesses.map fun wit =>
      { wit with isBanned := true } }

theorem expired_stakes_claimable_dayEight :
    ∃ s ∈ maintained.stakings,
      s.hasEnded maintained.headBlockTime = true ∧ Claimable maintained s := by
  have claimable :=
    (expired_stakes_claimable ⟨rfl, by decide⟩ dayEight_run (by decide)
      dayEight.voteTally (show _ = Except.ok maintained by decide)).mpr
      (.inl (by decide))
  have member :
      (⟨0, 0, 1610000000, 7, 1, "7", ⟨10, 1⟩, 0, false⟩ : Staking) ∈
        maintained.stakings := by
    decide
  exact ⟨_, member, by decide, claimable _ member (by decide)⟩

/-- The elapsed stake stays valid, and the claim of its owner is refused. -/
theorem elapsed_stake_not_claimable :
    NoStakes oneWitness ∧
      RewardRun (fun _ _ => True) oneWitness bannedWitness ∧
      bannedWitness.headBlockTime > HARDFORK_1026_TIME ∧
      bannedWitness.parameters.voteParams.stakingModeOn = true ∧
      ∃ after s,
        bannedWitness.distributeStakingRewards bannedWitness.voteTally =
            .ok after ∧
          s ∈ after.stakings ∧ s.hasEnded after.headBlockTime = true ∧
          s.isValid = true ∧
          (stakingClaimEvaluator none ⟨⟨0, 1⟩, s.owner, s.id⟩).run after =
            .error (.assertion "please wait for the dividend to end") := by
  refine ⟨⟨rfl, by decide⟩,
    .step dayEight_run (.elsewhere 0 rfl (by decide))
      (fun _ => .of_lists rfl (by decide) (by decide) (by decide)) trivial,
    by decide, by decide, bannedWitness,
    ⟨0, 0, 1610000000, 7, 1, "7", ⟨10, 1⟩, 0, true⟩, by decide, by decide,
    by decide, rfl, by decide⟩

end Sample

end GxbCore.Ledger
