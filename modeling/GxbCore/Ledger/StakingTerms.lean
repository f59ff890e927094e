import GxbCore.Lib.Deposits
import GxbCore.Ledger.VoteWeights

/-!
# The term of a stake

`staking_claim` gives a stake back when its days are over.  A stake is made at
the head block time, so the seconds since then do not wrap, but the days in
seconds do: a stake for fifty thousand days is over after three weeks.

An update of a stake and the maintenance change its trust node and its validity,
and nothing else of it.
-/

namespace GxbCore.Ledger

open Database Deposits

/-- The part of a stake that no update and no maintenance changes. -/
def Staking.bare (s : Staking) : Staking :=
  { s with trustNode := 0, isValid := true }

/-- The call leaves the stakes alone, but for trust nodes and validity. -/
structure SameStakes (db after : Database) : Prop where
  stakings : after.stakings.map Staking.bare = db.stakings.map Staking.bare
  nextStakingId : after.nextStakingId = db.nextStakingId
  headBlockTime : after.headBlockTime = db.headBlockTime

section Maintenance

variable {db middle after : Database}

theorem SameStakes.refl (db : Database) : SameStakes db db :=
  ⟨rfl, rfl, rfl⟩

theorem SameStakes.trans (first : SameStakes db middle)
    (later : SameStakes middle after) : SameStakes db after :=
  ⟨later.stakings.trans first.stakings,
    later.nextStakingId.trans first.nextStakingId,
    later.headBlockTime.trans first.headBlockTime⟩

theorem depositLazyVesting_sameStakes
    {ovbid newVbid : Option VestingBalanceId} {amount : Int}
    {seconds : UInt32} {owner : AccountId} {requireVesting : Bool}
    (returns :
      db.depositLazyVesting ovbid amount seconds owner requireVesting =
        .ok (newVbid, after)) : SameStakes db after := by
  rw [depositLazyVesting_frame returns]
  exact ⟨rfl, rfl, rfl⟩

variable {wit : WitnessId}

theorem depositWitnessPay_sameStakes {amount : Int}
    (returns : db.depositWitnessPay wit amount = .ok after) :
    SameStakes db after := by
  rcases depositWitnessPay_cases returns with
    ⟨_, same⟩ | ⟨witness, newVbid, middle, payVb, _, deposits, ends⟩
  · rw [same]
    exact .refl db
  · have deposited := depositLazyVesting_sameStakes deposits
    rcases ends with same | same
    · rw [same]
      exact deposited
    · rw [same]
      exact deposited.trans ⟨rfl, rfl, rfl⟩

theorem stakingCashback_sameStakes {acct : AccountId} {amount : Int}
    (returns : db.stakingCashback acct amount = .ok after) :
    SameStakes db after := by
  rcases stakingCashback_cases returns with
    ⟨_, same⟩ | ⟨account, ovbid, newVbid, middle, _, deposits, points⟩
  · rw [same]
    exact .refl db
  · have deposited := depositLazyVesting_sameStakes deposits
    rcases points with same | ⟨updated, same, _, _⟩
    · rw [same]
      exact deposited
    · rw [same]
      exact deposited.trans ⟨rfl, rfl, rfl⟩

theorem reduceVoteWeights_sameStakes {s : Staking}
    (returns : db.reduceVoteWeights wit s = .ok after) :
    SameStakes db after := by
  obtain ⟨witness, _, rfl⟩ := reduceVoteWeights_eq_ok returns
  exact ⟨rfl, rfl, rfl⟩

theorem setStaking_sameStakes {s fresh : Staking}
    (found : db.findStaking fresh.id = some s) (same : fresh.bare = s.bare) :
    SameStakes db (db.setStaking fresh) :=
  ⟨map_replaceFirst found same, rfl, rfl⟩

theorem payTrustNode_sameStakes {pools totalWeight : Int} {id : WitnessId}
    (returns : payTrustNode pools totalWeight db id = .ok after) :
    SameStakes db after := by
  simp only [payTrustNode, bind_eq_ok] at returns
  obtain ⟨wit, _, returns⟩ := returns
  split at returns
  · simp only [bind_eq_ok] at returns
    obtain ⟨_, _, _, _, _, _, _, _, _, _, deposits⟩ := returns
    have deposited := depositWitnessPay_sameStakes deposits
    exact ⟨deposited.stakings, deposited.nextStakingId,
      deposited.headBlockTime⟩
  · cases returns
    exact .refl db

theorem payVoter_sameStakes {backup : List Witness} {s : Staking}
    (returns : payVoter backup s db = .ok after) : SameStakes db after := by
  simp only [payVoter, bind_eq_ok] at returns
  obtain ⟨wit, _, pay, _, returns⟩ := returns
  split at returns
  · simp only [bind_eq_ok] at returns
    obtain ⟨paid, pays, _, _, _, _, returns⟩ := returns
    cases returns
    exact (stakingCashback_sameStakes pays).trans ⟨rfl, rfl, rfl⟩
  · cases returns
    exact .refl db

theorem handlingExpiredStaking_sameStakes {s : Staking}
    (found : (db.findStaking s.id).map Staking.bare = some s.bare)
    (returns : db.handlingExpiredStaking s wit = .ok after) :
    SameStakes db after := by
  obtain ⟨stored, isStored, same⟩ := Option.map_eq_some_iff.mp found
  unfold handlingExpiredStaking at returns
  split at returns
  · have flagged :
        SameStakes db (db.setStaking { s with isValid := false }) :=
      setStaking_sameStakes isStored same.symm
    exact flagged.trans (reduceVoteWeights_sameStakes returns)
  · cases returns
    exact .refl db

/-- What is found under an id, up to trust node and validity. -/
theorem SameStakes.findStaking (same : SameStakes db after) (id : Nat) :
    (after.findStaking id).map Staking.bare =
      (db.findStaking id).map Staking.bare := by
  have shown :
      ∀ stakings : List Staking,
        (stakings.find? (·.id == id)).map Staking.bare =
          (stakings.map Staking.bare).find? (·.id == id) := by
    intro stakings
    rw [List.find?_map]
    rfl
  rw [Database.findStaking, Database.findStaking, shown, shown,
    same.stakings]

theorem visitStaking_sameStakes {backup : List Witness} {id : Nat}
    (returns : visitStaking backup db id = .ok after) :
    SameStakes db after := by
  unfold visitStaking at returns
  split at returns
  · cases returns
    exact .refl db
  · next s found =>
      have isFound : (db.findStaking s.id).map Staking.bare = some s.bare := by
        rw [id_of_findStaking found, found]
        rfl
      split at returns
      · unfold visitValidStaking at returns
        split_ifs at returns
        · obtain ⟨paid, pays, handles⟩ := bind_eq_ok.mp returns
          have same := payVoter_sameStakes pays
          refine same.trans (handlingExpiredStaking_sameStakes ?_ handles)
          rw [same.findStaking]
          exact isFound
        · exact handlingExpiredStaking_sameStakes isFound returns
        · cases returns
          exact .refl db
      · cases returns
        exact .refl db

theorem distributeStakingRewards_sameStakes {tally : List Int}
    (returns : db.distributeStakingRewards tally = .ok after) :
    SameStakes db after := by
  simp only [distributeStakingRewards, bind_eq_ok] at returns
  obtain ⟨totalWeight, _, returns⟩ := returns
  split at returns
  · obtain ⟨paid, pays, visits⟩ := bind_eq_ok.mp returns
    have samePaid : SameStakes db paid :=
      foldlM_keeps
        (fun id _ before later kept pay =>
          kept.trans (payTrustNode_sameStakes pay))
        (SameStakes.refl db) pays
    exact foldlM_keeps
      (fun id _ before later kept visit =>
        kept.trans (visitStaking_sameStakes visit))
      samePaid visits
  · cases returns
    exact .refl db

end Maintenance

section Operations

variable {db after : Database} {required : Option Int}

/-- The object that `staking_create_evaluator::do_apply` creates. -/
def StakingCreateOperation.staking (o : StakingCreateOperation) (id : Nat)
    (time : Time) : Staking where
  id := id
  owner := o.owner
  createDateTime := time
  stakingDays := o.stakingDays
  weight := o.weight
  programId := o.programId
  amount := o.amount
  trustNode := o.trustNode
  isValid := true

theorem stakingCreate_opens {o : StakingCreateOperation}
    (returns : (stakingCreateEvaluator required o).run db = .ok after) :
    after.stakings =
        db.stakings ++ [o.staking db.nextStakingId db.headBlockTime] ∧
      after.nextStakingId = db.nextStakingId + 1 ∧
      after.headBlockTime = db.headBlockTime := by
  obtain ⟨_, assets, accounts, applied, _, applies, charges⟩ :=
    run_applies (fun _ _ => rfl) returns
  simp only [stakingCreateEvaluator, bind_eq_ok] at applies
  obtain ⟨taken, takes, weights, _, adds⟩ := applies
  obtain ⟨witness, _, rfl⟩ := addVoteWeights_eq_ok adds
  have charged := adjustBalance_frame charges
  have frame := adjustBalance_frame takes
  refine ⟨?_, ?_, ?_⟩
  · rw [charged]
    change taken.stakings = _
    rw [frame]
    rfl
  · rw [charged]
    change taken.nextStakingId = _
    rw [frame]
  · rw [charged]
    change taken.headBlockTime = _
    rw [frame]
    rfl

/-- An update moves the stake to another trust node, and changes nothing else
of it. -/
theorem stakingUpdate_moves {o : StakingUpdateOperation}
    (returns : (stakingUpdateEvaluator required o).run db = .ok after) :
    ∃ s, db.findStaking o.stakingId = some s ∧
      after.findStaking o.stakingId =
        some { s with trustNode := o.trustNode } ∧
      SameStakes db after := by
  obtain ⟨_, assets, accounts, applied, _, applies, charges⟩ :=
    run_applies (fun _ _ => rfl) returns
  simp only [stakingUpdateEvaluator, bind_eq_ok, orThrow_eq_ok] at applies
  obtain ⟨s, found, _, _, _, _, _, _, adds⟩ := applies
  obtain ⟨witness, _, rfl⟩ := addVoteWeights_eq_ok adds
  have charged := adjustBalance_frame charges
  have isStaking := id_of_findStaking found
  have again : db.findStaking s.id = some s := isStaking.symm ▸ found
  have written :
      SameStakes db (db.setStaking { s with trustNode := o.trustNode }) :=
    setStaking_sameStakes again rfl
  refine ⟨s, found, ?_, ?_⟩
  · rw [charged, ← isStaking]
    exact find_replaceFirst again (by simp)
  · rw [charged]
    exact ⟨written.stakings, written.nextStakingId, written.headBlockTime⟩

theorem stakingClaim_closes {o : StakingClaimOperation}
    (returns : (stakingClaimEvaluator required o).run db = .ok after) :
    ∃ s, db.findStaking o.stakingId = some s ∧
      s.hasEnded db.headBlockTime = true ∧
      after.stakings = db.stakings.eraseP (·.id == o.stakingId) ∧
      after.nextStakingId = db.nextStakingId ∧
      after.headBlockTime = db.headBlockTime ∧
      (after.getBalance s.owner s.amount.assetId).amount =
        (db.getBalance s.owner s.amount.assetId).amount + s.amount.amount
          - if s.owner = o.owner ∧ s.amount.assetId = o.fee.assetId then
              o.fee.amount
            else 0 := by
  obtain ⟨_, assets, accounts, applied, evaluated, applies, charges⟩ :=
    run_applies (fun _ _ => rfl) returns
  simp only [stakingClaimEvaluator, bind_eq_ok, fcAssert_eq_ok,
    orThrow_eq_ok] at evaluated applies
  obtain ⟨s, found, _, _, _, ended, _⟩ := evaluated
  obtain ⟨again, foundAgain, reduced, reduces, middle, pays, removes⟩ :=
    applies
  obtain rfl : s = again := by
    have same := found.symm.trans foundAgain
    exact Option.some.inj same
  cases removes
  obtain ⟨witnesses, rfl⟩ :
      ∃ witnesses, reduced =
        { db with
          assets := assets, accounts := accounts,
          witnesses := witnesses } := by
    unfold claimVoteWeights at reduces
    split at reduces
    · obtain ⟨witness, _, same⟩ := reduceVoteWeights_eq_ok reduces
      exact ⟨_, same⟩
    · cases reduces
      exact ⟨db.witnesses, rfl⟩
  have paid := adjustBalance_frame pays
  have charged := adjustBalance_frame charges
  refine ⟨s, found, ended, ?_, ?_, ?_, ?_⟩
  · rw [charged, paid]
  · rw [charged, paid]
  · rw [charged, paid]
    rfl
  · have fee := adjustBalance_getBalance charges s.owner s.amount.assetId
    have amount := adjustBalance_getBalance pays s.owner s.amount.assetId
    rw [if_pos ⟨rfl, rfl⟩] at amount
    change (middle.getBalance _ _).amount =
      (db.getBalance _ _).amount + s.amount.amount at amount
    change (after.getBalance _ _).amount = (middle.getBalance _ _).amount +
      (if s.owner = o.owner ∧ s.amount.assetId = o.fee.assetId
        then -o.fee.amount else 0) at fee
    rw [fee, amount]
    split
    · rfl
    · omega

end Operations

section Runs

/-- The runs of a chain on which nothing was staked, as far as stakes go, with
what happened to them. -/
inductive StakeRun : Database → List (DepositEvent Staking) → Prop
  | start (db : Database) (none : db.stakings = []) : StakeRun db []
  | create {db after : Database} {trace : List (DepositEvent Staking)}
      (run : StakeRun db trace) (required : Option Int)
      (o : StakingCreateOperation)
      (returns : (stakingCreateEvaluator required o).run db = .ok after) :
      StakeRun after
        (.opened (o.staking db.nextStakingId db.headBlockTime).bare
          db.headBlockTime.toNat :: trace)
  | update {db after : Database} {trace : List (DepositEvent Staking)}
      (run : StakeRun db trace) (required : Option Int)
      (o : StakingUpdateOperation)
      (returns : (stakingUpdateEvaluator required o).run db = .ok after) :
      StakeRun after trace
  | claim {db after : Database} {trace : List (DepositEvent Staking)}
      (run : StakeRun db trace) (required : Option Int)
      (o : StakingClaimOperation) (s : Staking)
      (found : db.findStaking o.stakingId = some s)
      (returns : (stakingClaimEvaluator required o).run db = .ok after) :
      StakeRun after (.closed s.bare db.headBlockTime.toNat :: trace)
  | maintenance {db after : Database} {trace : List (DepositEvent Staking)}
      (run : StakeRun db trace) (tally : List Int)
      (returns : db.distributeStakingRewards tally = .ok after) :
      StakeRun after trace
  | elsewhere {db after : Database} {trace : List (DepositEvent Staking)}
      (run : StakeRun db trace) (stakings : after.stakings = db.stakings)
      (nextStakingId : after.nextStakingId = db.nextStakingId)
      (passes : db.headBlockTime ≤ after.headBlockTime) :
      StakeRun after trace

def Staking.madeAt (s : Staking) (time : Nat) : Prop :=
  s.createDateTime.toNat = time

/-- The stake is over, as the evaluator counts. -/
def Staking.endedAt (s : Staking) (time : Nat) : Prop :=
  time < 2 ^ 32 ∧ s.hasEnded (UInt32.ofNat time) = true

variable {db : Database} {trace : List (DepositEvent Staking)}

theorem StakeRun.deposits (run : StakeRun db trace) :
    Deposits.Run Staking.id Staking.madeAt Staking.endedAt
      db.headBlockTime.toNat db.nextStakingId
      (db.stakings.map Staking.bare) trace := by
  induction run with
  | start db none =>
      rw [none]
      exact .start _ _
  | create _ required o returns ih =>
      obtain ⟨stakings, next, time⟩ := stakingCreate_opens returns
      rw [stakings, next, time, List.map_append]
      exact ih.opens _ rfl rfl
  | update _ required o returns ih =>
      obtain ⟨_, _, _, same⟩ := stakingUpdate_moves returns
      rw [same.stakings, same.nextStakingId, same.headBlockTime]
      exact ih
  | claim _ required o s found returns ih =>
      obtain ⟨again, foundAgain, ended, stakings, next, time, _⟩ :=
        stakingClaim_closes returns
      obtain rfl : s = again := by
        rw [found, Option.some.injEq] at foundAgain
        exact foundAgain
      rw [stakings, next, time]
      change Run _ _ _ _ _
        (List.map Staking.bare
          (List.eraseP ((·.id == o.stakingId) ∘ Staking.bare) _)) _
      rw [← List.eraseP_map]
      refine ih.closes ?_ ⟨UInt32.toNat_lt _, ?_⟩
      · rw [List.find?_map]
        exact congrArg (Option.map Staking.bare) found
      · rw [UInt32.ofNat_toNat]
        exact ended
  | maintenance _ tally returns ih =>
      have same := distributeStakingRewards_sameStakes returns
      rw [same.stakings, same.nextStakingId, same.headBlockTime]
      exact ih
  | elsewhere _ stakings next passes ih =>
      rw [stakings, next]
      exact ih.wait (UInt32.le_iff_toNat_le.mp passes)

end Runs

section Term

def Staking.lasted (s : Staking) (since time : Nat) : Prop :=
  since + s.stakingDays.toNat * 86400 ≤ time

instance Staking.decidableLasted (s : Staking) (since time : Nat) :
    Decidable (s.lasted since time) :=
  inferInstanceAs (Decidable (_ ≤ time))

/-- The days of the stake, in seconds, fit into 32 bits. -/
def Staking.countable (s : Staking) : Prop :=
  s.stakingDays.toNat * 86400 < 2 ^ 32

instance (s : Staking) : Decidable s.countable :=
  inferInstanceAs (Decidable (_ < _))

variable {s : Staking} {since time : Nat}

/-- A stake that is over has lasted its days exactly if these are countable. -/
theorem lasted_iff_countable (made : s.madeAt since)
    (ended : s.endedAt time) (before : since ≤ time) :
    s.lasted since time ↔ s.countable := by
  obtain ⟨small, ended⟩ := ended
  have less := UInt32.lt_iff_toNat_lt.mp (of_decide_eq_true ended)
  rw [UInt32.toNat_mul, UInt32.toNat_sub_of_le,
    UInt32.toNat_ofNat_of_lt' small] at less
  · change s.stakingDays.toNat * 86400 % 2 ^ 32
      < time - s.createDateTime.toNat at less
    unfold Staking.madeAt at made
    unfold Staking.lasted Staking.countable
    constructor
    · intro lasted
      omega
    · intro countable
      rw [Nat.mod_eq_of_lt countable] at less
      omega
  · rw [UInt32.le_iff_toNat_le, UInt32.toNat_ofNat_of_lt' small, made]
    exact before

variable {db : Database} {trace : List (DepositEvent Staking)}

/-- In every run a stake that was claimed had lasted its days exactly if these,
in seconds, fit into 32 bits; a stake is stored and was never claimed, or it was
claimed once and is gone; a claim pays the amount to the owner; and an update
changes the trust node only. -/
theorem staking_term (run : StakeRun db trace) :
    (∀ s time, .closed s time ∈ trace →
      ∃ since, .opened s since ∈ trace ∧
        (s.lasted since time ↔ s.countable)) ∧
    (∀ s since, .opened s since ∈ trace →
      (s ∈ db.stakings.map Staking.bare ∧
          timesClosed Staking.id trace s.id = 0) ∨
        ((∀ other ∈ db.stakings, other.id ≠ s.id) ∧
          timesClosed Staking.id trace s.id = 1)) ∧
    (∀ required o after,
      (stakingClaimEvaluator required o).run db = .ok after →
        ∃ s ∈ db.stakings, s.id = o.stakingId ∧
          (after.getBalance s.owner s.amount.assetId).amount =
            (db.getBalance s.owner s.amount.assetId).amount
              + s.amount.amount
              - if s.owner = o.owner ∧ s.amount.assetId = o.fee.assetId then
                  o.fee.amount
                else 0) ∧
    ∀ required o after,
      (stakingUpdateEvaluator required o).run db = .ok after →
        ∃ s, db.findStaking o.stakingId = some s ∧
          after.findStaking o.stakingId =
            some { s with trustNode := o.trustNode } := by
  have accounted := run.deposits.accounted
  refine ⟨?_, ?_, ?_, ?_⟩
  · intro s time closed
    obtain ⟨since, opened, before, made, ended⟩ := accounted.term closed
    exact ⟨since, opened, lasted_iff_countable made ended before⟩
  · intro s since opened
    rcases accounted.once opened with stays | ⟨gone, once⟩
    · exact .inl stays
    · refine .inr ⟨?_, once⟩
      intro other member
      exact gone other.bare (List.mem_map_of_mem member)
  · intro required o after returns
    obtain ⟨s, found, _, _, _, _, paid⟩ := stakingClaim_closes returns
    exact ⟨s, mem_of_findStaking found, id_of_findStaking found, paid⟩
  · intro required o after returns
    obtain ⟨s, found, moved, _⟩ := stakingUpdate_moves returns
    exact ⟨s, found, moved⟩

end Term

section Sample

/-- A chain with a program for the given number of days, on which the staking
mode is off. -/
def stakeChain (days : UInt32) (time : Time) : Database :=
  { oneWitness with
    parameters := { oneWitness.parameters with
      voteParams := { oneWitness.parameters.voteParams with
        stakingModeOn := false }
      stakingParams := [("long", ⟨days, 1, true⟩)] }
    properties := { oneWitness.properties with time := time } }

def longStaking (days : UInt32) : Staking :=
  (sampleStake 10 "long" days).staking 0 1610000000

def stakedChain (days : UInt32) (time : Time) : Database :=
  { stakeChain days time with
    balances := [⟨0, 1, 90⟩]
    stakings := [longStaking days]
    nextStakingId := 1
    witnesses := oneWitness.witnesses.map fun wit =>
      { wit with totalVoteWeights := 10 } }

/-- The stake has been given back. -/
def claimedChain (days : UInt32) (time : Time) : Database :=
  { stakeChain days time with nextStakingId := 1 }

theorem claimedChain_run (days : UInt32) (time : Time)
    (passes : 1610000000 ≤ time)
    (stakes :
      (stakingCreateEvaluator none (sampleStake 10 "long" days)).run
          (stakeChain days 1610000000) =
        .ok (stakedChain days 1610000000))
    (claims :
      (stakingClaimEvaluator none ⟨⟨0, 1⟩, 0, 0⟩).run
          (stakedChain days time) =
        .ok (claimedChain days time)) :
    StakeRun (claimedChain days time)
      [.closed (longStaking days).bare time.toNat,
        .opened (longStaking days).bare 1610000000] := by
  have staked :
      StakeRun (stakedChain days 1610000000)
        [.opened (longStaking days).bare 1610000000] :=
    .create (.start (stakeChain days 1610000000) rfl) none
      (sampleStake 10 "long" days) stakes
  have later :
      StakeRun (stakedChain days time)
        [.opened (longStaking days).bare 1610000000] :=
    .elsewhere staked rfl rfl passes
  exact .claim later none ⟨⟨0, 1⟩, 0, 0⟩ (longStaking days) rfl claims

/-- A stake for a week is claimed after a week. -/
theorem staking_term_week :
    ∃ since, (longStaking 7).bare.lasted since 1610604801 := by
  obtain ⟨since, _, lasts⟩ :=
    (staking_term
      (claimedChain_run 7 1610604801 (by decide) (by decide)
        (by decide))).1 _ _ List.mem_cons_self
  exact ⟨since, lasts.mpr (by decide)⟩

/-- A stake for 49711 days is claimed after less than a day. -/
theorem staking_claimed_early :
    ¬ ∀ db trace, StakeRun db trace →
        ∀ s time, .closed s time ∈ trace →
          ∃ since, .opened s since ∈ trace ∧ s.lasted since time := by
  intro claimed
  obtain ⟨since, opened, lasted⟩ :=
    claimed _ _
      (claimedChain_run 49711 1610063105 (by decide) (by decide)
        (by decide)) _ _ List.mem_cons_self
  simp only [List.mem_cons, reduceCtorEq, DepositEvent.opened.injEq,
    List.not_mem_nil, or_false, false_or] at opened
  rw [opened.2] at lasted
  exact absurd lasted (by decide)

end Sample

end GxbCore.Ledger
