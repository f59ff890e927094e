import GxbCore.Ledger.RewardAmounts

/-!
# The two reward loops

The loop over the witnesses pays each of them its portion of the reward pool,
and the loop over the stakes pays each of them its portion of the vote reward
pool of its witness.  Neither loop ever comes to the end of a
pool, so that the limits which the code puts on a payment do not bite, and what
the loops pay does not depend on the order of their rounds.
-/

namespace GxbCore.Ledger

open Database

namespace Database

def eligible (db : Database) (id : WitnessId) : Bool :=
  db.witnesses[id]?.any rewards

def accountOf (db : Database) (id : WitnessId) : AccountId :=
  (db.witnesses[id]?.map (·.witnessAccount)).getD 0

def commissionRateOf (db : Database) (id : WitnessId) : Nat :=
  (db.witnesses[id]?.map (·.commissionRate.toNat)).getD 0

def rewardedWeight (db : Database) (id : WitnessId) : Int :=
  if db.eligible id then db.recordedFor id else 0

def rewardFrom (db : Database) (pools whole : Int) (id : WitnessId) : Int :=
  portion pools (db.rewardedWeight id) whole

def votersPart (db : Database) (pools whole : Int) (id : WitnessId) : Int :=
  portion (db.rewardFrom pools whole id) (db.commissionRateOf id) 1000

def ownPart (db : Database) (pools whole : Int) (id : WitnessId) : Int :=
  db.rewardFrom pools whole id - db.votersPart pools whole id

/-- The portion of its witness's vote reward pool that falls to a stake. -/
def stakeReward (db : Database) (s : Staking) : Int :=
  if s.isValid = true ∧ db.eligible s.trustNode = true then
    portion (db.votePool s.trustNode) s.voteWeights
      (db.recordedFor s.trustNode)
  else
    0

def expire (db : Database) (s : Staking) : Staking :=
  if s.isValid = true ∧ s.hasEnded db.headBlockTime = true ∧
      (db.witnesses[s.trustNode]?.isSome = true) then
    { s with isValid := false }
  else
    s

end Database

section Terms

variable {db after : Database}

theorem SameTerms.reads (terms : SameTerms db after) (id : WitnessId) :
    after.witnesses[id]?.map Witness.terms =
      db.witnesses[id]?.map Witness.terms := by
  rw [← List.getElem?_map, terms.terms, List.getElem?_map]

theorem SameTerms.eligible (terms : SameTerms db after) (id : WitnessId) :
    after.eligible id = db.eligible id := by
  have reads := congrArg (Option.any rewards) (terms.reads id)
  rw [Option.any_map, Option.any_map] at reads
  exact reads

theorem SameTerms.accountOf (terms : SameTerms db after) (id : WitnessId) :
    after.accountOf id = db.accountOf id := by
  have reads :=
    congrArg (Option.map Witness.witnessAccount) (terms.reads id)
  rw [Option.map_map, Option.map_map] at reads
  exact congrArg (Option.getD · 0) reads

theorem SameTerms.commissionRateOf
    (terms : SameTerms db after) (id : WitnessId) :
    after.commissionRateOf id = db.commissionRateOf id := by
  have reads :=
    congrArg (Option.map fun wit : Witness => wit.commissionRate.toNat)
      (terms.reads id)
  rw [Option.map_map, Option.map_map] at reads
  exact congrArg (Option.getD · 0) reads

theorem SameTerms.isSome (terms : SameTerms db after) (id : WitnessId) :
    after.witnesses[id]?.isSome = db.witnesses[id]?.isSome := by
  have reads := congrArg Option.isSome (terms.reads id)
  rw [Option.isSome_map, Option.isSome_map] at reads
  exact reads

theorem SameTerms.expire (terms : SameTerms db after) (s : Staking) :
    after.expire s = db.expire s := by
  simp only [Database.expire, terms.headBlockTime, terms.isSome]

variable (pools whole : Int)

theorem SameTerms.rewardFrom (terms : SameTerms db after)
    (same : SameVotes db after) (id : WitnessId) :
    after.rewardFrom pools whole id = db.rewardFrom pools whole id := by
  simp only [Database.rewardFrom, rewardedWeight, terms.eligible,
    same.recorded]

theorem SameTerms.votersPart (terms : SameTerms db after)
    (same : SameVotes db after) (id : WitnessId) :
    after.votersPart pools whole id = db.votersPart pools whole id := by
  rw [Database.votersPart, Database.votersPart,
    terms.rewardFrom pools whole same, terms.commissionRateOf]

theorem SameTerms.ownPart (terms : SameTerms db after)
    (same : SameVotes db after) (id : WitnessId) :
    after.ownPart pools whole id = db.ownPart pools whole id := by
  rw [Database.ownPart, Database.ownPart,
    terms.rewardFrom pools whole same, terms.votersPart pools whole same]

end Terms

section Witnesses

variable {db after : Database} {pools whole : Int}

/-- The division gives the portion, that of 128-bit numbers after hard fork 1029
and that of checked numbers before it. -/
theorem rewardPay_eq_portion {weights computed : Int} (poolsNonneg : 0 ≤ pools)
    (poolsLt : pools < 2 ^ 63) (weightsNonneg : 0 ≤ weights)
    (weightsLe : weights ≤ whole) (wholePos : 0 < whole)
    (returns : db.rewardPay pools weights whole = .ok computed) :
    computed = portion pools weights whole := by
  have isPortion : (pools * weights).tdiv whole = portion pools weights whole :=
    Int.tdiv_eq_ediv_of_nonneg (Int.mul_nonneg poolsNonneg weightsNonneg)
  unfold rewardPay at returns
  split at returns
  · cases returns
    have nonneg := portion_nonneg poolsNonneg weightsNonneg wholePos
    have atMost := portion_le poolsNonneg wholePos weightsLe
    rw [isPortion]
    apply int64_of_range
    · exact Int.le_trans (by decide) nonneg
    · exact Int.lt_of_le_of_lt atMost poolsLt
  · obtain ⟨product, productChecked, quotientChecked⟩ :=
      bind_eq_ok.mp returns
    rw [eq_of_share quotientChecked, eq_of_share productChecked, isPortion]

theorem votePay_eq_portion {wit : Witness} {reward : Int}
    (nonneg : 0 ≤ reward) (rate : wit.commissionRate.toNat ≤ 1000) :
    wit.votePay reward = portion reward wit.commissionRate.toNat 1000 := by
  have product : 0 ≤ reward * (wit.commissionRate.toNat : Int) :=
    Int.mul_nonneg nonneg (Int.natCast_nonneg _)
  rw [Witness.votePay, Int.tdiv_eq_ediv_of_nonneg product]
  apply min_eq_right
  exact portion_le nonneg (by decide) (by exact_mod_cast rate)

/-- The conditions under which the witnesses are paid. -/
structure RewardTerms (db : Database) (pools whole : Int) : Prop where
  pools_nonneg : 0 ≤ pools
  pools_lt : pools < 2 ^ 63
  whole_pos : 0 < whole
  weights : ∀ id, 0 ≤ db.rewardedWeight id
  rates : ∀ id, db.commissionRateOf id ≤ 1000

theorem RewardTerms.reward_nonneg (terms : RewardTerms db pools whole)
    (id : WitnessId) : 0 ≤ db.rewardFrom pools whole id :=
  portion_nonneg terms.pools_nonneg (terms.weights id) terms.whole_pos

theorem payTrustNode_portions {id : WitnessId}
    (terms : RewardTerms db pools whole) (within : db.rewardedWeight id ≤ whole)
    (enough : db.rewardFrom pools whole id ≤ db.rewardPool)
    (returns : payTrustNode pools whole db id = .ok after) :
    Pays db after (-db.rewardFrom pools whole id)
      (atWitness id (db.votersPart pools whole id))
      (atAccount (db.accountOf id) (db.ownPart pools whole id)) := by
  obtain ⟨wit, found, _⟩ := bind_eq_ok.mp returns
  rw [getWitness_eq_ok] at found
  have nonneg := terms.reward_nonneg id
  by_cases isEligible : rewards wit = true
  · have weight : db.rewardedWeight id = wit.totalVoteWeights := by
      simp [rewardedWeight, eligible, found, isEligible,
        recordedFor_of_found found]
    obtain ⟨computed, computes, pays⟩ :=
      payTrustNode_pays found isEligible returns
    have isPortion : computed = db.rewardFrom pools whole id := by
      rw [rewardFrom, weight]
      exact rewardPay_eq_portion terms.pools_nonneg terms.pools_lt
        (weight ▸ terms.weights id) (weight ▸ within) terms.whole_pos computes
    have rate : db.commissionRateOf id = wit.commissionRate.toNat := by
      simp [commissionRateOf, found]
    have isVotersPart :
        wit.votePay computed = db.votersPart pools whole id := by
      rw [isPortion, votePay_eq_portion nonneg (rate ▸ terms.rates id),
        votersPart, rate]
    have account : db.accountOf id = wit.witnessAccount := by
      simp [accountOf, found]
    rw [min_eq_left (isPortion ▸ enough), isVotersPart, isPortion] at pays
    rw [account]
    exact pays
  · have weight : db.rewardedWeight id = 0 := by
      simp [rewardedWeight, eligible, found, isEligible]
    have nothing : db.rewardFrom pools whole id = 0 := by
      simp [rewardFrom, weight, portion]
    rw [payTrustNode_of_not found (Bool.eq_false_of_not_eq_true isEligible)
      returns]
    apply (Pays.refl db).congr
    · rw [nothing]
      rfl
    · intro other
      simp [atWitness, votersPart, nothing, portion]
    · intro other
      simp [atAccount, ownPart, votersPart, nothing, portion]

theorem RewardTerms.later (terms : RewardTerms db pools whole)
    (sameTerms : SameTerms db after) (same : SameVotes db after) :
    RewardTerms after pools whole where
  pools_nonneg := terms.pools_nonneg
  pools_lt := terms.pools_lt
  whole_pos := terms.whole_pos
  weights id := by
    rw [rewardedWeight, sameTerms.eligible, same.recorded]
    exact terms.weights id
  rates id := by
    rw [sameTerms.commissionRateOf]
    exact terms.rates id

variable {wits : List WitnessId}

theorem payTrustNodes_sameVotes
    (returns : wits.foldlM (payTrustNode pools whole) db = .ok after) :
    SameVotes db after :=
  foldlM_keeps
    (fun _ _ _ _ kept pay => kept.trans (payTrustNode_sameVotes pay))
    (SameVotes.refl db) returns

theorem SameTerms.refl (db : Database) : SameTerms db db :=
  ⟨rfl, rfl⟩

theorem payTrustNodes_sameTerms
    (returns : wits.foldlM (payTrustNode pools whole) db = .ok after) :
    SameTerms db after :=
  foldlM_keeps
    (fun _ _ _ _ kept pay => kept.trans (payTrustNode_sameTerms pay))
    (SameTerms.refl db) returns

theorem payTrustNodes_portions (terms : RewardTerms db pools whole)
    (within : ∀ id ∈ wits, db.rewardedWeight id ≤ whole)
    (enough : total (db.rewardFrom pools whole) wits ≤ db.rewardPool)
    (returns : wits.foldlM (payTrustNode pools whole) db = .ok after) :
    Pays db after (-total (db.rewardFrom pools whole) wits)
      (fun id =>
        total (fun wit => atWitness wit (db.votersPart pools whole wit) id)
          wits)
      (fun account =>
        total
          (fun wit =>
            atAccount (db.accountOf wit) (db.ownPart pools whole wit) account)
          wits) := by
  induction wits generalizing db with
  | nil =>
      cases returns
      exact .refl _
  | cons id rest ih =>
      rw [List.foldlM_cons] at returns
      obtain ⟨middle, first, later⟩ := bind_eq_ok.mp returns
      rw [total_cons] at enough
      have restNonneg : 0 ≤ total (db.rewardFrom pools whole) rest :=
        total_nonneg fun other _ => terms.reward_nonneg other
      have paysFirst :=
        payTrustNode_portions terms (within id List.mem_cons_self)
          (by omega) first
      have same := payTrustNode_sameVotes first
      have sameRewards := paysFirst.rewardFrom pools whole same
      have paysRest := ih
        (terms.later paysFirst.toSameTerms same) (by
          intro other member
          rw [rewardedWeight, paysFirst.eligible, same.recorded]
          exact within other (List.mem_cons_of_mem id member)) (by
          rw [total_congr fun other _ => sameRewards other,
            paysFirst.rewardPool]
          omega) later
      apply (paysFirst.trans paysRest).congr
      · rw [total_cons, total_congr fun other _ => sameRewards other]
        omega
      · intro other
        simp only [total_cons, paysFirst.votersPart pools whole same]
      · intro account
        simp only [total_cons, paysFirst.ownPart pools whole same,
          paysFirst.accountOf]

end Witnesses

/-- The call looks at the expiry of the stakes with the ids, and leaves the
others alone. -/
structure Expires (db after : Database) (ids : List Nat) : Prop
    extends SameTerms db after where
  stakings :
    after.stakings =
      db.stakings.map fun s => if s.id ∈ ids then db.expire s else s

section Expiry

variable {backup : List Witness} {db middle after : Database} {s : Staking}

theorem expire_id (s : Staking) : (db.expire s).id = s.id := by
  unfold expire
  split
  · rfl
  · rfl

variable {marked : List Nat}

theorem Expires.ids (expires : Expires db after marked) :
    after.stakings.map (·.id) = db.stakings.map (·.id) := by
  rw [expires.stakings, List.map_map]
  apply List.map_congr_left
  intro s _
  simp only [Function.comp_apply]
  split
  · exact expire_id s
  · rfl

theorem Expires.mem (expires : Expires db after marked)
    (member : s ∈ db.stakings) (notMarked : s.id ∉ marked) :
    s ∈ after.stakings := by
  rw [expires.stakings]
  exact List.mem_map.mpr ⟨s, member, if_neg notMarked⟩

theorem Expires.nil (db : Database) : Expires db db [] where
  toSameTerms := ⟨rfl, rfl⟩
  stakings := by simp

theorem Expires.cons {id : Nat} {rest : List Nat}
    (first : Expires db middle [id]) (later : Expires middle after rest)
    (different : id ∉ rest) :
    Expires db after (id :: rest) where
  toSameTerms := first.toSameTerms.trans later.toSameTerms
  stakings := by
    rw [later.stakings, first.stakings, List.map_map]
    apply List.map_congr_left
    intro other _
    simp only [Function.comp_apply, List.mem_cons, List.not_mem_nil, or_false,
      first.expire]
    by_cases here : other.id = id
    · have notLater : other.id ∉ rest := here ▸ different
      have isFirst : other.id = id ∨ other.id ∈ rest := .inl here
      rw [if_pos here, if_pos isFirst, expire_id, if_neg notLater]
    · simp only [here, if_false, false_or]

theorem findStaking_of_mem
    (ids : (db.stakings.map (·.id)).Nodup) (member : s ∈ db.stakings) :
    db.findStaking s.id = some s :=
  find_key_of_nodup ids member

/-- With different ids, what is written over a stake is written for its id. -/
theorem Expires.of_stake (terms : SameTerms db after)
    (ids : (db.stakings.map (·.id)).Nodup) (member : s ∈ db.stakings)
    (stakings :
      after.stakings =
        db.stakings.map fun other =>
          if other.id = s.id then db.expire s else other) :
    Expires db after [s.id] where
  toSameTerms := terms
  stakings := by
    rw [stakings]
    apply List.map_congr_left
    intro other inStakings
    simp only [List.mem_singleton]
    split
    · next same =>
        rw [List.inj_on_of_nodup_map ids inStakings member same]
    · rfl

theorem handlingExpiredStaking_expires (ids : (db.stakings.map (·.id)).Nodup)
    (member : s ∈ db.stakings) (valid : s.isValid = true)
    (returns : db.handlingExpiredStaking s s.trustNode = .ok after) :
    Expires db after [s.id] := by
  have terms := (handlingExpiredStaking_pays returns).toSameTerms
  apply Expires.of_stake terms ids member
  unfold handlingExpiredStaking at returns
  split at returns
  · next ended =>
      have isExpired : db.expire s = { s with isValid := false } :=
        if_pos ⟨valid, ended⟩
      obtain ⟨witness, _, rfl⟩ := reduceVoteWeights_eq_ok returns
      rw [isExpired, ← replaceFirst_eq_map ids]
      rfl
  · next notEnded =>
      have isSame : db.expire s = s :=
        if_neg fun ended => notEnded ended.2
      cases returns
      rw [isSame, map_key_self ids member]

/-- Payments before the expiry change nothing of it. -/
theorem Expires.of_same (expires : Expires middle after marked)
    (terms : SameTerms db middle) (stakings : middle.stakings = db.stakings) :
    Expires db after marked where
  toSameTerms := terms.trans expires.toSameTerms
  stakings := by
    rw [expires.stakings, stakings]
    simp only [terms.expire]

theorem payVoter_sameTerms (returns : db.payVoter backup s = .ok after) :
    SameTerms db after := by
  obtain ⟨wit, found, _⟩ := bind_eq_ok.mp returns
  rw [getWitness_eq_ok] at found
  obtain ⟨pay, _, pays⟩ := payVoter_pays found returns
  exact pays.toSameTerms

/-- From hard fork 1026 on a round of the second loop looks at the expiry of its
stake, whether or not the stake is paid. -/
theorem visitStaking_expires (late : db.headBlockTime > HARDFORK_1026_TIME)
    (ids : (db.stakings.map (·.id)).Nodup) (member : s ∈ db.stakings)
    (returns : visitStaking backup db s.id = .ok after) :
    Expires db after [s.id] := by
  simp only [visitStaking, findStaking_of_mem ids member] at returns
  by_cases valid : s.isValid = true
  · rw [if_pos valid, visitValidStaking] at returns
    split at returns
    · obtain ⟨paid, pays, handles⟩ := bind_eq_ok.mp returns
      have same := (payVoter_sameVotes pays).stakings
      have expires :=
        handlingExpiredStaking_expires (same ▸ ids) (same ▸ member) valid
          handles
      exact expires.of_same (payVoter_sameTerms pays) same
    · exact handlingExpiredStaking_expires ids member valid returns
  · rw [if_neg valid] at returns
    cases returns
    apply Expires.of_stake ⟨rfl, rfl⟩ ids member
    have isSame : db.expire s = s := by
      simp [expire, valid]
    rw [isSame, map_key_self ids member]

/-- The second loop looks at the expiry of every stake that it visits. -/
theorem visitStakings_expires {stakes : List Staking}
    (late : db.headBlockTime > HARDFORK_1026_TIME)
    (ids : (db.stakings.map (·.id)).Nodup)
    (members : ∀ s ∈ stakes, s ∈ db.stakings)
    (distinct : (stakes.map (·.id)).Nodup)
    (returns :
      (stakes.map (·.id)).foldlM (visitStaking backup) db = .ok after) :
    Expires db after (stakes.map (·.id)) := by
  induction stakes generalizing db with
  | nil =>
      cases returns
      exact .nil _
  | cons s rest ih =>
      rw [List.map_cons, List.foldlM_cons] at returns
      obtain ⟨middle, first, later⟩ := bind_eq_ok.mp returns
      rw [List.map_cons, List.nodup_cons] at distinct
      have expires :=
        visitStaking_expires late ids (members s List.mem_cons_self) first
      have restExpires :=
        ih (expires.headBlockTime ▸ late)
          (expires.ids ▸ ids)
          (fun other member => by
            apply expires.mem (members other (List.mem_cons_of_mem s member))
            intro same
            rw [List.mem_singleton] at same
            exact distinct.1 (same ▸ List.mem_map_of_mem member))
          distinct.2 later
      exact expires.cons restExpires distinct.1

end Expiry

section Stakes

variable {base db after : Database} {s : Staking}

/-- The conditions under which the stakes are paid; `base` is the database
before the loop. -/
structure StakeTerms (base db : Database) : Prop
    extends SameTerms base db where
  late : db.headBlockTime > HARDFORK_1026_TIME
  ids : (db.stakings.map (·.id)).Nodup
  pools : ∀ id, 0 ≤ base.votePool id
  weights : ∀ id, 0 ≤ base.recordedFor id

theorem stakeReward_nonneg (pools : ∀ id, 0 ≤ base.votePool id)
    (weights : ∀ id, 0 ≤ base.recordedFor id) (nonneg : 0 ≤ s.voteWeights) :
    0 ≤ base.stakeReward s := by
  unfold stakeReward
  split
  · exact Int.ediv_nonneg (Int.mul_nonneg (pools _) nonneg) (weights _)
  · exact Int.le_refl 0

/-- A stake that the loop does not pay has no portion. -/
theorem stakeReward_of_not_paid (terms : SameTerms base db)
    (notPaid :
      db.witnesses[s.trustNode]?.any (voterPaid base.witnesses s) = false) :
    base.stakeReward s = 0 := by
  unfold stakeReward
  split
  · next counts =>
      obtain ⟨_, isEligible⟩ := counts
      have stillEligible := isEligible
      rw [← terms.eligible] at stillEligible
      cases found : base.witnesses[s.trustNode]? with
      | none => simp [eligible, found] at isEligible
      | some before =>
          cases now : db.witnesses[s.trustNode]? with
          | none => simp [eligible, now] at stillEligible
          | some wit =>
              simp only [eligible, now, Option.any_some, rewards,
                Bool.and_eq_true, Bool.not_eq_true'] at stillEligible
              have noWeight : before.totalVoteWeights = 0 := by
                simpa [now, found, voterPaid, stillEligible] using notPaid
              simp [portion, recordedFor_of_found found, noWeight]
  · rfl

theorem payVoter_portions (terms : StakeTerms base db)
    (valid : s.isValid = true) (nonneg : 0 ≤ s.voteWeights)
    (enough : base.stakeReward s ≤ db.votePool s.trustNode)
    (isPaid :
      db.witnesses[s.trustNode]?.any (voterPaid base.witnesses s) = true)
    (returns : db.payVoter base.witnesses s = .ok after) :
    Pays db after 0 (atWitness s.trustNode (-base.stakeReward s))
      (atAccount s.owner (base.stakeReward s)) := by
  cases now : db.witnesses[s.trustNode]? with
  | none => simp [now] at isPaid
  | some wit =>
      cases found : base.witnesses[s.trustNode]? with
      | none => simp [now, found, voterPaid] at isPaid
      | some before =>
          simp only [now, found, voterPaid, Option.any_some,
            Bool.and_eq_true, Bool.not_eq_true'] at isPaid
          have isEligible : base.eligible s.trustNode = true := by
            rw [← terms.eligible]
            simp [eligible, now, rewards, isPaid.1]
          have poolNonneg := terms.pools s.trustNode
          rw [votePool_of_found found] at poolNonneg
          have reward :
              (before.voteRewardPool * s.voteWeights).tdiv
                before.totalVoteWeights = base.stakeReward s := by
            rw [stakeReward, if_pos ⟨valid, isEligible⟩,
              votePool_of_found found, recordedFor_of_found found,
              Int.tdiv_eq_ediv_of_nonneg (Int.mul_nonneg poolNonneg nonneg)]
            rfl
          obtain ⟨pay, computes, pays⟩ := payVoter_pays now returns
          have isPay := voterPay_eq_ok found computes
          rw [votePool_of_found now] at enough
          rw [reward, min_eq_left enough] at isPay
          rw [isPay] at pays
          exact pays

theorem visitStaking_portions (terms : StakeTerms base db)
    (member : s ∈ db.stakings) (nonneg : 0 ≤ s.voteWeights)
    (enough : base.stakeReward s ≤ db.votePool s.trustNode)
    (returns : visitStaking base.witnesses db s.id = .ok after) :
    Pays db after 0 (atWitness s.trustNode (-base.stakeReward s))
      (atAccount s.owner (base.stakeReward s)) := by
  have nothing :
      base.stakeReward s = 0 →
        Pays db db 0 (atWitness s.trustNode (-base.stakeReward s))
          (atAccount s.owner (base.stakeReward s)) := by
    intro zero
    apply (Pays.refl db).congr rfl
    · intro id
      simp [atWitness, zero]
    · intro account
      simp [atAccount, zero]
  simp only [visitStaking, findStaking_of_mem terms.ids member] at returns
  by_cases valid : s.isValid = true
  · rw [if_pos valid, visitValidStaking] at returns
    split at returns
    · next isPaid =>
        obtain ⟨paid, pays, handles⟩ := bind_eq_ok.mp returns
        have portions :=
          payVoter_portions terms valid nonneg enough isPaid pays
        apply (portions.trans (handlingExpiredStaking_pays handles)).congr rfl
        · exact fun _ => Int.add_zero _
        · exact fun _ => Int.add_zero _
    · next notPaid =>
        have zero :=
          stakeReward_of_not_paid terms.toSameTerms
            (Bool.eq_false_of_not_eq_true notPaid)
        rw [if_pos terms.late] at returns
        apply ((nothing zero).trans
          (handlingExpiredStaking_pays returns)).congr rfl
        · exact fun _ => Int.add_zero _
        · exact fun _ => Int.add_zero _
  · rw [if_neg valid] at returns
    cases returns
    apply nothing
    simp [stakeReward, valid]

/-- What the second loop pays; the stakes that are still to come are
untouched. -/
theorem visitStakings_portions {stakes : List Staking}
    (terms : StakeTerms base db) (members : ∀ s ∈ stakes, s ∈ db.stakings)
    (distinct : (stakes.map (·.id)).Nodup)
    (nonneg : ∀ s ∈ stakes, 0 ≤ s.voteWeights)
    (enough :
      ∀ id,
        total (fun s => atWitness s.trustNode (base.stakeReward s) id)
          stakes ≤ db.votePool id)
    (returns :
      (stakes.map (·.id)).foldlM (visitStaking base.witnesses) db =
        .ok after) :
    Pays db after 0
      (fun id =>
        -total (fun s => atWitness s.trustNode (base.stakeReward s) id)
          stakes)
      (fun account =>
        total (fun s => atAccount s.owner (base.stakeReward s) account)
          stakes) := by
  induction stakes generalizing db with
  | nil =>
      cases returns
      exact .refl _
  | cons s rest ih =>
      rw [List.map_cons, List.foldlM_cons] at returns
      obtain ⟨middle, first, later⟩ := bind_eq_ok.mp returns
      rw [List.map_cons, List.nodup_cons] at distinct
      have isMember := members s List.mem_cons_self
      have restNonneg :
          ∀ id,
            0 ≤ total
              (fun s => atWitness s.trustNode (base.stakeReward s) id)
              rest := by
        intro id
        apply total_nonneg
        intro other member
        unfold atWitness
        split
        · exact stakeReward_nonneg terms.pools terms.weights
            (nonneg other (List.mem_cons_of_mem s member))
        · exact Int.le_refl 0
      have enoughFirst : base.stakeReward s ≤ db.votePool s.trustNode := by
        have here := enough s.trustNode
        have rests := restNonneg s.trustNode
        simp only [total_cons, atWitness, if_true] at here rests
        omega
      have pays :=
        visitStaking_portions terms isMember (nonneg s List.mem_cons_self)
          enoughFirst first
      have expires :=
        visitStaking_expires terms.late terms.ids isMember first
      have restTerms : StakeTerms base middle := by
        refine ⟨terms.trans pays.toSameTerms, ?_, ?_, terms.pools,
          terms.weights⟩
        · rw [pays.headBlockTime]
          exact terms.late
        · rw [expires.ids]
          exact terms.ids
      have restMembers : ∀ other ∈ rest, other ∈ middle.stakings := by
        intro other member
        apply expires.mem (members other (List.mem_cons_of_mem s member))
        intro same
        rw [List.mem_singleton] at same
        exact distinct.1 (same ▸ List.mem_map_of_mem member)
      have restEnough :
          ∀ id,
            total (fun s => atWitness s.trustNode (base.stakeReward s) id)
              rest ≤ middle.votePool id := by
        intro id
        have here := enough id
        rw [total_cons] at here
        rw [pays.votePool]
        unfold atWitness at here ⊢
        split at here
        · next isHere =>
            rw [if_pos isHere]
            omega
        · next isElsewhere =>
            rw [if_neg isElsewhere]
            omega
      have paysRest :=
        ih restTerms restMembers distinct.2
          (fun other member =>
            nonneg other (List.mem_cons_of_mem s member))
          restEnough later
      apply (pays.trans paysRest).congr rfl
      · intro id
        rw [total_cons, Int.neg_add]
        apply congrArg (· + _)
        unfold atWitness
        split
        · rfl
        · rfl
      · intro account
        rw [total_cons]

end Stakes

end GxbCore.Ledger
