import GxbCore.Ledger.RewardOrder

/-!
# The arithmetic of the rewards

The rewards multiply amounts and weights as `share_type`, which throws when a
result leaves 64 bits: the commission of a witness, and what a stake gets of the
vote reward pool.  Only the portions of the witnesses are computed with 128
bits, from hard fork 1029 on.  When the products fit, nothing in the
distribution overflows, in any state that a run reaches.
-/

namespace GxbCore.Ledger

open Database

namespace Database

/-- The rewards that are still to be paid. -/
def unpaid (db : Database) : Int :=
  db.rewardPool + total (·.voteRewardPool) db.witnesses

end Database

/-- The distribution throws for no other reason than a missing object. -/
def isNotFound (fault : Fault) : Prop :=
  fault = .notFound

section Sums

variable {db after : Database} {pool : Int} {votePools : WitnessId → Int}
  {vested : AccountId → Int}

theorem total_votePools (db : Database) :
    total (·.voteRewardPool) db.witnesses =
      total db.votePool (List.range db.witnesses.length) := by
  change _ =
    total (fun id => (db.witnesses[id]?.map (·.voteRewardPool)).getD 0)
      (List.range db.witnesses.length)
  induction db.witnesses with
  | nil => rfl
  | cons wit rest ih =>
      rw [List.length_cons, List.range_succ_eq_map, total_cons, total_cons,
        ih]
      simp [total, List.map_map, Function.comp_def]

theorem total_add (left right : WitnessId → Int) (rows : List WitnessId) :
    total (fun row => left row + right row) rows =
      total left rows + total right rows := by
  induction rows with
  | nil => rfl
  | cons row rest ih =>
      rw [total_cons, total_cons, total_cons, ih]
      omega

theorem total_atWitness (id : Nat) (amount : Int) (count : Nat)
    (inside : id < count) :
    total (atWitness id amount) (List.range count) = amount := by
  induction count with
  | zero => exact absurd inside (Nat.not_lt_zero id)
  | succ earlier ih =>
      rw [List.range_succ, total_append, total_cons, total_nil]
      by_cases here : id = earlier
      · have nothing :
            total (atWitness id amount) (List.range earlier) = 0 := by
          apply total_eq_zero
          intro other member
          have below := List.mem_range.mp member
          refine if_neg ?_
          intro same
          rw [same, here] at below
          exact Nat.lt_irrefl earlier below
        rw [nothing, here, atWitness, if_pos rfl]
        omega
      · have within : id < earlier := by omega
        rw [ih within, atWitness, if_neg (Ne.symm here)]
        omega

theorem SameTerms.length (terms : SameTerms db after) :
    after.witnesses.length = db.witnesses.length := by
  have lengths := congrArg List.length terms.terms
  rw [List.length_map, List.length_map] at lengths
  exact lengths

theorem unpaid_of_pays (pays : Pays db after pool votePools vested) :
    after.unpaid =
      db.unpaid + pool
        + total votePools (List.range db.witnesses.length) := by
  have sums :
      total after.votePool (List.range db.witnesses.length) =
        total db.votePool (List.range db.witnesses.length)
          + total votePools (List.range db.witnesses.length) := by
    rw [← total_add]
    exact total_congr fun id _ => pays.votePool id
  rw [unpaid, unpaid, pays.rewardPool, total_votePools, total_votePools,
    pays.length]
  omega

end Sums

/-- No vesting balance is negative. -/
def Vests (db : Database) : Prop :=
  ∀ vbo ∈ db.vestings, 0 ≤ vbo.balance.amount

/-- The pools and the vesting balances are not negative, and what is still to
be paid fits to what has been paid already. -/
structure Solvent (db : Database) : Prop where
  pool : 0 ≤ db.rewardPool
  votePools : ∀ id, 0 ≤ db.votePool id
  vestings : Vests db
  unpaid_le : db.unpaid ≤ GRAPHENE_MAX_SHARE_SUPPLY
  vested :
    ∀ account,
      db.vestedFor account + db.unpaid ≤ 2 * GRAPHENE_MAX_SHARE_SUPPLY
  late : db.headBlockTime > HARDFORK_1008_TIME

section Deposits

variable {db after : Database} {amount : Int} {account : AccountId}

theorem failsOnly_share {expected : Fault → Prop} {value : Int}
    (low : -2 ^ 63 ≤ value) (high : value < 2 ^ 63) :
    FailsOnly expected (share value) := by
  rw [share, if_pos ⟨low, high⟩]
  exact failsOnly_ok value

theorem failsOnly_missing {α : Type} (value : Option α) :
    FailsOnly isNotFound (orThrow value Fault.notFound) :=
  failsOnly_orThrow value rfl

theorem failsOnly_plus {expected : Fault → Prop} {a b : Asset}
    (sameAsset : a.assetId = b.assetId)
    (low : -2 ^ 63 ≤ a.amount + b.amount) (high : a.amount + b.amount < 2 ^ 63) :
    FailsOnly expected (a.plus b) := by
  unfold Asset.plus
  apply failsOnly_bind
  · rw [fcAssert, require, if_pos sameAsset]
    exact failsOnly_ok _
  · intro _ _
    apply failsOnly_bind (failsOnly_share low high)
    intro _ _
    exact failsOnly_ok _

theorem vestsFor_nonneg {core : AssetId} {vbo : VestingBalance}
    (nonneg : 0 ≤ vbo.balance.amount) : 0 ≤ vestsFor core account vbo := by
  unfold vestsFor inAsset
  split
  · split
    · exact nonneg
    · exact Int.le_refl 0
  · exact Int.le_refl 0

variable {ovbid : Option VestingBalanceId} {seconds : UInt32}

/-- A vesting balance that is used again is in the core asset, and one of those
that are counted for its owner. -/
theorem findReusable_vested {place : VestingBalanceId × VestingBalance}
    (late : db.headBlockTime > HARDFORK_1008_TIME) (vests : Vests db)
    (returns : db.findReusable ovbid seconds account = .ok (some place)) :
    place.2.balance.assetId = db.currentCoreAssetId ∧
      0 ≤ place.2.balance.amount ∧
      place.2.balance.amount ≤ db.vestedFor account := by
  have member := List.mem_of_getElem? (findReusable_eq_some returns)
  have owned := findReusable_owner returns
  have isCore : db.currentCoreAssetId = 1 := if_pos late
  have sameAsset : place.2.balance.assetId = 1 := by
    unfold findReusable at returns
    split at returns
    · cases returns
    · simp only [bind_eq_ok, orThrow_eq_ok] at returns
      obtain ⟨vbo, _, returns⟩ := returns
      split at returns
      · next reusable =>
          cases returns
          simp only [isReusable, Bool.and_eq_true, Bool.or_eq_true,
            beq_iff_eq, decide_eq_true_eq] at reusable
          rcases reusable.2 with early | isOne
          · exact absurd late (UInt32.not_lt.mpr early)
          · exact isOne
      · cases returns
  refine ⟨sameAsset.trans isCore.symm, vests _ member, ?_⟩
  have counted :
      vestsFor db.currentCoreAssetId account place.2 =
        place.2.balance.amount := by
    rw [vestsFor, if_pos owned, inAsset, if_pos (sameAsset.trans isCore.symm)]
  rw [← counted]
  apply le_total_of_mem _ member
  intro other isOther
  exact vestsFor_nonneg (vests other isOther)

theorem failsOnly_depositLazyVesting
    (late : db.headBlockTime > HARDFORK_1008_TIME) (vests : Vests db)
    (amountNonneg : 0 ≤ amount)
    (fits : db.vestedFor account + amount < 2 ^ 63) :
    FailsOnly isNotFound
      (db.depositLazyVesting ovbid amount seconds account true) := by
  unfold depositLazyVesting
  split
  · exact failsOnly_ok _
  · apply failsOnly_bind
    · unfold findReusable
      cases ovbid with
      | none => exact failsOnly_ok _
      | some id =>
          apply failsOnly_bind (failsOnly_missing _)
          intro vbo _
          exact failsOnly_ok _
    · intro reusable found
      cases reusable with
      | none => exact failsOnly_ok _
      | some place =>
          obtain ⟨sameAsset, balanceNonneg, within⟩ :=
            findReusable_vested late vests found
          apply failsOnly_bind
          · rw [VestingBalance.depositWith, if_pos rfl,
              VestingBalance.deposit]
            apply failsOnly_bind
            · apply failsOnly_plus sameAsset
              · change -2 ^ 63 ≤ place.2.balance.amount + amount
                omega
              · change place.2.balance.amount + amount < 2 ^ 63
                omega
            · intro _ _
              exact failsOnly_ok _
          · intro deposited _
            exact failsOnly_ok _

theorem failsOnly_depositWitnessPay {id : WitnessId} {wit : Witness}
    (found : db.witnesses[id]? = some wit)
    (late : db.headBlockTime > HARDFORK_1008_TIME) (vests : Vests db)
    (amountNonneg : 0 ≤ amount)
    (fits : db.vestedFor wit.witnessAccount + amount < 2 ^ 63) :
    FailsOnly isNotFound (db.depositWitnessPay id amount) := by
  unfold depositWitnessPay
  split
  · exact failsOnly_ok _
  · apply failsOnly_bind (failsOnly_missing _)
    intro witness isWitness
    rw [orThrow_eq_ok] at isWitness
    cases found.symm.trans isWitness
    apply failsOnly_bind
      (failsOnly_depositLazyVesting late vests amountNonneg fits)
    rintro ⟨newVbid, middle⟩ _
    cases newVbid with
    | none => exact failsOnly_ok _
    | some newId => exact failsOnly_ok _

theorem failsOnly_stakingCashback (late : db.headBlockTime > HARDFORK_1008_TIME)
    (vests : Vests db) (amountNonneg : 0 ≤ amount)
    (fits : db.vestedFor account + amount < 2 ^ 63) :
    FailsOnly isNotFound (db.stakingCashback account amount) := by
  unfold stakingCashback
  split
  · exact failsOnly_ok _
  · apply failsOnly_bind (failsOnly_missing _)
    intro stored _
    split
    · apply failsOnly_bind
        (failsOnly_depositLazyVesting late vests amountNonneg fits)
      rintro ⟨newVbid, middle⟩ _
      cases newVbid with
      | none => exact failsOnly_ok _
      | some newId => exact failsOnly_ok _
    · apply failsOnly_bind
        (failsOnly_depositLazyVesting late vests amountNonneg fits)
      rintro ⟨newVbid, middle⟩ _
      cases newVbid with
      | none => exact failsOnly_ok _
      | some newId => exact failsOnly_ok _

theorem depositLazyVesting_vested {ovbid newVbid : Option VestingBalanceId}
    {requireVesting : Bool} (nonneg : 0 ≤ amount) (vests : Vests db)
    (returns :
      db.depositLazyVesting ovbid amount seconds account requireVesting =
        .ok (newVbid, after)) : Vests after := by
  unfold depositLazyVesting at returns
  split at returns
  · cases returns
    exact vests
  · obtain ⟨reusable, found, returns⟩ := bind_eq_ok.mp returns
    cases reusable with
    | none =>
        cases returns
        exact forall_concat vests nonneg
    | some place =>
        obtain ⟨deposited, added, returns⟩ := bind_eq_ok.mp returns
        cases returns
        obtain ⟨_, balance⟩ := VestingBalance.depositWith_balance added
        have before :=
          vests place.2 (List.mem_of_getElem? (findReusable_eq_some found))
        refine forall_set vests ?_
        rw [balance]
        exact Int.add_nonneg before nonneg

theorem depositWitnessPay_vested {id : WitnessId} (nonneg : 0 ≤ amount)
    (vests : Vests db) (returns : db.depositWitnessPay id amount = .ok after) :
    Vests after := by
  rcases depositWitnessPay_cases returns with
    ⟨_, same⟩ | ⟨witness, newVbid, middle, payVb, _, deposits, ends⟩
  · rw [same]
    exact vests
  · have deposited := depositLazyVesting_vested nonneg vests deposits
    rcases ends with same | same
    · rw [same]
      exact deposited
    · rw [same]
      exact deposited

theorem stakingCashback_vested (nonneg : 0 ≤ amount) (vests : Vests db)
    (returns : db.stakingCashback account amount = .ok after) :
    Vests after := by
  rcases stakingCashback_cases returns with
    ⟨_, same⟩ | ⟨stored, ovbid, newVbid, middle, _, deposits, points⟩
  · rw [same]
    exact vests
  · have deposited := depositLazyVesting_vested nonneg vests deposits
    rcases points with same | ⟨updated, same, _, _⟩
    · rw [same]
      exact deposited
    · rw [same]
      exact deposited

end Deposits

section Witnesses

variable {db after : Database} {pools whole : Int} {id : WitnessId}

theorem rewardedWeight_of_eligible {wit : Witness}
    (found : db.witnesses[id]? = some wit) (isEligible : rewards wit = true) :
    db.rewardedWeight id = wit.totalVoteWeights := by
  simp [rewardedWeight, eligible, found, isEligible,
    recordedFor_of_found found]

theorem Solvent.votePools_le (solvent : Solvent db) (id : WitnessId) :
    db.rewardPool + db.votePool id ≤ db.unpaid := by
  have nonneg :
      ∀ other ∈ List.range db.witnesses.length, 0 ≤ db.votePool other :=
    fun other _ => solvent.votePools other
  rw [unpaid, total_votePools]
  by_cases inside : id < db.witnesses.length
  · have within := le_total_of_mem nonneg (List.mem_range.mpr inside)
    omega
  · have nothing : db.votePool id = 0 := by
      simp [votePool, List.getElem?_eq_none (Nat.le_of_not_lt inside)]
    have rest := total_nonneg nonneg
    omega

theorem Solvent.pool_le (solvent : Solvent db) : db.rewardPool ≤ db.unpaid := by
  have pools := solvent.votePools_le 0
  have nonneg := solvent.votePools 0
  omega

theorem failsOnly_rewardPay {weights : Int} (poolsNonneg : 0 ≤ pools)
    (poolsLt : pools < 2 ^ 63) (weightsNonneg : 0 ≤ weights)
    (weightsLe : weights ≤ whole) (wholePos : 0 < whole)
    (fits : db.headBlockTime ≤ HARDFORK_1029_TIME → pools * weights < 2 ^ 63) :
    FailsOnly isNotFound (db.rewardPay pools weights whole) := by
  unfold rewardPay
  split
  · exact failsOnly_ok _
  · next early =>
      have productNonneg := Int.mul_nonneg poolsNonneg weightsNonneg
      apply failsOnly_bind
      · apply failsOnly_share
        · omega
        · exact fits (UInt32.not_lt.mp early)
      · intro product checked
        rw [eq_of_share checked, Int.tdiv_eq_ediv_of_nonneg productNonneg]
        have nonneg := portion_nonneg poolsNonneg weightsNonneg wholePos
        have atMost := portion_le poolsNonneg wholePos weightsLe
        apply failsOnly_share
        · exact Int.le_trans (by decide) nonneg
        · exact Int.lt_of_le_of_lt atMost poolsLt

theorem votePay_range {wit : Witness} {reward : Int} (nonneg : 0 ≤ reward) :
    0 ≤ wit.votePay reward ∧ wit.votePay reward ≤ reward := by
  have quotient : 0 ≤ (reward * (wit.commissionRate.toNat : Int)).tdiv 1000 :=
    Int.tdiv_nonneg (Int.mul_nonneg nonneg (Int.natCast_nonneg _))
      (by decide)
  exact ⟨le_min nonneg quotient, min_le_left _ _⟩

/-- The products of a round of the first loop fit. -/
structure RewardFits (db : Database) (pools whole : Int) (id : WitnessId) :
    Prop where
  weight_le : db.rewardedWeight id ≤ whole
  early :
    db.headBlockTime ≤ HARDFORK_1029_TIME →
      pools * db.rewardedWeight id < 2 ^ 63
  commission :
    db.rewardFrom pools whole id * db.commissionRateOf id < 2 ^ 63

theorem failsOnly_payTrustNode (solvent : Solvent db)
    (terms : RewardTerms db pools whole) (fits : RewardFits db pools whole id) :
    FailsOnly isNotFound (payTrustNode pools whole db id) := by
  unfold payTrustNode
  apply failsOnly_bind (failsOnly_missing _)
  intro wit found
  rw [orThrow_eq_ok] at found
  split
  · next isEligible =>
      have weight := rewardedWeight_of_eligible found isEligible
      have rate : db.commissionRateOf id = wit.commissionRate.toNat := by
        simp [commissionRateOf, found]
      have weightNonneg := terms.weights id
      have weightLe := fits.weight_le
      have early := fits.early
      rw [weight] at weightNonneg weightLe early
      apply failsOnly_bind
        (failsOnly_rewardPay terms.pools_nonneg terms.pools_lt weightNonneg
          weightLe terms.whole_pos early)
      intro computed computes
      have isPortion : computed = db.rewardFrom pools whole id := by
        rw [rewardFrom, weight]
        exact rewardPay_eq_portion terms.pools_nonneg terms.pools_lt
          weightNonneg weightLe terms.whole_pos computes
      have poolNonneg := solvent.pool
      have poolLe := solvent.pool_le
      have unpaidLe := solvent.unpaid_le
      have votePoolLe := solvent.votePools_le id
      have votePoolNonneg := solvent.votePools id
      rw [votePool_of_found found] at votePoolLe votePoolNonneg
      have rewardNonneg : 0 ≤ min computed db.rewardPool := by
        rw [isPortion]
        exact le_min (terms.reward_nonneg id) poolNonneg
      have rewardLe : min computed db.rewardPool ≤ db.rewardPool :=
        min_le_right _ _
      have commission :
          min computed db.rewardPool * (wit.commissionRate.toNat : Int)
            < 2 ^ 63 := by
        have bound := fits.commission
        rw [rate, ← isPortion] at bound
        have atMost : min computed db.rewardPool ≤ computed :=
          min_le_left _ _
        exact Int.lt_of_le_of_lt
          (Int.mul_le_mul_of_nonneg_right atMost (Int.natCast_nonneg _))
          bound
      have commissionNonneg :
          0 ≤ min computed db.rewardPool * (wit.commissionRate.toNat : Int) :=
        Int.mul_nonneg rewardNonneg (Int.natCast_nonneg _)
      have voteRange : 0 ≤ wit.votePay (min computed db.rewardPool) ∧
          wit.votePay (min computed db.rewardPool)
            ≤ min computed db.rewardPool :=
        votePay_range rewardNonneg
      have vestedLe := solvent.vested wit.witnessAccount
      have unpaidNonneg : 0 ≤ db.unpaid := Int.le_trans poolNonneg poolLe
      unfold GRAPHENE_MAX_SHARE_SUPPLY at unpaidLe vestedLe
      apply failsOnly_bind
      · apply failsOnly_share
        · change -2 ^ 63 ≤ db.rewardPool - min computed db.rewardPool
          omega
        · change db.rewardPool - min computed db.rewardPool < 2 ^ 63
          omega
      intro pool _
      apply failsOnly_bind
      · apply failsOnly_share
        · exact Int.le_trans (by decide) commissionNonneg
        · exact commission
      intro product productChecked
      rw [eq_of_share productChecked]
      apply failsOnly_bind
      · apply failsOnly_share
        · change -2 ^ 63 ≤
            wit.voteRewardPool + wit.votePay (min computed db.rewardPool)
          omega
        · change wit.voteRewardPool + wit.votePay (min computed db.rewardPool)
            < 2 ^ 63
          omega
      intro voteRewardPool _
      apply failsOnly_bind
      · apply failsOnly_share
        · change -2 ^ 63 ≤ min computed db.rewardPool
            - wit.votePay (min computed db.rewardPool)
          omega
        · change min computed db.rewardPool
            - wit.votePay (min computed db.rewardPool) < 2 ^ 63
          omega
      intro witnessPay payChecked
      have isPay :
          witnessPay =
            min computed db.rewardPool
              - wit.votePay (min computed db.rewardPool) :=
        eq_of_share payChecked
      have isNoted :
          (db.witnesses.set id
            { wit with voteRewardPool := voteRewardPool })[id]? =
            some { wit with voteRewardPool := voteRewardPool } := by
        simp [(List.getElem?_eq_some_iff.mp found).1]
      apply failsOnly_depositWitnessPay isNoted
      · exact solvent.late
      · exact solvent.vestings
      · omega
      · change db.vestedFor wit.witnessAccount + witnessPay < 2 ^ 63
        omega
  · exact failsOnly_ok _

theorem Solvent.of_pays {pool : Int} {votePools : WitnessId → Int}
    {vested : AccountId → Int}
    (solvent : Solvent db) (pays : Pays db after pool votePools vested)
    (vests : Vests after) (poolNonneg : 0 ≤ after.rewardPool)
    (votePoolsNonneg : ∀ id, 0 ≤ after.votePool id)
    (unpaidLe : after.unpaid ≤ db.unpaid)
    (vestedLe : ∀ account, vested account ≤ db.unpaid - after.unpaid) :
    Solvent after where
  pool := poolNonneg
  votePools := votePoolsNonneg
  vestings := vests
  unpaid_le := Int.le_trans unpaidLe solvent.unpaid_le
  vested account := by
    have before := solvent.vested account
    have added := vestedLe account
    rw [pays.vestedFor]
    omega
  late := by
    rw [pays.headBlockTime]
    exact solvent.late

theorem payTrustNode_vested {wit : Witness} {computed : Int}
    (found : db.witnesses[id]? = some wit) (isEligible : rewards wit = true)
    (computes : db.rewardPay pools wit.totalVoteWeights whole = .ok computed)
    (nonneg : 0 ≤ min computed db.rewardPool) (vests : Vests db)
    (returns : payTrustNode pools whole db id = .ok after) : Vests after := by
  simp only [payTrustNode, bind_eq_ok, getWitness_eq_ok] at returns
  obtain ⟨witness, isWitness, returns⟩ := returns
  cases found.symm.trans isWitness
  rw [if_pos isEligible] at returns
  simp only [bind_eq_ok] at returns
  obtain ⟨again, computesAgain, _, _, product, productChecked, _, _,
    witnessPay, payChecked, deposits⟩ := returns
  cases computes.symm.trans computesAgain
  rw [eq_of_share productChecked] at payChecked
  have isPay :
      witnessPay =
        min computed db.rewardPool
          - wit.votePay (min computed db.rewardPool) :=
    eq_of_share payChecked
  have voteRange : 0 ≤ wit.votePay (min computed db.rewardPool) ∧
      wit.votePay (min computed db.rewardPool)
        ≤ min computed db.rewardPool :=
    votePay_range nonneg
  apply depositWitnessPay_vested _ _ deposits
  · omega
  · exact vests

theorem payTrustNode_solvent (solvent : Solvent db)
    (terms : RewardTerms db pools whole) (within : db.rewardedWeight id ≤ whole)
    (returns : payTrustNode pools whole db id = .ok after) : Solvent after := by
  obtain ⟨wit, found, _⟩ := bind_eq_ok.mp returns
  rw [getWitness_eq_ok] at found
  by_cases isEligible : rewards wit = true
  · have weight := rewardedWeight_of_eligible found isEligible
    obtain ⟨computed, computes, pays⟩ :=
      payTrustNode_pays found isEligible returns
    have isPortion : computed = db.rewardFrom pools whole id := by
      rw [rewardFrom, weight]
      exact rewardPay_eq_portion terms.pools_nonneg terms.pools_lt
        (weight ▸ terms.weights id) (weight ▸ within) terms.whole_pos computes
    have nonneg : 0 ≤ min computed db.rewardPool := by
      rw [isPortion]
      exact le_min (terms.reward_nonneg id) solvent.pool
    have atMost : min computed db.rewardPool ≤ db.rewardPool :=
      min_le_right _ _
    have voteRange : 0 ≤ wit.votePay (min computed db.rewardPool) ∧
        wit.votePay (min computed db.rewardPool)
          ≤ min computed db.rewardPool :=
      votePay_range nonneg
    have inside : id < db.witnesses.length :=
      (List.getElem?_eq_some_iff.mp found).1
    have unpaidAfter := unpaid_of_pays pays
    rw [total_atWitness id _ _ inside] at unpaidAfter
    have vests :=
      payTrustNode_vested found isEligible computes nonneg solvent.vestings
        returns
    apply solvent.of_pays pays vests
    · rw [pays.rewardPool]
      omega
    · intro other
      have before := solvent.votePools other
      rw [pays.votePool, atWitness]
      split
      · omega
      · omega
    · omega
    · intro account
      rw [atAccount]
      split
      · omega
      · omega
  · rw [payTrustNode_of_not found (Bool.eq_false_of_not_eq_true isEligible)
      returns]
    exact solvent

theorem RewardFits.later (fits : RewardFits db pools whole id)
    (terms : SameTerms db after) (same : SameVotes db after) :
    RewardFits after pools whole id := by
  have weight : after.rewardedWeight id = db.rewardedWeight id := by
    rw [rewardedWeight, rewardedWeight, terms.eligible, same.recorded]
  constructor
  · rw [weight]
    exact fits.weight_le
  · rw [weight, terms.headBlockTime]
    exact fits.early
  · rw [terms.rewardFrom pools whole same, terms.commissionRateOf]
    exact fits.commission

/-- What the first loop keeps. -/
structure PaysWitnesses (start db : Database) : Prop where
  terms : SameTerms start db
  votes : SameVotes start db
  solvent : Solvent db

theorem PaysWitnesses.step {start : Database}
    (pays : PaysWitnesses start db) (terms : RewardTerms start pools whole)
    (within : start.rewardedWeight id ≤ whole)
    (returns : payTrustNode pools whole db id = .ok after) :
    PaysWitnesses start after where
  terms := pays.terms.trans (payTrustNode_sameTerms returns)
  votes := pays.votes.trans (payTrustNode_sameVotes returns)
  solvent := by
    apply payTrustNode_solvent pays.solvent
      (terms.later pays.terms pays.votes) _ returns
    rw [rewardedWeight, pays.terms.eligible, pays.votes.recorded]
    exact within

theorem failsOnly_payTrustNodes {wits : List WitnessId}
    (solvent : Solvent db) (terms : RewardTerms db pools whole)
    (fits : ∀ id ∈ wits, RewardFits db pools whole id) :
    FailsOnly isNotFound (wits.foldlM (payTrustNode pools whole) db) := by
  apply @failsOnly_foldlM _ _ _ _ _ (PaysWitnesses db)
  · intro id member before pays
    exact failsOnly_payTrustNode pays.solvent
      (terms.later pays.terms pays.votes)
      ((fits id member).later pays.terms pays.votes)
  · intro id member before after pays returns
    exact pays.step terms (fits id member).weight_le returns
  · exact ⟨.refl db, .refl db, solvent⟩

end Witnesses

def StakeFits (base : Database) (s : Staking) : Prop :=
  s.isValid = true → base.eligible s.trustNode = true →
    base.recordedFor s.trustNode ≠ 0 →
      base.votePool s.trustNode * s.amount.amount < 2 ^ 63 ∧
        base.votePool s.trustNode * s.voteWeights < 2 ^ 63

/-- The recorded votes are `share_type` and not negative. -/
def VotesInRange (db : Database) : Prop :=
  ∀ id, 0 ≤ db.recordedFor id ∧ db.recordedFor id < 2 ^ 63

/-- A stake is not negative, and its weight is a `share_type`. -/
def Staking.InRange (s : Staking) : Prop :=
  0 ≤ s.amount.amount ∧ s.voteWeights < 2 ^ 63

/-- What the second loop keeps; `base` is the database before it. -/
structure PaysStakes (base db : Database) : Prop where
  terms : SameTerms base db
  rewardPool : db.rewardPool = base.rewardPool
  votePools : ∀ id, 0 ≤ db.votePool id
  votes : VotesInRange db
  stakes : ∀ s ∈ db.stakings, s.InRange
  valid : ∀ s ∈ db.stakings, s.isValid = true → s ∈ base.stakings

section Stakes

variable {base db after : Database} {s : Staking} {wit : Witness}

/-- The stake is paid: its witness takes part, and had votes before. -/
theorem voterPaid_cases (terms : SameTerms base db)
    (isPaid :
      db.witnesses[s.trustNode]?.any (voterPaid base.witnesses s) = true) :
    ∃ before,
      base.witnesses[s.trustNode]? = some before ∧
        base.eligible s.trustNode = true ∧
        before.totalVoteWeights ≠ 0 := by
  cases now : db.witnesses[s.trustNode]? with
  | none => simp [now] at isPaid
  | some wit =>
      cases found : base.witnesses[s.trustNode]? with
      | none => simp [now, found, voterPaid] at isPaid
      | some before =>
          simp only [now, found, voterPaid, Option.any_some,
            Bool.and_eq_true, Bool.not_eq_true', decide_eq_true_eq] at isPaid
          refine ⟨before, rfl, ?_, isPaid.2⟩
          rw [← terms.eligible]
          simp [eligible, now, rewards, isPaid.1]

variable {before : Witness} {id : WitnessId}

theorem voterPay_range {pay : Int}
    (isBefore : base.witnesses[s.trustNode]? = some before)
    (poolNonneg : 0 ≤ before.voteRewardPool)
    (weightsNonneg : 0 ≤ before.totalVoteWeights)
    (inRange : s.InRange) (limitNonneg : 0 ≤ wit.voteRewardPool)
    (returns : voterPay base.witnesses s wit = .ok pay) :
    0 ≤ pay ∧ pay ≤ wit.voteRewardPool := by
  rw [voterPay_eq_ok isBefore returns]
  refine ⟨le_min ?_ limitNonneg, min_le_right _ _⟩
  exact Int.tdiv_nonneg
    (Int.mul_nonneg poolNonneg (voteWeights_nonneg inRange.1)) weightsNonneg

theorem failsOnly_voterPay
    (isBefore : base.witnesses[s.trustNode]? = some before)
    (poolNonneg : 0 ≤ before.voteRewardPool)
    (weightsNonneg : 0 ≤ before.totalVoteWeights) (inRange : s.InRange)
    (productFits : before.voteRewardPool * s.amount.amount < 2 ^ 63)
    (weightedFits : before.voteRewardPool * s.voteWeights < 2 ^ 63) :
    FailsOnly isNotFound (voterPay base.witnesses s wit) := by
  have productNonneg := Int.mul_nonneg poolNonneg inRange.1
  have weightedNonneg :=
    Int.mul_nonneg poolNonneg (voteWeights_nonneg inRange.1)
  unfold voterPay
  apply failsOnly_bind (failsOnly_missing _)
  intro stored isStored
  rw [orThrow_eq_ok] at isStored
  cases isBefore.symm.trans isStored
  apply failsOnly_bind
  · apply failsOnly_share
    · omega
    · exact productFits
  intro product productChecked
  have isWeighted :
      product * (s.weight.toNat : Int) =
        before.voteRewardPool * s.voteWeights := by
    rw [eq_of_share productChecked, Int.mul_assoc]
    rfl
  rw [isWeighted]
  apply failsOnly_bind
  · apply failsOnly_share
    · omega
    · exact weightedFits
  intro weighted weightedChecked
  rw [eq_of_share weightedChecked]
  have quotientNonneg := Int.tdiv_nonneg weightedNonneg weightsNonneg
  have quotientLe :
      (before.voteRewardPool * s.voteWeights).tdiv before.totalVoteWeights
        ≤ before.voteRewardPool * s.voteWeights :=
    Int.tdiv_le_self _ weightedNonneg
  apply failsOnly_bind
  · apply failsOnly_share
    · omega
    · omega
  intro _ _
  exact failsOnly_ok _

structure StakePaid (base : Database) (s : Staking) (before : Witness) :
    Prop where
  isBefore : base.witnesses[s.trustNode]? = some before
  pool_nonneg : 0 ≤ before.voteRewardPool
  weights_nonneg : 0 ≤ before.totalVoteWeights
  inRange : s.InRange

theorem failsOnly_payVoter
    (paid : StakePaid base s before) (solvent : Solvent db)
    (productFits : before.voteRewardPool * s.amount.amount < 2 ^ 63)
    (weightedFits : before.voteRewardPool * s.voteWeights < 2 ^ 63) :
    FailsOnly isNotFound (db.payVoter base.witnesses s) := by
  unfold payVoter
  apply failsOnly_bind (failsOnly_missing _)
  intro wit found
  rw [orThrow_eq_ok] at found
  have poolNonneg := solvent.votePools s.trustNode
  have poolLe := solvent.votePools_le s.trustNode
  have rewardPoolNonneg := solvent.pool
  have unpaidLe := solvent.unpaid_le
  have vestedLe := solvent.vested s.owner
  unfold GRAPHENE_MAX_SHARE_SUPPLY at unpaidLe vestedLe
  rw [votePool_of_found found] at poolNonneg poolLe
  apply failsOnly_bind
    (failsOnly_voterPay paid.isBefore paid.pool_nonneg paid.weights_nonneg
      paid.inRange productFits weightedFits)
  intro pay computes
  obtain ⟨payNonneg, payLe⟩ :=
    voterPay_range paid.isBefore paid.pool_nonneg paid.weights_nonneg
      paid.inRange poolNonneg computes
  split
  · apply failsOnly_bind
    · apply failsOnly_stakingCashback solvent.late solvent.vestings
        payNonneg
      omega
    intro credited credits
    apply failsOnly_bind (failsOnly_missing _)
    intro again isAgain
    rw [orThrow_eq_ok] at isAgain
    have samePool : again.voteRewardPool = wit.voteRewardPool := by
      rw [← votePool_of_found isAgain, ← votePool_of_found found,
        (stakingCashback_pays credits).votePool, Int.add_zero]
    apply failsOnly_bind
    · apply failsOnly_share
      · omega
      · omega
    intro _ _
    exact failsOnly_ok _
  · exact failsOnly_ok _

theorem failsOnly_handlingExpiredStaking
    (votes : VotesInRange db) (inRange : s.InRange) :
    FailsOnly isNotFound (db.handlingExpiredStaking s id) := by
  unfold handlingExpiredStaking
  split
  · unfold reduceVoteWeights
    apply failsOnly_bind (failsOnly_missing _)
    intro wit found
    rw [orThrow_eq_ok] at found
    have recorded : db.recordedFor id = wit.totalVoteWeights :=
      recordedFor_of_found found
    have votesInRange := votes id
    rw [recorded] at votesInRange
    have weightNonneg := voteWeights_nonneg inRange.1
    have weightLt := inRange.2
    apply failsOnly_bind
    · apply failsOnly_share
      · omega
      · exact weightLt
    intro weights weightsChecked
    rw [eq_of_share weightsChecked]
    apply failsOnly_bind
    · apply failsOnly_share
      · omega
      · omega
    intro _ _
    exact failsOnly_ok _
  · exact failsOnly_ok _

theorem SameVotes.votesInRange (same : SameVotes db after)
    (votes : VotesInRange db) : VotesInRange after := by
  intro id
  rw [same.recorded]
  exact votes id

/-- Votes that are taken away are taken from those that are there. -/
theorem reduceVoteWeights_votesInRange
    (returns : db.reduceVoteWeights id s = .ok after)
    (inRange : s.InRange) (votes : VotesInRange db) : VotesInRange after := by
  obtain ⟨wit, found, rfl⟩ := reduceVoteWeights_eq_ok returns
  intro other
  have weightNonneg := voteWeights_nonneg inRange.1
  have before := votes id
  rw [recordedFor_of_found found] at before
  rw [recordedFor_setWitness _ found]
  split
  · dsimp only
    omega
  · exact votes other

theorem handlingExpiredStaking_keeps
    (pays : PaysStakes base db) (inRange : s.InRange)
    (returns : db.handlingExpiredStaking s s.trustNode = .ok after) :
    PaysStakes base after := by
  have paysNothing := handlingExpiredStaking_pays returns
  have rewardPool : after.rewardPool = base.rewardPool := by
    rw [paysNothing.rewardPool, Int.add_zero]
    exact pays.rewardPool
  have votePools : ∀ id, 0 ≤ after.votePool id := by
    intro id
    rw [paysNothing.votePool, Int.add_zero]
    exact pays.votePools id
  unfold handlingExpiredStaking at returns
  split at returns
  · have votes := reduceVoteWeights_votesInRange returns inRange pays.votes
    obtain ⟨wit, found, rfl⟩ := reduceVoteWeights_eq_ok returns
    refine ⟨pays.terms.trans paysNothing.toSameTerms, rewardPool, votePools,
      votes, ?_, ?_⟩
    · exact forall_replaceFirst pays.stakes inRange
    · apply forall_replaceFirst pays.valid
      intro isValid
      cases isValid
  · cases returns
    exact pays

theorem handlingExpiredStaking_solvent (solvent : Solvent db)
    (returns : db.handlingExpiredStaking s id = .ok after) : Solvent after := by
  have paysNothing := handlingExpiredStaking_pays returns
  have unpaid := unpaid_of_pays paysNothing
  rw [total_eq_zero fun _ _ => rfl] at unpaid
  have vests : Vests after := by
    unfold handlingExpiredStaking at returns
    split at returns
    · obtain ⟨wit, found, rfl⟩ := reduceVoteWeights_eq_ok returns
      exact solvent.vestings
    · cases returns
      exact solvent.vestings
  apply solvent.of_pays paysNothing vests
  · rw [paysNothing.rewardPool, Int.add_zero]
    exact solvent.pool
  · intro other
    rw [paysNothing.votePool, Int.add_zero]
    exact solvent.votePools other
  · omega
  · intro _
    omega

theorem payVoter_range
    (paid : StakePaid base s before) (votePools : ∀ id, 0 ≤ db.votePool id)
    (returns : db.payVoter base.witnesses s = .ok after) :
    ∃ wit pay,
      db.witnesses[s.trustNode]? = some wit ∧
        voterPay base.witnesses s wit = .ok pay ∧ 0 ≤ pay ∧
        pay ≤ db.votePool s.trustNode ∧
        Pays db after 0 (atWitness s.trustNode (-pay))
          (atAccount s.owner pay) := by
  obtain ⟨wit, found, _⟩ := bind_eq_ok.mp returns
  rw [getWitness_eq_ok] at found
  obtain ⟨pay, computes, pays⟩ := payVoter_pays found returns
  have poolNonneg := votePools s.trustNode
  rw [votePool_of_found found] at poolNonneg
  obtain ⟨payNonneg, payLe⟩ :=
    voterPay_range paid.isBefore paid.pool_nonneg paid.weights_nonneg
      paid.inRange poolNonneg computes
  rw [← votePool_of_found found] at payLe
  exact ⟨wit, pay, found, computes, payNonneg, payLe, pays⟩

theorem votePools_of_pays {pay : Int} {vested : AccountId → Int}
    (votePools : ∀ id, 0 ≤ db.votePool id) (payLe : pay ≤ db.votePool id)
    (pays : Pays db after 0 (atWitness id (-pay)) vested) (other : WitnessId) :
    0 ≤ after.votePool other := by
  have before := votePools other
  rw [pays.votePool, atWitness]
  split
  · next here =>
      rw [here]
      omega
  · omega

theorem payVoter_keeps
    (pays : PaysStakes base db) (paid : StakePaid base s before)
    (returns : db.payVoter base.witnesses s = .ok after) :
    PaysStakes base after := by
  have same := payVoter_sameVotes returns
  obtain ⟨wit, pay, _, _, _, payLe, paysOut⟩ :=
    payVoter_range paid pays.votePools returns
  refine ⟨pays.terms.trans paysOut.toSameTerms, ?_,
    votePools_of_pays pays.votePools payLe paysOut,
    same.votesInRange pays.votes, ?_, ?_⟩
  · rw [paysOut.rewardPool, Int.add_zero]
    exact pays.rewardPool
  · rw [same.stakings]
    exact pays.stakes
  · rw [same.stakings]
    exact pays.valid

theorem payVoter_solvent (solvent : Solvent db) (paid : StakePaid base s before)
    (returns : db.payVoter base.witnesses s = .ok after) : Solvent after := by
  obtain ⟨wit, pay, found, computes, payNonneg, payLe, paysOut⟩ :=
    payVoter_range paid solvent.votePools returns
  have inside : s.trustNode < db.witnesses.length :=
    (List.getElem?_eq_some_iff.mp found).1
  have unpaid := unpaid_of_pays paysOut
  rw [total_atWitness s.trustNode _ _ inside] at unpaid
  have vests : Vests after := by
    simp only [payVoter, bind_eq_ok, getWitness_eq_ok] at returns
    obtain ⟨witness, isWitness, again, computesAgain, returns⟩ := returns
    cases found.symm.trans isWitness
    cases computes.symm.trans computesAgain
    split at returns
    · simp only [bind_eq_ok] at returns
      obtain ⟨credited, credits, _, _, _, _, returns⟩ := returns
      cases returns
      have vested := stakingCashback_vested payNonneg solvent.vestings credits
      exact vested
    · cases returns
      exact solvent.vestings
  apply solvent.of_pays paysOut vests
  · rw [paysOut.rewardPool, Int.add_zero]
    exact solvent.pool
  · exact votePools_of_pays solvent.votePools payLe paysOut
  · omega
  · intro account
    rw [atAccount]
    split
    · omega
    · omega

theorem PaysStakes.stakePaid
    (pays : PaysStakes base db) (poolsBefore : ∀ id, 0 ≤ base.votePool id)
    (votesBefore : VotesInRange base) (member : s ∈ db.stakings)
    (isPaid :
      db.witnesses[s.trustNode]?.any (voterPaid base.witnesses s) = true) :
    ∃ before,
      StakePaid base s before ∧ base.eligible s.trustNode = true ∧
        base.recordedFor s.trustNode ≠ 0 := by
  obtain ⟨before, isBefore, isEligible, nonzero⟩ :=
    voterPaid_cases pays.terms isPaid
  refine ⟨before, ⟨isBefore, ?_, ?_, pays.stakes s member⟩, isEligible, ?_⟩
  · rw [← votePool_of_found isBefore]
    exact poolsBefore s.trustNode
  · rw [← recordedFor_of_found isBefore]
    exact (votesBefore s.trustNode).1
  · rw [recordedFor_of_found isBefore]
    exact nonzero

theorem failsOnly_visitStaking {id : Nat} (pays : PaysStakes base db)
    (solvent : Solvent db) (poolsBefore : ∀ id, 0 ≤ base.votePool id)
    (votesBefore : VotesInRange base)
    (fits : ∀ s ∈ base.stakings, StakeFits base s) :
    FailsOnly isNotFound (visitStaking base.witnesses db id) := by
  unfold visitStaking
  split
  · exact failsOnly_ok _
  · next s found =>
      have member := mem_of_findStaking found
      split
      · next valid =>
          unfold visitValidStaking
          split
          · next isPaid =>
              obtain ⟨before, paid, isEligible, nonzero⟩ :=
                pays.stakePaid poolsBefore votesBefore member isPaid
              obtain ⟨productFits, weightedFits⟩ :=
                fits s (pays.valid s member valid) valid isEligible nonzero
              rw [votePool_of_found paid.isBefore] at productFits weightedFits
              apply failsOnly_bind
                (failsOnly_payVoter paid solvent productFits weightedFits)
              intro credited credits
              exact failsOnly_handlingExpiredStaking
                (payVoter_keeps pays paid credits).votes paid.inRange
          · split
            · exact failsOnly_handlingExpiredStaking pays.votes
                (pays.stakes s member)
            · exact failsOnly_ok _
      · exact failsOnly_ok _

/-- A round of the second loop pays a stake, or nothing, and then looks at its
expiry, or does not. -/
theorem visitStaking_cases {id : Nat} (pays : PaysStakes base db)
    (poolsBefore : ∀ id, 0 ≤ base.votePool id) (votesBefore : VotesInRange base)
    (returns : visitStaking base.witnesses db id = .ok after) :
    after = db ∨
      ∃ s ∈ db.stakings,
        db.handlingExpiredStaking s s.trustNode = .ok after ∨
          ∃ before middle,
            StakePaid base s before ∧
              db.payVoter base.witnesses s = .ok middle ∧
              middle.handlingExpiredStaking s s.trustNode = .ok after := by
  unfold visitStaking at returns
  split at returns
  · cases returns
    exact .inl rfl
  · next s found =>
      have member := mem_of_findStaking found
      split at returns
      · unfold visitValidStaking at returns
        split at returns
        · next isPaid =>
            obtain ⟨before, paid, _, _⟩ :=
              pays.stakePaid poolsBefore votesBefore member isPaid
            obtain ⟨middle, credits, handles⟩ := bind_eq_ok.mp returns
            exact .inr ⟨s, member, .inr ⟨before, middle, paid, credits,
              handles⟩⟩
        · split at returns
          · exact .inr ⟨s, member, .inl returns⟩
          · cases returns
            exact .inl rfl
      · cases returns
        exact .inl rfl

theorem visitStaking_keeps {id : Nat} (pays : PaysStakes base db)
    (poolsBefore : ∀ id, 0 ≤ base.votePool id) (votesBefore : VotesInRange base)
    (returns : visitStaking base.witnesses db id = .ok after) :
    PaysStakes base after := by
  rcases visitStaking_cases pays poolsBefore votesBefore returns with
    same | ⟨s, member, handles | ⟨before, middle, paid, credits, handles⟩⟩
  · rw [same]
    exact pays
  · exact handlingExpiredStaking_keeps pays (pays.stakes s member) handles
  · exact handlingExpiredStaking_keeps (payVoter_keeps pays paid credits)
      paid.inRange handles

theorem visitStaking_solvent {id : Nat} (pays : PaysStakes base db)
    (solvent : Solvent db) (poolsBefore : ∀ id, 0 ≤ base.votePool id)
    (votesBefore : VotesInRange base)
    (returns : visitStaking base.witnesses db id = .ok after) :
    Solvent after := by
  rcases visitStaking_cases pays poolsBefore votesBefore returns with
    same | ⟨s, _, handles | ⟨before, middle, paid, credits, handles⟩⟩
  · rw [same]
    exact solvent
  · exact handlingExpiredStaking_solvent solvent handles
  · exact handlingExpiredStaking_solvent
      (payVoter_solvent solvent paid credits) handles

theorem failsOnly_visitStakings {ids : List Nat} (solvent : Solvent base)
    (votes : VotesInRange base) (stakes : ∀ s ∈ base.stakings, s.InRange)
    (fits : ∀ s ∈ base.stakings, StakeFits base s) :
    FailsOnly isNotFound
      (ids.foldlM (visitStaking base.witnesses) base) := by
  apply @failsOnly_foldlM _ _ _ _ _ fun db => PaysStakes base db ∧ Solvent db
  · intro id _ before kept
    exact failsOnly_visitStaking kept.1 kept.2 solvent.votePools votes fits
  · intro id _ before after kept returns
    exact ⟨visitStaking_keeps kept.1 solvent.votePools votes returns,
      visitStaking_solvent kept.1 kept.2 solvent.votePools votes returns⟩
  · exact ⟨⟨.refl base, rfl, solvent.votePools, votes, stakes,
      fun _ member _ => member⟩, solvent⟩

end Stakes

end GxbCore.Ledger
