import GxbCore.Ledger.HolderOps

/-!
# Linear vesting

A linear vesting balance lets its owner withdraw what has vested by now and was
not withdrawn before.  The amount withdrawn is not stored: it is what the balance
lacks of `begin_balance`.  Since what has vested only grows with time, the
difference is never negative, whatever was withdrawn before.
-/

namespace GxbCore.Ledger

namespace LinearVestingPolicy

variable {policy : LinearVestingPolicy}

/-- The seconds since the begin, none before it. -/
def elapsed (policy : LinearVestingPolicy) (now : Time) : Nat :=
  now.toNat - policy.beginTimestamp.toNat

def vested (policy : LinearVestingPolicy) (seconds : Nat) : Int :=
  if seconds < policy.vestingDurationSeconds.toNat then
    policy.beginBalance * seconds / policy.vestingDurationSeconds.toNat
  else
    policy.beginBalance

def released (policy : LinearVestingPolicy) (now : Time) : Int :=
  if policy.beginTimestamp < now ∧
      policy.vestingCliffSeconds.toNat ≤ policy.elapsed now then
    policy.vested (policy.elapsed now)
  else
    0

theorem elapsed_mono {before now : Time} (later : before ≤ now) :
    policy.elapsed before ≤ policy.elapsed now := by
  have order := UInt32.le_iff_toNat_le.mp later
  unfold elapsed
  omega

theorem vested_nonneg (nonneg : 0 ≤ policy.beginBalance) (seconds : Nat) :
    0 ≤ policy.vested seconds := by
  unfold vested
  split
  · exact Int.ediv_nonneg (Int.mul_nonneg nonneg (by omega)) (by omega)
  · exact nonneg

theorem vested_le (nonneg : 0 ≤ policy.beginBalance) (seconds : Nat) :
    policy.vested seconds ≤ policy.beginBalance := by
  unfold vested
  split
  · rename_i early
    have positive : (0 : Int) < policy.vestingDurationSeconds.toNat := by
      omega
    rw [Int.ediv_le_iff_le_mul positive]
    have product :
        policy.beginBalance * seconds ≤
          policy.beginBalance * policy.vestingDurationSeconds.toNat :=
      Int.mul_le_mul_of_nonneg_left (by omega) nonneg
    omega
  · exact Int.le_refl _

theorem vested_mono (nonneg : 0 ≤ policy.beginBalance)
    {before seconds : Nat} (later : before ≤ seconds) :
    policy.vested before ≤ policy.vested seconds := by
  by_cases early : seconds < policy.vestingDurationSeconds.toNat
  · unfold vested
    rw [if_pos early, if_pos (by omega)]
    apply Int.ediv_le_ediv (by omega)
    exact Int.mul_le_mul_of_nonneg_left (by omega) nonneg
  · have whole : policy.vested seconds = policy.beginBalance :=
      if_neg early
    rw [whole]
    exact vested_le nonneg before

theorem released_nonneg (nonneg : 0 ≤ policy.beginBalance) (now : Time) :
    0 ≤ policy.released now := by
  unfold released
  split
  · exact vested_nonneg nonneg _
  · exact Int.le_refl _

theorem released_le (nonneg : 0 ≤ policy.beginBalance) (now : Time) :
    policy.released now ≤ policy.beginBalance := by
  unfold released
  split
  · exact vested_le nonneg _
  · exact nonneg

theorem released_le_vested (nonneg : 0 ≤ policy.beginBalance) (now : Time) :
    policy.released now ≤ policy.vested (policy.elapsed now) := by
  unfold released
  split
  · exact Int.le_refl _
  · exact vested_nonneg nonneg _

theorem released_mono (nonneg : 0 ≤ policy.beginBalance)
    {before now : Time} (later : before ≤ now) :
    policy.released before ≤ policy.released now := by
  by_cases begun :
      policy.beginTimestamp < before ∧
        policy.vestingCliffSeconds.toNat ≤ policy.elapsed before
  · have elapses := @elapsed_mono policy before now later
    have stillBegun :
        policy.beginTimestamp < now ∧
          policy.vestingCliffSeconds.toNat ≤ policy.elapsed now :=
      ⟨UInt32.lt_of_lt_of_le begun.1 later, by omega⟩
    unfold released
    rw [if_pos begun, if_pos stillBegun]
    exact vested_mono nonneg elapses
  · have none : policy.released before = 0 := if_neg begun
    rw [none]
    exact released_nonneg nonneg now

/-- The product in 128 bits and its quotient are exact. -/
theorem vested_exact (nonneg : 0 ≤ policy.beginBalance)
    (small : policy.beginBalance < 2 ^ 63) {seconds : Nat}
    (early : seconds < policy.vestingDurationSeconds.toNat) :
    toUint64
        (uint128 (uint128 policy.beginBalance * seconds) /
          policy.vestingDurationSeconds.toNat) =
      .ok (policy.vested seconds) ∧
    int64 (policy.vested seconds) = policy.vested seconds := by
  have duration := policy.vestingDurationSeconds.toNat_lt
  have low := vested_nonneg nonneg seconds
  have high := vested_le nonneg seconds
  have product : 0 ≤ policy.beginBalance * seconds :=
    Int.mul_nonneg nonneg (by omega)
  have bound : policy.beginBalance * seconds < 2 ^ 63 * 2 ^ 32 := by
    calc policy.beginBalance * seconds
        ≤ policy.beginBalance * 2 ^ 32 :=
          Int.mul_le_mul_of_nonneg_left (by omega) nonneg
      _ < 2 ^ 63 * 2 ^ 32 := by omega
  have isVested :
      policy.vested seconds =
        policy.beginBalance * seconds /
          policy.vestingDurationSeconds.toNat :=
    if_pos early
  refine ⟨?_, int64_of_range (by omega) (by omega)⟩
  have exactBalance : uint128 policy.beginBalance = policy.beginBalance :=
    Int.emod_eq_of_lt nonneg (by omega)
  have exactProduct :
      uint128 (policy.beginBalance * seconds) =
        policy.beginBalance * seconds :=
    Int.emod_eq_of_lt product (by omega)
  rw [exactBalance, exactProduct, ← isVested]
  unfold toUint64
  have fits : policy.vested seconds < 2 ^ 64 := by omega
  simp only [fcAssert, require, fits, if_true]
  rfl

/-- What may be withdrawn now, when no more was withdrawn than is released. -/
theorem getAllowedWithdraw_eq {balance : Asset} {now : Time}
    (nonneg : 0 ≤ policy.beginBalance) (small : policy.beginBalance < 2 ^ 63)
    (left : 0 ≤ balance.amount) (notMore : balance.amount ≤ policy.beginBalance)
    (covered : policy.beginBalance - balance.amount ≤ policy.released now) :
    policy.getAllowedWithdraw balance now =
      .ok
        ⟨policy.released now - (policy.beginBalance - balance.amount),
          balance.assetId⟩ := by
  have shareOf :
      ∀ value : Int, 0 ≤ value → value < 2 ^ 63 → share value = .ok value := by
    intro value low high
    unfold share
    rw [if_pos ⟨by omega, high⟩]
  have high := @released_le policy nonneg now
  have low := @released_nonneg policy nonneg now
  have subtracts :
      (do
        let withdrawnAlready ← share (policy.beginBalance - balance.amount)
        let allowed ← share (policy.released now - withdrawnAlready)
        pure (⟨allowed, balance.assetId⟩ : Asset)) =
        .ok
          ⟨policy.released now - (policy.beginBalance - balance.amount),
            balance.assetId⟩ := by
    refine bind_eq_ok.mpr ⟨_, shareOf _ (by omega) (by omega), ?_⟩
    exact bind_eq_ok.mpr ⟨_, shareOf _ (by omega) (by omega), rfl⟩
  by_cases begun :
      policy.beginTimestamp < now ∧
        policy.vestingCliffSeconds.toNat ≤ policy.elapsed now
  · have isReleased :
        policy.released now = policy.vested (policy.elapsed now) :=
      if_pos begun
    have order := UInt32.lt_iff_toNat_lt.mp begun.1
    have seconds :
        secondsSince now policy.beginTimestamp = policy.elapsed now := by
      unfold secondsSince elapsed
      omega
    have cliff :
        (policy.vestingCliffSeconds.toNat : Int) ≤
          policy.elapsed now := by
      have := begun.2
      omega
    unfold getAllowedWithdraw
    rw [if_pos begun.1]
    simp only [seconds, cliff, if_true]
    by_cases early :
        policy.elapsed now < policy.vestingDurationSeconds.toNat
    · obtain ⟨exactVested, inRange⟩ := vested_exact nonneg small early
      have earlyInt :
          (policy.elapsed now : Int) <
            policy.vestingDurationSeconds.toNat := by
        omega
      simp only [earlyInt, if_true, exactVested]
      refine bind_eq_ok.mpr ⟨_, rfl, bind_eq_ok.mpr ⟨_, rfl, ?_⟩⟩
      rw [inRange, ← isReleased]
      exact subtracts
    · have lateInt :
          ¬ (policy.elapsed now : Int) <
            policy.vestingDurationSeconds.toNat := by
        omega
      have whole : policy.vested (policy.elapsed now) =
          policy.beginBalance :=
        if_neg early
      simp only [lateInt, if_false]
      refine bind_eq_ok.mpr ⟨_, rfl, ?_⟩
      rw [isReleased, whole] at subtracts ⊢
      exact subtracts
  · have none : policy.released now = 0 := if_neg begun
    have untouched : balance.amount = policy.beginBalance := by omega
    rw [none, untouched, Int.sub_self, Int.sub_zero]
    unfold getAllowedWithdraw
    by_cases started : policy.beginTimestamp < now
    · have order := UInt32.lt_iff_toNat_lt.mp started
      have seconds :
          secondsSince now policy.beginTimestamp = policy.elapsed now := by
        unfold secondsSince elapsed
        omega
      have beforeCliff :
          ¬ (policy.vestingCliffSeconds.toNat : Int) ≤
            policy.elapsed now := by
        intro reached
        exact begun ⟨started, by omega⟩
      rw [if_pos started]
      simp only [seconds, beforeCliff, if_false]
    · rw [if_neg started]

theorem isWithdrawAllowed_eq_true {balance amount allowed : Asset} {now : Time}
    (allows : policy.getAllowedWithdraw balance now = .ok allowed)
    (isAllowed : policy.isWithdrawAllowed balance now amount = .ok true) :
    amount.amount ≤ allowed.amount := by
  unfold isWithdrawAllowed at isAllowed
  split at isAllowed
  · rw [allows] at isAllowed
    obtain ⟨_, found, isAllowed⟩ := bind_eq_ok.mp isAllowed
    obtain rfl := Except.ok.inj found
    exact Asset.amount_le isAllowed
  · cases isAllowed

end LinearVestingPolicy

/-- The balance that `vesting_balance_create` makes under a linear policy. -/
def linearVesting (owner : AccountId) (amount : Asset)
    (beginTimestamp : Time) (cliff duration : UInt32) (now : Time) :
    VestingBalance where
  owner := owner
  balance := amount
  policy :=
    (VestingPolicyInitializer.linear beginTimestamp cliff duration).init
      amount.amount now

/-- The balance after allowed withdrawals at non-decreasing times, the last one
at `last`, and what was withdrawn in all. -/
inductive Withdrawals (start : VestingBalance) (created : Time) :
    Time → Int → VestingBalance → Prop
  | start : Withdrawals start created created 0 start
  | withdraw {last now : Time} {total : Int} {vbo after : VestingBalance}
      {amount : Asset} (run : Withdrawals start created last total vbo)
      (later : last ≤ now) (positive : 0 < amount.amount)
      (isAllowed : vbo.isWithdrawAllowed now amount = .ok true)
      (returns : vbo.withdraw now amount = .ok after) :
      Withdrawals start created now (total + amount.amount) after

section Runs

variable {owner : AccountId} {amount : Asset} {beginTimestamp : Time}
  {cliff duration : UInt32} {created last : Time} {total : Int}
  {vbo : VestingBalance}

/-- The policy of `linearVesting`. -/
def linearPolicy (amount : Asset) (beginTimestamp : Time)
    (cliff duration : UInt32) : LinearVestingPolicy :=
  ⟨beginTimestamp, cliff, duration, amount.amount⟩

/-- The invariant: the balance lacks what was withdrawn, and no more was
withdrawn than had vested. -/
structure LinearOk (policy : LinearVestingPolicy) (assetId : AssetId)
    (last : Time) (total : Int) (vbo : VestingBalance) : Prop where
  isPolicy : vbo.policy = .linear policy
  asset : vbo.balance.assetId = assetId
  balance : vbo.balance.amount = policy.beginBalance - total
  nonneg : 0 ≤ total
  covered : total ≤ policy.released last

theorem LinearOk.allowed {policy : LinearVestingPolicy} {assetId : AssetId}
    {now : Time} (ok : LinearOk policy assetId last total vbo)
    (nonneg : 0 ≤ policy.beginBalance)
    (small : policy.beginBalance < 2 ^ 63) (later : last ≤ now) :
    policy.getAllowedWithdraw vbo.balance now =
      .ok ⟨policy.released now - total, assetId⟩ := by
  have covered := ok.covered
  have balance := ok.balance
  have below := @LinearVestingPolicy.released_le policy nonneg last
  have grows := LinearVestingPolicy.released_mono nonneg later
  have allows :=
    @LinearVestingPolicy.getAllowedWithdraw_eq policy vbo.balance now nonneg
      small (by omega) (by have := ok.nonneg; omega) (by omega)
  rw [allows, ok.asset, balance]
  congr 2
  omega

theorem Withdrawals.ok
    (run :
      Withdrawals (linearVesting owner amount beginTimestamp cliff duration
        created) created last total vbo)
    (nonneg : 0 ≤ amount.amount) (small : amount.amount < 2 ^ 63) :
    LinearOk (linearPolicy amount beginTimestamp cliff duration)
      amount.assetId last total vbo := by
  induction run with
  | start =>
      exact
        { isPolicy := rfl
          asset := rfl
          balance := by
            rw [Int.sub_zero]
            rfl
          nonneg := Int.le_refl 0
          covered := LinearVestingPolicy.released_nonneg nonneg created }
  | withdraw run later positive isAllowed returns ih =>
      have allows := ih.allowed nonneg small later
      unfold VestingBalance.isWithdrawAllowed at isAllowed
      rw [ih.isPolicy] at isAllowed
      have bound :=
        LinearVestingPolicy.isWithdrawAllowed_eq_true allows isAllowed
      obtain ⟨sameAsset, balance⟩ :=
        VestingBalance.withdraw_balance returns
      have covered := ih.covered
      have left := ih.balance
      have nonnegTotal := ih.nonneg
      simp only at bound
      refine
        { isPolicy := ?_
          asset := ?_
          balance := ?_
          nonneg := by omega
          covered := by omega }
      · rw [VestingBalance.withdraw_policy returns,
          ih.isPolicy]
        rfl
      · rw [balance, ← sameAsset, ih.asset]
      · rw [balance]
        simp only
        omega

/-- The schedule in every run: what is allowed lies between nothing and the
balance, nothing before the cliff and all of it at the end, and no more was ever
withdrawn than the rounded share of the time that has passed. -/
theorem linear_vesting_schedule {now : Time}
    (run :
      Withdrawals (linearVesting owner amount beginTimestamp cliff duration
        created) created last total vbo)
    (positive : 0 < amount.amount) (small : amount.amount < 2 ^ 63)
    (later : last ≤ now) :
    ∃ allowed,
      vbo.getAllowedWithdraw now = .ok ⟨allowed, amount.assetId⟩ ∧
      0 ≤ allowed ∧ allowed ≤ vbo.balance.amount ∧
      (now.toNat < beginTimestamp.toNat + cliff.toNat → allowed = 0) ∧
      (0 < duration.toNat →
        total ≤
          amount.amount *
              (min (now.toNat - beginTimestamp.toNat)
                duration.toNat : Nat) / duration.toNat) ∧
      (beginTimestamp < now →
        beginTimestamp.toNat + max cliff.toNat duration.toNat ≤
          now.toNat →
        allowed = vbo.balance.amount) := by
  have nonneg : 0 ≤ amount.amount := Int.le_of_lt positive
  have ok := run.ok nonneg small
  generalize isPolicy :
    linearPolicy amount beginTimestamp cliff duration = policy at ok
  have begins : policy.beginTimestamp = beginTimestamp := by
    rw [← isPolicy]
    rfl
  have cliffIs : policy.vestingCliffSeconds = cliff := by
    rw [← isPolicy]
    rfl
  have durationIs : policy.vestingDurationSeconds = duration := by
    rw [← isPolicy]
    rfl
  have whole : policy.beginBalance = amount.amount := by
    rw [← isPolicy]
    rfl
  have nonnegPolicy : 0 ≤ policy.beginBalance := by omega
  have grows := LinearVestingPolicy.released_mono nonnegPolicy later
  have most := LinearVestingPolicy.released_le nonnegPolicy now
  have covered := ok.covered
  have withdrawn := ok.nonneg
  have left := ok.balance
  refine
    ⟨policy.released now - total, ?_, by omega, by omega, ?_, ?_, ?_⟩
  · unfold VestingBalance.getAllowedWithdraw
    rw [ok.isPolicy]
    exact ok.allowed nonnegPolicy (by omega) later
  · intro beforeCliff
    have none : policy.released now = 0 := by
      apply if_neg
      rintro ⟨begun, reached⟩
      rw [begins, UInt32.lt_iff_toNat_lt] at begun
      rw [cliffIs] at reached
      unfold LinearVestingPolicy.elapsed at reached
      rw [begins] at reached
      omega
    omega
  · intro lasts
    have share :=
      LinearVestingPolicy.released_le_vested nonnegPolicy now
    have isShare :
        policy.vested (policy.elapsed now) =
          amount.amount *
              (min (now.toNat - beginTimestamp.toNat)
                duration.toNat : Nat) / duration.toNat := by
      unfold LinearVestingPolicy.vested LinearVestingPolicy.elapsed
      rw [durationIs, begins, whole]
      split
      · rename_i early
        rw [Nat.min_eq_left (Nat.le_of_lt early)]
      · rename_i late
        rw [Nat.min_eq_right (Nat.le_of_not_lt late),
          Int.mul_ediv_cancel _ (by omega)]
    omega
  · intro begun reached
    have order := UInt32.lt_iff_toNat_lt.mp begun
    have isReleased :
        policy.released now = policy.vested (policy.elapsed now) := by
      apply if_pos
      rw [begins, cliffIs]
      refine ⟨begun, ?_⟩
      unfold LinearVestingPolicy.elapsed
      rw [begins]
      omega
    have all : policy.vested (policy.elapsed now) = policy.beginBalance := by
      apply if_neg
      unfold LinearVestingPolicy.elapsed
      rw [begins, durationIs]
      omega
    omega

def tenSeconds : VestingBalance :=
  linearVesting 7 ⟨100, 1⟩ 1000 4 10 900

/-- After five seconds half of it is allowed. -/
theorem linear_vesting_schedule_half :
    tenSeconds.getAllowedWithdraw 1005 = .ok ⟨50, 1⟩ ∧
    ∃ allowed,
      tenSeconds.getAllowedWithdraw 1005 = .ok ⟨allowed, 1⟩ ∧
      0 ≤ allowed ∧ allowed ≤ 100 := by
  refine ⟨by decide, ?_⟩
  obtain ⟨allowed, returns, low, high, _⟩ :=
    @linear_vesting_schedule 7 ⟨100, 1⟩ 1000 4 10 900 900 0 tenSeconds 1005
      .start (by decide) (by decide) (by decide)
  exact ⟨allowed, returns, low, high⟩

/-- Without cliff and duration nothing is allowed at the very begin. -/
theorem nothing_allowed_at_begin :
    Withdrawals (linearVesting 7 ⟨100, 1⟩ 1000 0 0 900) 900 900 0
      (linearVesting 7 ⟨100, 1⟩ 1000 0 0 900) ∧
    (linearVesting 7 ⟨100, 1⟩ 1000 0 0 900).getAllowedWithdraw 1000 =
      .ok ⟨0, 1⟩ ∧
    (linearVesting 7 ⟨100, 1⟩ 1000 0 0 900).getAllowedWithdraw 1001 =
      .ok ⟨100, 1⟩ :=
  ⟨.start, by decide, by decide⟩

end Runs

end GxbCore.Ledger
