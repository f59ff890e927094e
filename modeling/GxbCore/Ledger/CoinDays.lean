import GxbCore.Ledger.HolderOps

/-!
# Coin days

A balance under a `cdd_vesting_policy` earns coin seconds, at most the balance
times the vesting period.  They are brought up to date at every deposit and
withdrawal, with the balance from before; a withdrawal spends its amount times
the period, a vested deposit adds as many.

The last product is formed in 64 bits, here and where a vested balance is
created, and the creation does not take the period of zero seconds for one
second.  `Fits` and `LazyFits` are the deposits for which this makes no
difference.
-/

namespace GxbCore.Ledger

namespace CddVestingPolicy

variable {policy : CddVestingPolicy} {balance : Asset} {last now : Time}

theorem period_pos (policy : CddVestingPolicy) : 0 < policy.period := by
  unfold period
  omega

theorem period_le (policy : CddVestingPolicy) : policy.period < 2 ^ 32 := by
  have := policy.vestingSeconds.toNat_lt
  unfold period
  omega

/-- The invariant: the coin seconds are at most the balance times the period. -/
structure Earned (policy : CddVestingPolicy) (balance : Int)
    (last : Time) : Prop where
  nonneg : 0 ≤ balance
  small : balance < 2 ^ 63
  earnedNonneg : 0 ≤ policy.coinSecondsEarned
  capped : policy.coinSecondsEarned ≤ balance * policy.period
  updated : policy.coinSecondsEarnedLastUpdate ≤ last

/-- An amount times a period or a number of seconds fits into 128 bits. -/
theorem uint128_product {amount seconds : Int} (nonneg : 0 ≤ amount)
    (small : amount < 2 ^ 63) (secondsNonneg : 0 ≤ seconds)
    (secondsSmall : seconds < 2 ^ 32) :
    uint128 (uint128 amount * seconds) = amount * seconds ∧
      0 ≤ amount * seconds ∧ amount * seconds < 2 ^ 95 := by
  have product : 0 ≤ amount * seconds :=
    Int.mul_nonneg nonneg secondsNonneg
  have bound : amount * seconds < 2 ^ 95 := by
    calc amount * seconds
        ≤ amount * 2 ^ 32 :=
          Int.mul_le_mul_of_nonneg_left (by omega) nonneg
      _ < 2 ^ 95 := by omega
  refine ⟨?_, product, bound⟩
  have exactAmount : uint128 amount = amount :=
    Int.emod_eq_of_lt nonneg (by omega)
  rw [exactAmount]
  exact Int.emod_eq_of_lt product (by omega)

/-- No product or sum wraps around when the coin seconds are computed. -/
theorem Earned.compute (earned : policy.Earned balance.amount last)
    (later : last ≤ now) :
    policy.computeCoinSecondsEarned balance now =
      min
        (policy.coinSecondsEarned +
          balance.amount *
            secondsSince now policy.coinSecondsEarnedLastUpdate)
        (balance.amount * policy.period) := by
  have order :=
    UInt32.le_iff_toNat_le.mp (UInt32.le_trans earned.updated later)
  have nowSmall := now.toNat_lt
  have seconds :
      0 ≤ secondsSince now policy.coinSecondsEarnedLastUpdate ∧
        secondsSince now policy.coinSecondsEarnedLastUpdate < 2 ^ 32 := by
    unfold secondsSince
    omega
  obtain ⟨delta, deltaNonneg, deltaSmall⟩ :=
    uint128_product earned.nonneg earned.small seconds.1 seconds.2
  obtain ⟨cap, capNonneg, capSmall⟩ :=
    uint128_product earned.nonneg earned.small
      (Int.le_of_lt policy.period_pos) policy.period_le
  have capped := earned.capped
  have earnedNonneg := earned.earnedNonneg
  unfold computeCoinSecondsEarned
  simp only [delta, cap]
  congr 1
  exact Int.emod_eq_of_lt (by omega) (by omega)

/-- Bringing the coin seconds up to date keeps the invariant. -/
theorem Earned.update (earned : policy.Earned balance.amount last)
    (later : last ≤ now) :
    (policy.updateCoinSecondsEarned balance now).Earned balance.amount
      now := by
  have order :=
    UInt32.le_iff_toNat_le.mp (UInt32.le_trans earned.updated later)
  have compute := earned.compute later
  have delta :
      0 ≤ balance.amount *
        secondsSince now policy.coinSecondsEarnedLastUpdate := by
    apply Int.mul_nonneg earned.nonneg
    unfold secondsSince
    omega
  have cap : 0 ≤ balance.amount * policy.period :=
    Int.mul_nonneg earned.nonneg (Int.le_of_lt policy.period_pos)
  have earnedNonneg := earned.earnedNonneg
  exact
    { nonneg := earned.nonneg
      small := earned.small
      earnedNonneg := by
        change 0 ≤ policy.computeCoinSecondsEarned balance now
        omega
      capped := by
        change policy.computeCoinSecondsEarned balance now ≤
          balance.amount * policy.period
        omega
      updated := UInt32.le_refl _ }

/-- What is allowed: nothing until the claims start, then the coin seconds over
the period, which is at most the balance. -/
theorem Earned.getAllowedWithdraw
    (earned : policy.Earned balance.amount last) (later : last ≤ now) :
    ∃ allowed,
      policy.getAllowedWithdraw balance now =
        .ok ⟨allowed, balance.assetId⟩ ∧
      0 ≤ allowed ∧ allowed ≤ balance.amount ∧
      allowed * policy.period ≤
        policy.computeCoinSecondsEarned balance now ∧
      (policy.startClaim < now →
        allowed =
          policy.computeCoinSecondsEarned balance now / policy.period) := by
  have updated := earned.update later
  have positive := policy.period_pos
  have low : 0 ≤ policy.computeCoinSecondsEarned balance now :=
    updated.earnedNonneg
  have capped :
      policy.computeCoinSecondsEarned balance now ≤
        balance.amount * policy.period :=
    updated.capped
  have small := earned.small
  by_cases closed : now ≤ policy.startClaim
  · refine ⟨0, ?_, Int.le_refl 0, earned.nonneg, by omega, ?_⟩
    · unfold CddVestingPolicy.getAllowedWithdraw
      rw [if_pos closed]
    · intro started
      exact absurd closed (UInt32.not_le.mpr started)
  · have quotientLow :
        0 ≤ policy.computeCoinSecondsEarned balance now / policy.period :=
      Int.ediv_nonneg low (Int.le_of_lt positive)
    have quotientHigh :
        policy.computeCoinSecondsEarned balance now / policy.period ≤
          balance.amount := by
      rw [Int.ediv_le_iff_le_mul positive]
      omega
    refine ⟨_, ?_, quotientLow, quotientHigh,
      Int.ediv_mul_le _ (by omega), fun _ => rfl⟩
    unfold CddVestingPolicy.getAllowedWithdraw toUint64
    rw [if_neg closed]
    have fits :
        policy.computeCoinSecondsEarned balance now / policy.period <
          2 ^ 64 := by
      omega
    have inRange :=
      @int64_of_range
        (policy.computeCoinSecondsEarned balance now / policy.period)
        (by omega) (by omega)
    simp only [fcAssert, require, fits, if_true]
    refine bind_eq_ok.mpr ⟨_, rfl, ?_⟩
    rw [inRange]
    rfl

theorem isWithdrawAllowed_eq_true {amount allowed : Asset}
    (allows : policy.getAllowedWithdraw balance now = .ok allowed)
    (isAllowed : policy.isWithdrawAllowed balance now amount = .ok true) :
    amount.amount ≤ allowed.amount := by
  unfold isWithdrawAllowed at isAllowed
  rw [allows] at isAllowed
  obtain ⟨_, found, isAllowed⟩ := bind_eq_ok.mp isAllowed
  obtain rfl := Except.ok.inj found
  exact Asset.amount_le isAllowed

theorem Earned.onWithdraw {amount : Asset}
    (earned : policy.Earned balance.amount last) (later : last ≤ now)
    (nonneg : 0 ≤ amount.amount)
    (isAllowed : policy.isWithdrawAllowed balance now amount = .ok true) :
    amount.amount ≤ balance.amount ∧
    amount.amount * policy.period ≤
      policy.computeCoinSecondsEarned balance now ∧
    (policy.onWithdraw balance now amount).coinSecondsEarned =
      policy.computeCoinSecondsEarned balance now -
        amount.amount * policy.period ∧
    (policy.onWithdraw balance now amount).Earned
      (balance.amount - amount.amount) now := by
  obtain ⟨allowed, allows, low, high, spends, _⟩ :=
    earned.getAllowedWithdraw later
  have bound := isWithdrawAllowed_eq_true allows isAllowed
  have updated := earned.update later
  have small := earned.small
  obtain ⟨needed, neededNonneg, neededSmall⟩ :=
    uint128_product nonneg (by simp only at bound; omega)
      (Int.le_of_lt policy.period_pos) policy.period_le
  have enough :
      amount.amount * policy.period ≤
        policy.computeCoinSecondsEarned balance now :=
    Int.le_trans
      (Int.mul_le_mul_of_nonneg_right bound
        (Int.le_of_lt policy.period_pos)) spends
  have capped :
      policy.computeCoinSecondsEarned balance now ≤
        balance.amount * policy.period :=
    updated.capped
  have capSmall :=
    (uint128_product earned.nonneg earned.small
      (Int.le_of_lt policy.period_pos) policy.period_le).2.2
  have left :
      (policy.onWithdraw balance now amount).coinSecondsEarned =
        policy.computeCoinSecondsEarned balance now -
          amount.amount * policy.period := by
    unfold CddVestingPolicy.onWithdraw
    simp only [needed]
    apply Int.emod_eq_of_lt
    · change 0 ≤ policy.computeCoinSecondsEarned balance now - _
      omega
    · change policy.computeCoinSecondsEarned balance now - _ < _
      omega
  simp only at bound
  refine ⟨by omega, enough, left, ?_⟩
  exact
    { nonneg := by omega
      small := by omega
      earnedNonneg := by omega
      capped := by
        rw [left]
        change _ ≤ (balance.amount - amount.amount) * policy.period
        rw [Int.sub_mul]
        omega
      updated := UInt32.le_refl _ }

theorem Earned.onDepositVested {amount : Asset}
    (earned : policy.Earned balance.amount last) (later : last ≤ now)
    (nonneg : 0 ≤ amount.amount) (fits : amount.amount * policy.period < 2 ^ 63)
    (small : balance.amount + amount.amount < 2 ^ 63) :
    (policy.onDepositVested balance now amount).coinSecondsEarned =
      policy.computeCoinSecondsEarned balance now +
        amount.amount * policy.period ∧
    (policy.onDepositVested balance now amount).Earned
      (balance.amount + amount.amount) now := by
  have updated := earned.update later
  have low : 0 ≤ policy.computeCoinSecondsEarned balance now :=
    updated.earnedNonneg
  have capped :
      policy.computeCoinSecondsEarned balance now ≤
        balance.amount * policy.period :=
    updated.capped
  have capSmall :=
    (uint128_product earned.nonneg earned.small
      (Int.le_of_lt policy.period_pos) policy.period_le).2.2
  have product : 0 ≤ amount.amount * policy.period :=
    Int.mul_nonneg nonneg (Int.le_of_lt policy.period_pos)
  have added :
      (policy.onDepositVested balance now amount).coinSecondsEarned =
        policy.computeCoinSecondsEarned balance now +
          amount.amount * policy.period := by
    have exactProduct :
        uint128 (int64 (amount.amount * policy.period)) =
          amount.amount * policy.period := by
      rw [int64_of_range (by omega) fits]
      exact Int.emod_eq_of_lt product (by omega)
    unfold CddVestingPolicy.onDepositVested
    simp only [exactProduct]
    apply Int.emod_eq_of_lt
    · change 0 ≤ policy.computeCoinSecondsEarned balance now + _
      omega
    · change policy.computeCoinSecondsEarned balance now + _ < _
      omega
  refine ⟨added, ?_⟩
  exact
    { nonneg := by
        have := earned.nonneg
        omega
      small := small
      earnedNonneg := by omega
      capped := by
        rw [added]
        change _ ≤ (balance.amount + amount.amount) * policy.period
        rw [Int.add_mul]
        omega
      updated := UInt32.le_refl _ }

theorem Earned.grow (earned : policy.Earned balance.amount last) {more : Int}
    (nonneg : 0 ≤ more) (small : balance.amount + more < 2 ^ 63) :
    policy.Earned (balance.amount + more) last := by
  have capped := earned.capped
  have extra : 0 ≤ more * policy.period :=
    Int.mul_nonneg nonneg (Int.le_of_lt policy.period_pos)
  exact
    { nonneg := by
        have := earned.nonneg
        omega
      small := small
      earnedNonneg := earned.earnedNonneg
      capped := by
        rw [Int.add_mul]
        omega
      updated := earned.updated }

theorem Earned.covers {amount : Asset}
    (earned : policy.Earned balance.amount last) (later : last ≤ now)
    (sameAsset : amount.assetId = balance.assetId)
    (started : policy.startClaim < now)
    (enough : amount.amount * policy.period ≤ policy.coinSecondsEarned) :
    policy.isWithdrawAllowed balance now amount = .ok true := by
  obtain ⟨allowed, allows, _, _, _, isQuotient⟩ :=
    earned.getAllowedWithdraw later
  have order :=
    UInt32.le_iff_toNat_le.mp (UInt32.le_trans earned.updated later)
  have delta :
      0 ≤ balance.amount *
        secondsSince now policy.coinSecondsEarnedLastUpdate := by
    apply Int.mul_nonneg earned.nonneg
    unfold secondsSince
    omega
  have compute := earned.compute later
  have capped := earned.capped
  have covered : amount.amount ≤ allowed := by
    rw [isQuotient started, Int.le_ediv_iff_mul_le policy.period_pos]
    omega
  unfold isWithdrawAllowed
  rw [allows]
  change amount.le ⟨allowed, balance.assetId⟩ = .ok true
  unfold Asset.le fcAssert require
  simp only [sameAsset, if_true, covered, decide_true]
  rfl

end CddVestingPolicy

/-- A vested deposit whose product with the period fits into 64 bits. -/
def Fits (vbo : VestingBalance) (amount : Asset) : Prop :=
  ∀ policy, vbo.policy = .cdd policy →
    amount.amount * policy.period < 2 ^ 63

/-- A balance created as vested with a period, and a product that fits. -/
def LazyFits (amount : Int) (seconds : UInt32) : Prop :=
  0 < seconds.toNat ∧ amount * seconds.toNat < 2 ^ 63

/-- A balance under a coin-days policy after deposits and allowed withdrawals at
non-decreasing times, the last at the given one.  The vested deposits meet the
first condition and those that create a balance the second. -/
inductive CoinDaysRun (fits : VestingBalance → Asset → Prop)
    (lazyFits : Int → UInt32 → Prop) : Time → VestingBalance → Prop
  | created {owner : AccountId} {amount : Asset} {startClaim now : Time}
      {seconds : UInt32} (nonneg : 0 ≤ amount.amount)
      (small : amount.amount ≤ GRAPHENE_MAX_SHARE_SUPPLY) :
      CoinDaysRun fits lazyFits now
        ⟨owner, amount,
          (VestingPolicyInitializer.cdd startClaim seconds).init
            amount.amount now⟩
  | createdLazily {db : Database} {amount : Int} {seconds : UInt32}
      {owner : AccountId} {requireVesting : Bool} (nonneg : 0 ≤ amount)
      (small : amount ≤ GRAPHENE_MAX_SHARE_SUPPLY)
      (meets : requireVesting = false → lazyFits amount seconds) :
      CoinDaysRun fits lazyFits db.headBlockTime
        (db.lazyVesting amount seconds owner requireVesting)
  | deposit {last now : Time} {vbo after : VestingBalance} {amount : Asset}
      (run : CoinDaysRun fits lazyFits last vbo) (later : last ≤ now)
      (nonneg : 0 ≤ amount.amount)
      (returns : vbo.deposit now amount = .ok after) :
      CoinDaysRun fits lazyFits now after
  | depositVested {last now : Time} {vbo after : VestingBalance}
      {amount : Asset} (run : CoinDaysRun fits lazyFits last vbo)
      (later : last ≤ now) (nonneg : 0 ≤ amount.amount)
      (meets : fits vbo amount)
      (returns : vbo.depositVested now amount = .ok after) :
      CoinDaysRun fits lazyFits now after
  | withdraw {last now : Time} {vbo after : VestingBalance} {amount : Asset}
      (run : CoinDaysRun fits lazyFits last vbo) (later : last ≤ now)
      (nonneg : 0 ≤ amount.amount)
      (isAllowed : vbo.isWithdrawAllowed now amount = .ok true)
      (returns : vbo.withdraw now amount = .ok after) :
      CoinDaysRun fits lazyFits now after

def CoinDaysOk (last : Time) (vbo : VestingBalance) : Prop :=
  ∃ policy, vbo.policy = .cdd policy ∧ policy.Earned vbo.balance.amount last

theorem plus_small {a b sum : Asset} (returns : a.plus b = .ok sum) :
    a.amount + b.amount < 2 ^ 63 := by
  unfold Asset.plus at returns
  obtain ⟨_, _, returns⟩ := bind_eq_ok.mp returns
  obtain ⟨amount, checked, _⟩ := bind_eq_ok.mp returns
  exact (share_eq_ok checked).2.2

section Runs

variable {vbo after : VestingBalance} {last now : Time} {amount : Asset}

theorem deposit_eq_ok {policy : CddVestingPolicy}
    (isPolicy : vbo.policy = .cdd policy)
    (returns : vbo.deposit now amount = .ok after) :
    after.policy = .cdd (policy.updateCoinSecondsEarned vbo.balance now) ∧
      after.balance =
        ⟨vbo.balance.amount + amount.amount, vbo.balance.assetId⟩ ∧
      vbo.balance.amount + amount.amount < 2 ^ 63 := by
  unfold VestingBalance.deposit at returns
  obtain ⟨balance, added, returns⟩ := bind_eq_ok.mp returns
  obtain rfl := Except.ok.inj returns
  refine ⟨?_, (plus_eq_ok added).2, plus_small added⟩
  simp only [isPolicy]
  rfl

theorem depositVested_eq_ok {policy : CddVestingPolicy}
    (isPolicy : vbo.policy = .cdd policy)
    (returns : vbo.depositVested now amount = .ok after) :
    after.policy = .cdd (policy.onDepositVested vbo.balance now amount) ∧
      after.balance =
        ⟨vbo.balance.amount + amount.amount, vbo.balance.assetId⟩ ∧
      vbo.balance.amount + amount.amount < 2 ^ 63 ∧
      amount.assetId = vbo.balance.assetId := by
  unfold VestingBalance.depositVested at returns
  rw [isPolicy] at returns
  obtain ⟨_, found, returns⟩ := bind_eq_ok.mp returns
  obtain rfl := Except.ok.inj found
  obtain ⟨balance, added, returns⟩ := bind_eq_ok.mp returns
  obtain rfl := Except.ok.inj returns
  exact ⟨rfl, (plus_eq_ok added).2, plus_small added,
    (plus_eq_ok added).1.symm⟩

theorem CoinDaysOk.deposit (ok : CoinDaysOk last vbo) (later : last ≤ now)
    (nonneg : 0 ≤ amount.amount)
    (returns : vbo.deposit now amount = .ok after) : CoinDaysOk now after := by
  obtain ⟨policy, isPolicy, earned⟩ := ok
  obtain ⟨policyAfter, balanceAfter, small⟩ :=
    deposit_eq_ok isPolicy returns
  refine ⟨_, policyAfter, ?_⟩
  rw [balanceAfter]
  exact (earned.update later).grow nonneg small

theorem CoinDaysOk.depositVested (ok : CoinDaysOk last vbo) (later : last ≤ now)
    (nonneg : 0 ≤ amount.amount) (fits : Fits vbo amount)
    (returns : vbo.depositVested now amount = .ok after) :
    CoinDaysOk now after := by
  obtain ⟨policy, isPolicy, earned⟩ := ok
  obtain ⟨policyAfter, balanceAfter, small, _⟩ :=
    depositVested_eq_ok isPolicy returns
  refine ⟨_, policyAfter, ?_⟩
  rw [balanceAfter]
  exact (earned.onDepositVested later nonneg (fits policy isPolicy) small).2

theorem CoinDaysOk.withdraw (ok : CoinDaysOk last vbo) (later : last ≤ now)
    (nonneg : 0 ≤ amount.amount)
    (isAllowed : vbo.isWithdrawAllowed now amount = .ok true)
    (returns : vbo.withdraw now amount = .ok after) : CoinDaysOk now after := by
  obtain ⟨policy, isPolicy, earned⟩ := ok
  unfold VestingBalance.isWithdrawAllowed at isAllowed
  rw [isPolicy] at isAllowed
  have policyAfter := VestingBalance.withdraw_policy returns
  rw [isPolicy] at policyAfter
  refine ⟨_, policyAfter, ?_⟩
  rw [(VestingBalance.withdraw_balance returns).2]
  exact (earned.onWithdraw later nonneg isAllowed).2.2.2

theorem coinDaysOk_lazyVesting {db : Database} {amount : Int}
    {seconds : UInt32} {owner : AccountId} {requireVesting : Bool}
    (nonneg : 0 ≤ amount) (small : amount ≤ GRAPHENE_MAX_SHARE_SUPPLY)
    (fits : requireVesting = false → LazyFits amount seconds) :
    CoinDaysOk db.headBlockTime
      (db.lazyVesting amount seconds owner requireVesting) := by
  have maximum : GRAPHENE_MAX_SHARE_SUPPLY < 2 ^ 63 := by decide
  refine ⟨_, rfl, ?_⟩
  have product : 0 ≤ amount * seconds.toNat :=
    Int.mul_nonneg nonneg (Int.natCast_nonneg _)
  have cap :
      amount * (seconds.toNat : Int) ≤
        amount * (max seconds.toNat 1 : Int) :=
    Int.mul_le_mul_of_nonneg_left (by omega) nonneg
  have exactSeconds :
      requireVesting = false →
        uint128 (int64 (amount * seconds.toNat)) =
          amount * seconds.toNat := by
    intro vested
    rw [int64_of_range (by omega) (fits vested).2]
    exact Int.emod_eq_of_lt product (by have := (fits vested).2; omega)
  refine
    { nonneg := nonneg
      small := Int.lt_of_le_of_lt small maximum
      earnedNonneg := ?_
      capped := ?_
      updated := UInt32.le_refl _ }
  · cases requireVesting with
    | true => exact Int.le_refl 0
    | false =>
        change 0 ≤ uint128 (int64 (amount * seconds.toNat))
        rw [exactSeconds rfl]
        exact product
  · cases requireVesting with
    | true =>
        change 0 ≤ amount * (max seconds.toNat 1 : Int)
        omega
    | false =>
        change uint128 (int64 (amount * seconds.toNat)) ≤
          amount * (max seconds.toNat 1 : Int)
        rw [exactSeconds rfl]
        exact cap

/-- The invariant holds in every run whose vested deposits fit. -/
theorem CoinDaysRun.ok (run : CoinDaysRun Fits LazyFits last vbo) :
    CoinDaysOk last vbo := by
  induction run with
  | @created owner amount startClaim now seconds nonneg small =>
      have maximum : GRAPHENE_MAX_SHARE_SUPPLY < 2 ^ 63 := by decide
      refine ⟨_, rfl, ?_⟩
      exact
        { nonneg := nonneg
          small := Int.lt_of_le_of_lt small maximum
          earnedNonneg := Int.le_refl 0
          capped :=
            Int.mul_nonneg nonneg
              (Int.le_of_lt (CddVestingPolicy.period_pos _))
          updated := UInt32.le_refl _ }
  | createdLazily nonneg small meets =>
      exact coinDaysOk_lazyVesting nonneg small meets
  | deposit _ later nonneg returns ih =>
      exact ih.deposit later nonneg returns
  | depositVested _ later nonneg meets returns ih =>
      exact ih.depositVested later nonneg meets returns
  | withdraw _ later nonneg isAllowed returns ih =>
      exact ih.withdraw later nonneg isAllowed returns

/-- A vested deposit that fits can be withdrawn in full at once. -/
theorem CoinDaysOk.vested_withdrawable (ok : CoinDaysOk last vbo)
    (later : last ≤ now) (nonneg : 0 ≤ amount.amount) (fits : Fits vbo amount)
    (returns : vbo.depositVested now amount = .ok after)
    (started : ∀ policy, vbo.policy = .cdd policy →
      policy.startClaim < now) :
    after.isWithdrawAllowed now amount = .ok true := by
  obtain ⟨policy, isPolicy, earned⟩ := ok
  obtain ⟨policyAfter, balanceAfter, small, sameAsset⟩ :=
    depositVested_eq_ok isPolicy returns
  obtain ⟨added, earnedAfter⟩ :=
    earned.onDepositVested later nonneg (fits policy isPolicy) small
  have low : 0 ≤ policy.computeCoinSecondsEarned vbo.balance now :=
    (earned.update later).earnedNonneg
  unfold VestingBalance.isWithdrawAllowed
  rw [policyAfter, balanceAfter]
  apply @CddVestingPolicy.Earned.covers _
    ⟨vbo.balance.amount + amount.amount, vbo.balance.assetId⟩ now now amount
    earnedAfter (UInt32.le_refl _) sameAsset (started policy isPolicy)
  rw [added]
  change amount.amount * policy.period ≤ _
  omega

/-- A balance created as vested, with a product that fits, can be withdrawn in
full at once. -/
theorem lazyVesting_withdrawable {db : Database} {amount : Int}
    {seconds : UInt32} {owner : AccountId} (nonneg : 0 ≤ amount)
    (small : amount ≤ GRAPHENE_MAX_SHARE_SUPPLY)
    (fits : LazyFits amount seconds) (started : 0 < db.headBlockTime) :
    (db.lazyVesting amount seconds owner false).isWithdrawAllowed
      db.headBlockTime ⟨amount, db.currentCoreAssetId⟩ = .ok true := by
  obtain ⟨policy, isPolicy, earned⟩ :=
    @coinDaysOk_lazyVesting db amount seconds owner false nonneg small
      fun _ => fits
  unfold VestingBalance.isWithdrawAllowed
  rw [isPolicy]
  cases isPolicy
  apply earned.covers (UInt32.le_refl _) rfl started
  obtain ⟨lasts, bound⟩ := fits
  have product : 0 ≤ amount * seconds.toNat :=
    Int.mul_nonneg nonneg (Int.natCast_nonneg _)
  change amount * (max seconds.toNat 1 : Int) ≤
    uint128 (int64 (amount * seconds.toNat))
  have wholePeriod : (max seconds.toNat 1 : Int) = seconds.toNat := by omega
  rw [int64_of_range (by omega) bound, wholePeriod]
  exact Int.le_of_eq (Int.emod_eq_of_lt product (by omega)).symm

/-- What holds of a coin-days balance after the steps up to `last`: the coin
seconds are capped; at any later time they are computed without a wrap, at most
the balance is allowed, an allowed withdrawal spends coin seconds that are there,
and a vested deposit can be withdrawn at once. -/
structure CoinDays (fits : VestingBalance → Asset → Prop) (last : Time)
    (vbo : VestingBalance) (policy : CddVestingPolicy) : Prop where
  capped :
    policy.coinSecondsEarned ≤ vbo.balance.amount * policy.period
  exactly :
    ∀ now, last ≤ now →
      policy.computeCoinSecondsEarned vbo.balance now =
        min
          (policy.coinSecondsEarned +
            vbo.balance.amount *
              secondsSince now policy.coinSecondsEarnedLastUpdate)
          (vbo.balance.amount * policy.period)
  allowed :
    ∀ now, last ≤ now →
      ∃ allowed,
        vbo.getAllowedWithdraw now = .ok ⟨allowed, vbo.balance.assetId⟩ ∧
        0 ≤ allowed ∧ allowed ≤ vbo.balance.amount
  withdrawn :
    ∀ now amount, last ≤ now → 0 ≤ amount.amount →
      vbo.isWithdrawAllowed now amount = .ok true →
      amount.amount * policy.period ≤
          policy.computeCoinSecondsEarned vbo.balance now ∧
        (policy.onWithdraw vbo.balance now amount).coinSecondsEarned =
          policy.computeCoinSecondsEarned vbo.balance now -
            amount.amount * policy.period
  deposited :
    ∀ now amount after, last ≤ now → 0 ≤ amount.amount →
      fits vbo amount → vbo.depositVested now amount = .ok after →
      (∃ policyAfter,
        after.policy = .cdd policyAfter ∧
          policyAfter.coinSecondsEarned =
            policy.computeCoinSecondsEarned vbo.balance now +
              amount.amount * policy.period) ∧
        (policy.startClaim < now →
          after.isWithdrawAllowed now amount = .ok true)

theorem CoinDaysOk.coinDays (ok : CoinDaysOk last vbo) :
    ∃ policy, vbo.policy = .cdd policy ∧ CoinDays Fits last vbo policy := by
  obtain ⟨policy, isPolicy, earned⟩ := id ok
  refine ⟨policy, isPolicy, ?_⟩
  refine
    { capped := earned.capped
      exactly := fun now later => earned.compute later
      allowed := ?_
      withdrawn := ?_
      deposited := ?_ }
  · intro now later
    obtain ⟨allowed, allows, low, high, _⟩ :=
      earned.getAllowedWithdraw later
    refine ⟨allowed, ?_, low, high⟩
    unfold VestingBalance.getAllowedWithdraw
    rw [isPolicy]
    exact allows
  · intro now amount later nonneg isAllowed
    unfold VestingBalance.isWithdrawAllowed at isAllowed
    rw [isPolicy] at isAllowed
    obtain ⟨_, enough, left, _⟩ := earned.onWithdraw later nonneg isAllowed
    exact ⟨enough, left⟩
  · intro now amount after later nonneg fits returns
    obtain ⟨policyAfter, _, small, _⟩ :=
      depositVested_eq_ok isPolicy returns
    have added :=
      (earned.onDepositVested later nonneg (fits policy isPolicy) small).1
    refine ⟨⟨_, policyAfter, added⟩, ?_⟩
    intro started
    apply ok.vested_withdrawable later nonneg fits returns
    intro other isOther
    rw [isPolicy] at isOther
    cases isOther
    exact started

/-- Coin-days vesting, in every run whose vested deposits fit. -/
theorem coin_days_vesting (run : CoinDaysRun Fits LazyFits last vbo) :
    (∃ policy, vbo.policy = .cdd policy ∧ CoinDays Fits last vbo policy) ∧
    ∀ (db : Database) (amount : Int) (seconds : UInt32) (owner : AccountId),
      0 ≤ amount → amount ≤ GRAPHENE_MAX_SHARE_SUPPLY →
      LazyFits amount seconds → 0 < db.headBlockTime →
      (db.lazyVesting amount seconds owner false).isWithdrawAllowed
        db.headBlockTime ⟨amount, db.currentCoreAssetId⟩ = .ok true :=
  ⟨run.ok.coinDays, fun _ _ _ _ nonneg small fits started =>
    lazyVesting_withdrawable nonneg small fits started⟩

def yearly : VestingBalance :=
  ⟨7, ⟨100, 1⟩, (VestingPolicyInitializer.cdd 0 31536000).init 100 1000⟩

/-- A vested deposit of a thousand units to it can be withdrawn at once. -/
theorem coin_days_vesting_yearly :
    yearly.depositVested 2000 ⟨1000, 1⟩ =
        .ok ⟨7, ⟨1100, 1⟩, .cdd ⟨31536000, 31536100000, 0, 2000⟩⟩ ∧
      (⟨7, ⟨1100, 1⟩, .cdd ⟨31536000, 31536100000, 0, 2000⟩⟩ :
        VestingBalance).isWithdrawAllowed 2000 ⟨1000, 1⟩ = .ok true := by
  obtain ⟨⟨policy, isPolicy, coinDays⟩, _⟩ :=
    coin_days_vesting
      (@CoinDaysRun.created Fits LazyFits 7 ⟨100, 1⟩ 0 1000 31536000
        (by decide) (by decide))
  cases isPolicy
  have deposits :
      yearly.depositVested 2000 ⟨1000, 1⟩ =
        .ok ⟨7, ⟨1100, 1⟩, .cdd ⟨31536000, 31536100000, 0, 2000⟩⟩ := by
    decide
  refine ⟨deposits, ?_⟩
  refine (coinDays.deposited 2000 ⟨1000, 1⟩ _ (by decide) (by decide) ?_
    deposits).2 (by decide)
  intro policy isPolicy
  cases isPolicy
  decide

/-- Three million coins, of five digits, times a year do not fit: after such a
vested deposit the coin seconds exceed the cap.  Of six millions not all can be
withdrawn at once, and nothing of a vested balance that is created with a period
of zero seconds. -/
theorem vested_deposit_wraps :
    (∃ after,
      CoinDaysRun (fun _ _ => True) (fun _ _ => True) 2000 after ∧
      yearly.depositVested 2000 ⟨300000000000, 1⟩ = .ok after ∧
      ¬ ∃ policy, after.policy = .cdd policy ∧
        CoinDays (fun _ _ => True) 2000 after policy) ∧
    (∃ after,
      yearly.depositVested 2000 ⟨600000000000, 1⟩ = .ok after ∧
      after.isWithdrawAllowed 2000 ⟨600000000000, 1⟩ = .ok false) ∧
    ∀ db : Database,
      0 < db.headBlockTime →
      (db.lazyVesting 1000 0 7 false).isWithdrawAllowed db.headBlockTime
        ⟨1000, db.currentCoreAssetId⟩ = .ok false := by
  refine ⟨⟨_, ?_, rfl, ?_⟩, ⟨_, rfl, by decide⟩, ?_⟩
  · exact @CoinDaysRun.depositVested _ _ _ 2000 _ _ ⟨300000000000, 1⟩
      (@CoinDaysRun.created _ _ 7 ⟨100, 1⟩ 0 1000 31536000 (by decide)
        (by decide)) (by decide) (by decide) trivial rfl
  · rintro ⟨policy, isPolicy, coinDays⟩
    cases isPolicy
    exact absurd coinDays.capped (by decide)
  · intro db started
    have none : secondsSince db.headBlockTime db.headBlockTime = 0 := by
      unfold secondsSince
      omega
    have allows :
        (⟨0, 0, 0, db.headBlockTime⟩ : CddVestingPolicy).getAllowedWithdraw
            ⟨1000, db.currentCoreAssetId⟩ db.headBlockTime =
          .ok ⟨0, db.currentCoreAssetId⟩ := by
      unfold CddVestingPolicy.getAllowedWithdraw
        CddVestingPolicy.computeCoinSecondsEarned
      rw [if_neg (UInt32.not_le.mpr started)]
      simp only [none]
      rfl
    have product : uint128 (int64 (1000 * ((0 : UInt32).toNat : Int))) = 0 := by
      decide
    unfold VestingBalance.isWithdrawAllowed Database.lazyVesting
    simp only [product, Bool.false_eq_true, if_false]
    unfold CddVestingPolicy.isWithdrawAllowed
    rw [allows]
    change Asset.le _ _ = _
    simp only [Asset.le, fcAssert, require, if_true]
    rfl

end Runs

end GxbCore.Ledger
