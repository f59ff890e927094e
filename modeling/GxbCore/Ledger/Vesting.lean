import GxbCore.Ledger.Objects

/-!
# Vesting balances

What a vesting balance lets its owner withdraw, and what a deposit or a
withdrawal does to it.  Coin seconds are 128-bit numbers; the products that the
source forms from plain 64-bit values are wrapped to 64 bits.
-/

namespace GxbCore.Ledger

/-- The seconds from `start` to `now`, as `to_seconds` of their difference. -/
def secondsSince (now start : Time) : Int :=
  now.toNat - start.toNat

/-- `operator +=` of assets. -/
def Asset.plus (a b : Asset) : Except Fault Asset := do
  fcAssert (a.assetId = b.assetId) "${a} == ${b}"
  let amount ← share (a.amount + b.amount)
  return { a with amount := amount }

/-- `operator -=` of assets. -/
def Asset.minus (a b : Asset) : Except Fault Asset := do
  fcAssert (a.assetId = b.assetId) "${a} == ${b}"
  let amount ← share (a.amount - b.amount)
  return { a with amount := amount }

theorem plus_eq_ok {a b sum : Asset} (returns : a.plus b = .ok sum) :
    a.assetId = b.assetId ∧ sum = ⟨a.amount + b.amount, a.assetId⟩ := by
  simp only [Asset.plus, bind_eq_ok, fcAssert_eq_ok] at returns
  obtain ⟨_, sameAsset, amount, checked, returns⟩ := returns
  cases returns
  exact ⟨sameAsset, by rw [eq_of_share checked]⟩

theorem minus_eq_ok {a b rest : Asset} (returns : a.minus b = .ok rest) :
    a.assetId = b.assetId ∧ rest = ⟨a.amount - b.amount, a.assetId⟩ := by
  simp only [Asset.minus, bind_eq_ok, fcAssert_eq_ok] at returns
  obtain ⟨_, sameAsset, amount, checked, returns⟩ := returns
  cases returns
  exact ⟨sameAsset, by rw [eq_of_share checked]⟩

namespace LinearVestingPolicy

/-- `linear_vesting_policy::get_allowed_withdraw` -/
def getAllowedWithdraw
    (policy : LinearVestingPolicy) (balance : Asset) (now : Time) :
    Except Fault Asset :=
  if now > policy.beginTimestamp then
    let elapsedSeconds := secondsSince now policy.beginTimestamp
    if policy.vestingCliffSeconds.toNat ≤ elapsedSeconds then do
      let totalVested ←
        if elapsedSeconds < policy.vestingDurationSeconds.toNat then do
          let vested ← toUint64
            (uint128 (uint128 policy.beginBalance * elapsedSeconds)
              / policy.vestingDurationSeconds.toNat)
          pure (int64 vested)
        else
          pure policy.beginBalance
      let withdrawnAlready ← share (policy.beginBalance - balance.amount)
      let allowed ← share (totalVested - withdrawnAlready)
      return ⟨allowed, balance.assetId⟩
    else
      .ok ⟨0, balance.assetId⟩
  else
    .ok ⟨0, balance.assetId⟩

/-- `linear_vesting_policy::is_withdraw_allowed` -/
def isWithdrawAllowed
    (policy : LinearVestingPolicy) (balance : Asset) (now : Time)
    (amount : Asset) : Except Fault Bool :=
  if amount.assetId = balance.assetId then do
    let allowed ← policy.getAllowedWithdraw balance now
    amount.le allowed
  else
    .ok false

end LinearVestingPolicy

namespace CddVestingPolicy

/-- `std::max(vesting_seconds, 1u)` -/
def period (policy : CddVestingPolicy) : Int :=
  max policy.vestingSeconds.toNat 1

/-- `cdd_vesting_policy::compute_coin_seconds_earned` -/
def computeCoinSecondsEarned
    (policy : CddVestingPolicy) (balance : Asset) (now : Time) : Int :=
  let deltaSeconds := secondsSince now policy.coinSecondsEarnedLastUpdate
  let deltaCoinSeconds := uint128 (uint128 balance.amount * deltaSeconds)
  let coinSecondsEarnedCap := uint128 (uint128 balance.amount * policy.period)
  min (uint128 (policy.coinSecondsEarned + deltaCoinSeconds))
    coinSecondsEarnedCap

/-- `cdd_vesting_policy::update_coin_seconds_earned`, which is also `on_deposit`. -/
def updateCoinSecondsEarned
    (policy : CddVestingPolicy) (balance : Asset) (now : Time) :
    CddVestingPolicy :=
  { policy with
    coinSecondsEarned := policy.computeCoinSecondsEarned balance now
    coinSecondsEarnedLastUpdate := now }

/-- `cdd_vesting_policy::get_allowed_withdraw` -/
def getAllowedWithdraw
    (policy : CddVestingPolicy) (balance : Asset) (now : Time) :
    Except Fault Asset :=
  if now ≤ policy.startClaim then
    .ok ⟨0, balance.assetId⟩
  else do
    let withdrawAvailable ←
      toUint64 (policy.computeCoinSecondsEarned balance now / policy.period)
    return ⟨int64 withdrawAvailable, balance.assetId⟩

/-- `cdd_vesting_policy::is_withdraw_allowed` -/
def isWithdrawAllowed
    (policy : CddVestingPolicy) (balance : Asset) (now : Time)
    (amount : Asset) : Except Fault Bool := do
  let allowed ← policy.getAllowedWithdraw balance now
  amount.le allowed

/-- `cdd_vesting_policy::on_deposit_vested` -/
def onDepositVested
    (policy : CddVestingPolicy) (balance : Asset) (now : Time)
    (amount : Asset) : CddVestingPolicy :=
  let updated := policy.updateCoinSecondsEarned balance now
  { updated with
    coinSecondsEarned :=
      uint128 (updated.coinSecondsEarned
        + uint128 (int64 (amount.amount * policy.period))) }

/-- `cdd_vesting_policy::on_withdraw` -/
def onWithdraw
    (policy : CddVestingPolicy) (balance : Asset) (now : Time)
    (amount : Asset) : CddVestingPolicy :=
  let updated := policy.updateCoinSecondsEarned balance now
  let coinSecondsNeeded := uint128 (uint128 amount.amount * policy.period)
  { updated with
    coinSecondsEarned :=
      uint128 (updated.coinSecondsEarned - coinSecondsNeeded) }

end CddVestingPolicy

namespace VestingPolicy

def onDeposit (policy : VestingPolicy) (balance : Asset) (now : Time) :
    VestingPolicy :=
  match policy with
  | linear policy => linear policy
  | cdd policy => cdd (policy.updateCoinSecondsEarned balance now)

def onDepositVested
    (policy : VestingPolicy) (balance : Asset) (now : Time)
    (amount : Asset) : Except Fault VestingPolicy :=
  match policy with
  | linear _ =>
      .error (.assertion
        "May not deposit vested into a linear vesting balance.")
  | cdd policy => .ok (cdd (policy.onDepositVested balance now amount))

def onWithdraw
    (policy : VestingPolicy) (balance : Asset) (now : Time)
    (amount : Asset) : VestingPolicy :=
  match policy with
  | linear policy => linear policy
  | cdd policy => cdd (policy.onWithdraw balance now amount)

end VestingPolicy

namespace VestingBalance

/-- `vesting_balance_object::is_withdraw_allowed` -/
def isWithdrawAllowed
    (vbo : VestingBalance) (now : Time) (amount : Asset) :
    Except Fault Bool :=
  match vbo.policy with
  | .linear policy => policy.isWithdrawAllowed vbo.balance now amount
  | .cdd policy => policy.isWithdrawAllowed vbo.balance now amount

/-- `vesting_balance_object::get_allowed_withdraw` -/
def getAllowedWithdraw (vbo : VestingBalance) (now : Time) :
    Except Fault Asset :=
  match vbo.policy with
  | .linear policy => policy.getAllowedWithdraw vbo.balance now
  | .cdd policy => policy.getAllowedWithdraw vbo.balance now

/-- `vesting_balance_object::deposit` -/
def deposit (vbo : VestingBalance) (now : Time) (amount : Asset) :
    Except Fault VestingBalance := do
  let balance ← vbo.balance.plus amount
  return { vbo with
    policy := vbo.policy.onDeposit vbo.balance now
    balance := balance }

/-- `vesting_balance_object::deposit_vested` -/
def depositVested (vbo : VestingBalance) (now : Time) (amount : Asset) :
    Except Fault VestingBalance := do
  let policy ← vbo.policy.onDepositVested vbo.balance now amount
  let balance ← vbo.balance.plus amount
  return { vbo with policy := policy, balance := balance }

/-- `vesting_balance_object::withdraw` -/
def withdraw (vbo : VestingBalance) (now : Time) (amount : Asset) :
    Except Fault VestingBalance := do
  let balance ← vbo.balance.minus amount
  return { vbo with
    policy := vbo.policy.onWithdraw vbo.balance now amount
    balance := balance }

/-- Deposit with or without the need to vest. -/
def depositWith
    (vbo : VestingBalance) (requireVesting : Bool) (now : Time)
    (amount : Asset) : Except Fault VestingBalance :=
  if requireVesting then vbo.deposit now amount
  else vbo.depositVested now amount

variable {amount : Asset} {now : Time} {vbo after : VestingBalance}

theorem depositWith_balance {requireVesting : Bool}
    (returns : vbo.depositWith requireVesting now amount = .ok after) :
    vbo.balance.assetId = amount.assetId ∧
      after.balance =
        ⟨vbo.balance.amount + amount.amount, amount.assetId⟩ := by
  unfold depositWith at returns
  split at returns
  · simp only [deposit, bind_eq_ok] at returns
    obtain ⟨balance, added, returns⟩ := returns
    cases returns
    obtain ⟨sameAsset, sum⟩ := plus_eq_ok added
    exact ⟨sameAsset, by rw [sum, sameAsset]⟩
  · simp only [depositVested, bind_eq_ok] at returns
    obtain ⟨policy, _, balance, added, returns⟩ := returns
    cases returns
    obtain ⟨sameAsset, sum⟩ := plus_eq_ok added
    exact ⟨sameAsset, by rw [sum, sameAsset]⟩

theorem depositWith_owner {requireVesting : Bool}
    (returns : vbo.depositWith requireVesting now amount = .ok after) :
    after.owner = vbo.owner := by
  unfold depositWith at returns
  split at returns
  · simp only [deposit, bind_eq_ok] at returns
    obtain ⟨balance, _, returns⟩ := returns
    cases returns
    rfl
  · simp only [depositVested, bind_eq_ok] at returns
    obtain ⟨policy, _, balance, _, returns⟩ := returns
    cases returns
    rfl

theorem withdraw_policy (returns : vbo.withdraw now amount = .ok after) :
    after.policy = vbo.policy.onWithdraw vbo.balance now amount := by
  simp only [withdraw, bind_eq_ok] at returns
  obtain ⟨balance, _, returns⟩ := returns
  cases returns
  rfl

theorem withdraw_balance (returns : vbo.withdraw now amount = .ok after) :
    vbo.balance.assetId = amount.assetId ∧
      after.balance =
        ⟨vbo.balance.amount - amount.amount, amount.assetId⟩ := by
  simp only [withdraw, bind_eq_ok] at returns
  obtain ⟨balance, taken, returns⟩ := returns
  cases returns
  obtain ⟨sameAsset, rest⟩ := minus_eq_ok taken
  exact ⟨sameAsset, by rw [rest, sameAsset]⟩

end VestingBalance

end GxbCore.Ledger
