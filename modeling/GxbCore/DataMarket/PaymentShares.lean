import GxbCore.DataMarket.Payments
import GxbCore.Ledger.Surplus
import Mathlib.Tactic.Ring

/-!
# What a payment is split into

A payment is debited in the asset that the payer chose.  It is credited to the
datasource and to the commission account in the asset with the id 0, since the
credited amounts are built without an asset.  The part of the commission that is
meant for the reserve is credited to nobody, and no supply is lowered by it.
-/

namespace GxbCore.DataMarket

open Ledger

/-- The exact part of an amount, rounded down. -/
def percentOf (amount : Int) (percent : Nat) : Int :=
  amount * percent / GRAPHENE_100_PERCENT

section Cuts

variable {amount cut : Int} {percent : Nat}

theorem percentOf_bounds
    (nonneg : 0 ≤ amount) (fits : amount < 2 ^ 63) (small : percent < 2 ^ 16) :
    0 ≤ amount * percent ∧ amount * percent < 2 ^ 79 := by
  have below : (percent : Int) ≤ 2 ^ 16 := by omega
  have product : amount * percent ≤ amount * 2 ^ 16 :=
    Int.mul_le_mul_of_nonneg_left below nonneg
  refine ⟨Int.mul_nonneg nonneg (Int.natCast_nonneg _), ?_⟩
  omega

/-- The cut of an amount that is not negative is its exact part, read in signed
64 bits. -/
theorem cutFee_eq_percentOf (nonneg : 0 ≤ amount) (fits : amount < 2 ^ 63)
    (small : percent < 2 ^ 16) (returns : cutFee amount percent = .ok cut) :
    0 ≤ percentOf amount percent ∧ percentOf amount percent < 2 ^ 64 ∧
      cut = int64 (percentOf amount percent) := by
  obtain ⟨low, high⟩ := percentOf_bounds nonneg fits small
  rw [percentOf, GRAPHENE_100_PERCENT]
  rw [cutFee] at returns
  by_cases nothing : amount = 0 ∨ percent = 0
  · rw [if_pos nothing] at returns
    cases returns
    have zero : amount * percent = 0 := by
      rcases nothing with isZero | isZero
      · rw [isZero, Int.zero_mul]
      · rw [isZero, Int.natCast_zero, Int.mul_zero]
    rw [zero]
    decide
  · rw [if_neg nothing] at returns
    by_cases everything : percent = GRAPHENE_100_PERCENT
    · rw [if_pos everything] at returns
      cases returns
      rw [everything, GRAPHENE_100_PERCENT, int64]
      omega
    · rw [if_neg everything] at returns
      simp only [toUint64, bind_eq_ok, fcAssert_eq_ok, pure, Except.pure,
        Except.ok.injEq] at returns
      obtain ⟨quotient, ⟨_, bounded, isQuotient⟩, isCut⟩ := returns
      have exact :
          uint128 (uint128 amount * percent) / GRAPHENE_100_PERCENT =
            amount * percent / 10000 := by
        have whole : uint128 amount = amount :=
          Int.emod_eq_of_lt nonneg (by omega)
        rw [whole, uint128, Int.emod_eq_of_lt low (by omega)]
        rfl
      rw [exact] at bounded isQuotient
      rw [← isCut, ← isQuotient]
      refine ⟨?_, bounded, rfl⟩
      show 0 ≤ amount * percent / 10000
      omega

theorem cutFee_of_neg (negative : amount < 0) (fits : -2 ^ 63 ≤ amount)
    (small : percent < 2 ^ 16) (returns : cutFee amount percent = .ok cut) :
    percent = 0 ∧ cut = 0 ∨ percent = GRAPHENE_100_PERCENT ∧ cut = amount := by
  rw [cutFee] at returns
  by_cases nothing : amount = 0 ∨ percent = 0
  · rw [if_pos nothing] at returns
    cases returns
    rcases nothing with isZero | isZero
    · omega
    · exact .inl ⟨isZero, rfl⟩
  · rw [if_neg nothing] at returns
    by_cases everything : percent = GRAPHENE_100_PERCENT
    · rw [if_pos everything] at returns
      cases returns
      exact .inr ⟨everything, rfl⟩
    · rw [if_neg everything] at returns
      simp only [toUint64, bind_eq_ok, fcAssert_eq_ok, pure, Except.pure,
        Except.ok.injEq] at returns
      obtain ⟨quotient, ⟨_, bounded, _⟩, _⟩ := returns
      -- the amount becomes a huge number of 128 bits, whose part is too large
      exfalso
      have below : (percent : Int) ≤ 2 ^ 16 := by omega
      have product : -amount * percent ≤ -amount * 2 ^ 16 :=
        Int.mul_le_mul_of_nonneg_left below (by omega)
      have positive : 0 < -amount * percent := by
        apply Int.mul_pos
        · omega
        · omega
      have wrapped :
          uint128 (uint128 amount * percent) =
            2 ^ 128 - -amount * percent := by
        have huge : uint128 amount = amount + 2 ^ 128 := by
          rw [uint128]
          omega
        have split :
            (amount + 2 ^ 128) * percent =
              (2 ^ 128 - -amount * percent) + 2 ^ 128 * (percent - 1) := by
          ring
        rw [huge, split, uint128, Int.add_mul_emod_self_left]
        apply Int.emod_eq_of_lt
        · omega
        · omega
      rw [wrapped, GRAPHENE_100_PERCENT] at bounded
      omega

end Cuts

/-- The percentage of the commission that goes to the reserve. -/
def reservePercentOf (m : Market) : UInt16 :=
  if m.ledger.headBlockTime ≥ HARDFORK_1003_TIME then
    m.commissionPercent.reservePercent
  else
    0

def commissionAccountOf (m : Market) : AccountId :=
  if m.ledger.headBlockTime ≥ HARDFORK_1003_TIME then
    (m.getAccountByName m.commissionPercent.commissionAccount).getD 0
  else
    0

/-- `current_supply` -/
def supplyOf (db : Database) (assetId : AssetId) : Int :=
  match db.assets[assetId]? with
  | none => 0
  | some a => a.dynamicData.currentSupply

def placed (account holder : AccountId) (assetId held : AssetId)
    (amount : Int) : Int :=
  if holder = account ∧ held = assetId then amount else 0

/-- The payer is debited the amount, and what the datasource, the commission
account and the reserve get of the same asset adds up to it; the reserve gets
its share by a lower supply. -/
def Conserves (before after : Database) (commissionAccount : AccountId)
    (o : PayDataTransactionOperation) : Prop :=
  ∃ datasource commission reserve : Int,
    datasource + commission + reserve = o.amount.amount ∧
    (∀ holder held,
      (after.getBalance holder held).amount =
        (before.getBalance holder held).amount -
            placed o.source holder o.amount.assetId held o.amount.amount +
          placed o.target holder o.amount.assetId held datasource +
          placed commissionAccount holder o.amount.assetId held commission) ∧
    ∀ held,
      supplyOf after held =
        supplyOf before held -
          if held = o.amount.assetId then reserve else 0

/-- What a payment does to balances and supplies. -/
structure PaidShares (before after : Database)
    (commissionAccount : AccountId) (o : PayDataTransactionOperation)
    (commission reserved : Int) : Prop where
  balances :
    ∀ holder held,
      (after.getBalance holder held).amount =
        (before.getBalance holder held).amount -
            placed o.source holder o.amount.assetId held o.amount.amount +
          placed o.target holder 0 held (o.amount.amount - commission) +
          placed commissionAccount holder 0 held (commission - reserved)
  supplies : ∀ held, supplyOf after held = supplyOf before held

section Shares

variable {m feePaid after : Market} {o : PayDataTransactionOperation}
  {dto : DataTransaction}

theorem payMoney_shares {db : Database} (paid : payMoney m o dto = .ok db) :
    ∃ commission reserved,
      cutFee o.amount.amount (commissionPercentOf m dto).toNat =
        .ok commission ∧
      cutFee commission (reservePercentOf m).toNat = .ok reserved ∧
      PaidShares m.ledger db (commissionAccountOf m) o commission reserved := by
  simp only [payMoney, bind_eq_ok] at paid
  obtain ⟨commission, isCommission, datasource, isDatasource, debited, debits,
    credited, credits, reserved, isReserved, rest, isRest, commissions⟩ := paid
  obtain ⟨rfl, _⟩ := share_eq_ok isDatasource
  obtain ⟨rfl, _⟩ := share_eq_ok isRest
  simp only [decide_eq_true_eq] at isReserved commissions
  refine ⟨commission, reserved, isCommission, isReserved, ?_, ?_⟩
  · intro holder held
    have debit :
        (if holder = o.source ∧ held = o.amount.neg.assetId then
            o.amount.neg.amount
          else 0) =
          -placed o.source holder o.amount.assetId held o.amount.amount := by
      rw [placed, apply_ite Neg.neg, Int.neg_zero]
      rfl
    rw [adjustBalance_getBalance commissions,
      adjustBalance_getBalance credits, adjustBalance_getBalance debits, debit,
      ← Int.sub_eq_add_neg]
    rfl
  · intro held
    rw [supplyOf, supplyOf, adjustBalance_assets commissions,
      adjustBalance_assets credits, adjustBalance_assets debits]

theorem payApply_ledger (found : m.findTransaction o.requestId = some dto)
    (applies : payApply m o = .ok after) :
    payMoney m o dto = .ok after.ledger := by
  unfold payApply at applies
  rw [found] at applies
  obtain ⟨db, paid, applies⟩ := bind_eq_ok.mp applies
  cases isLeague : dto.leagueId with
  | none =>
      rw [isLeague] at applies
      cases applies
      exact paid
  | some leagueId =>
      rw [isLeague] at applies
      simp only [updateLeaguePocs, bind_eq_ok] at applies
      obtain ⟨_, _, _, _, returned⟩ := applies
      cases returned
      exact paid

/-- The amount of a payment that is evaluated is in the range of `share_type`. -/
theorem payEvaluate_amount (found : m.findTransaction o.requestId = some dto)
    (evaluates : payEvaluate m o = .ok ()) : o.amount.amount < 2 ^ 63 := by
  unfold payEvaluate at evaluates
  rw [found] at evaluates
  simp only [bind_eq_ok, fcAssert_eq_ok] at evaluates
  obtain ⟨_, _, _, _, _, _, price, _, _, isPrice, _⟩ := evaluates
  rw [isPrice, int64]
  omega

/-- The reserve gets nothing exactly when its part of the commission rounds to
nothing. -/
theorem reserved_eq_zero_iff
    {amount commission reserved : Int} {percent reservePercent : Nat}
    (nonneg : 0 ≤ amount) (fits : amount < 2 ^ 63) (small : percent < 2 ^ 16)
    (smallReserve : reservePercent < 2 ^ 16)
    (isCommission : cutFee amount percent = .ok commission)
    (isReserved : cutFee commission reservePercent = .ok reserved) :
    reserved = 0 ↔
      percentOf amount percent * reservePercent < GRAPHENE_100_PERCENT := by
  obtain ⟨low, high, rfl⟩ :=
    cutFee_eq_percentOf nonneg fits small isCommission
  generalize percentOf amount percent = part at low high isReserved
  by_cases signed : part < 2 ^ 63
  · rw [int64_of_range (by omega) signed] at isReserved
    obtain ⟨lowCut, highCut, rfl⟩ :=
      cutFee_eq_percentOf low signed smallReserve isReserved
    have zeroIff :
        int64 (percentOf part reservePercent) = 0 ↔
          percentOf part reservePercent = 0 := by
      rw [int64]
      omega
    obtain ⟨lowProduct, _⟩ := percentOf_bounds low signed smallReserve
    rw [zeroIff, percentOf, GRAPHENE_100_PERCENT]
    omega
  · -- the commission reads as negative
    have isNegative : int64 part = part - 2 ^ 64 := by
      rw [int64]
      omega
    rw [isNegative] at isReserved
    rcases cutFee_of_neg (by omega) (by omega) smallReserve isReserved with
      ⟨rfl, rfl⟩ | ⟨rfl, rfl⟩
    · simp [GRAPHENE_100_PERCENT]
    · rw [GRAPHENE_100_PERCENT]
      omega

/-- The payment keeps its amount within the asset exactly when it is made in
the asset with the id 0 and nothing is reserved. -/
theorem PaidShares.conserves_iff {before after : Database}
    {commissionAccount : AccountId} {commission reserved : Int}
    (shares : PaidShares before after commissionAccount o commission reserved)
    (positive : 0 < o.amount.amount) :
    Conserves before after commissionAccount o ↔
      o.amount.assetId = 0 ∧ reserved = 0 := by
  constructor
  · rintro ⟨datasource, rest, reserve, adds, balances, supplies⟩
    have noReserve : reserve = 0 := by
      have supply := supplies o.amount.assetId
      rw [shares.supplies, if_pos rfl] at supply
      omega
    have atTarget := balances o.target o.amount.assetId
    have atCommission := balances commissionAccount o.amount.assetId
    rw [shares.balances] at atTarget atCommission
    simp only [placed, and_true, true_and] at atTarget atCommission
    by_cases core : o.amount.assetId = 0
    · refine ⟨core, ?_⟩
      simp only [core, and_true] at atTarget atCommission
      by_cases same : commissionAccount = o.target
      · simp only [same, if_true] at atTarget
        omega
      · have differs : o.target ≠ commissionAccount := fun is => same is.symm
        simp only [same, differs, if_true, if_false] at atTarget atCommission
        omega
    · exfalso
      simp only [core, and_false, if_false] at atTarget atCommission
      by_cases same : commissionAccount = o.target
      · simp only [same, if_true] at atTarget
        omega
      · have differs : o.target ≠ commissionAccount := fun is => same is.symm
        simp only [same, differs, if_true, if_false] at atTarget atCommission
        omega
  · rintro ⟨core, nothing⟩
    refine ⟨o.amount.amount - commission, commission - reserved, 0, ?_, ?_, ?_⟩
    · omega
    · intro holder held
      rw [shares.balances, core]
    · intro held
      rw [shares.supplies, ite_self, Int.sub_zero]

end Shares

/-- A payment that is accepted for a known request conserves the paid asset
exactly when it is made in the asset with the id 0 and the part of the
commission that is meant for the reserve rounds to nothing. -/
theorem payment_conserves_iff
    {m feePaid after : Market} {o : PayDataTransactionOperation}
    {dto : DataTransaction}
    (valid : o.validate = .ok ())
    (evaluates : payEvaluate m o = .ok ())
    (same : SameTransactions m feePaid)
    (found : feePaid.findTransaction o.requestId = some dto)
    (applies : payApply feePaid o = .ok after) :
    Conserves feePaid.ledger after.ledger (commissionAccountOf feePaid) o ↔
      o.amount.assetId = 0 ∧
        percentOf o.amount.amount (commissionPercentOf feePaid dto).toNat *
            (reservePercentOf feePaid).toNat <
          GRAPHENE_100_PERCENT := by
  have positive : 0 < o.amount.amount := by
    simp only [PayDataTransactionOperation.validate, bind_eq_ok,
      fcAssert_eq_ok] at valid
    exact valid.choose_spec.2.choose_spec.2
  have fits : o.amount.amount < 2 ^ 63 := by
    rw [same.findTransaction] at found
    exact payEvaluate_amount found evaluates
  obtain ⟨commission, reserved, isCommission, isReserved, shares⟩ :=
    payMoney_shares (payApply_ledger found applies)
  rw [shares.conserves_iff positive,
    reserved_eq_zero_iff (Int.le_of_lt positive) fits
      (commissionPercentOf feePaid dto).toNat_lt
      (reservePercentOf feePaid).toNat_lt isCommission isReserved]

/-- A payment of the price in the given asset. -/
def payIn (assetId : AssetId) : PayDataTransactionOperation :=
  ⟨⟨0, 1⟩, 0, 1, ⟨100, assetId⟩, "request"⟩

/-- The payment of the sample in the asset with the id 0 conserves it. -/
theorem payment_conserves_iff_sample :
    ∃ after,
      payApply (askedMarket .uploaded [⟨0, 0, 1000⟩]) (payIn 0) = .ok after ∧
      Conserves (askedMarket .uploaded [⟨0, 0, 1000⟩]).ledger after.ledger 2
        (payIn 0) := by
  refine ⟨askedMarket .payed [⟨0, 0, 900⟩, ⟨1, 0, 90⟩, ⟨2, 0, 10⟩],
    by decide +kernel, ?_⟩
  exact (@payment_conserves_iff (askedMarket .uploaded [⟨0, 0, 1000⟩])
    (askedMarket .uploaded [⟨0, 0, 1000⟩]) _ _ _ (by decide) (by decide)
    ⟨rfl, rfl⟩ rfl (by decide +kernel)).mpr (by decide)

/-- A payment in the asset with the id 1, the core asset of the time, is
credited in another one. -/
theorem paid_in_other_asset :
    ∃ after,
      (payIn 1).validate = .ok () ∧
      payEvaluate (askedMarket .uploaded [⟨0, 1, 1000⟩]) (payIn 1) = .ok () ∧
      payApply (askedMarket .uploaded [⟨0, 1, 1000⟩]) (payIn 1) = .ok after ∧
      (after.ledger.getBalance 0 1).amount = 900 ∧
      (after.ledger.getBalance 1 1).amount = 0 ∧
      (after.ledger.getBalance 1 0).amount = 90 ∧
      ¬ Conserves (askedMarket .uploaded [⟨0, 1, 1000⟩]).ledger after.ledger 2
        (payIn 1) := by
  have applies :
      payApply (askedMarket .uploaded [⟨0, 1, 1000⟩]) (payIn 1) =
        .ok (askedMarket .payed [⟨0, 1, 900⟩, ⟨1, 0, 90⟩, ⟨2, 0, 10⟩]) := by
    decide +kernel
  refine ⟨_, by decide, by decide, applies, rfl, rfl, rfl, ?_⟩
  obtain ⟨commission, reserved, _, _, shares⟩ :=
    payMoney_shares (payApply_ledger rfl applies)
  intro conserves
  exact absurd ((shares.conserves_iff (by decide)).mp conserves).1 (by decide)

end GxbCore.DataMarket
