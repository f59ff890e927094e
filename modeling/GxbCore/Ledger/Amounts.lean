import Mathlib.Algebra.Order.Ring.Int
import GxbCore.Lib.Fallible

/-!
# Amounts, assets and prices

`share_type` is a checked 64-bit integer: a result that does not fit throws.
An amount is therefore an `Int` that `share` lets through.  Where the source
leaves the checked type and computes with plain machine integers, the result is
wrapped to their width.
-/

namespace GxbCore.Ledger

abbrev AccountId := Nat

abbrev AssetId := Nat

abbrev WitnessId := Nat

abbrev VestingBalanceId := Nat

/-- `time_point_sec` -/
abbrev Time := UInt32

/-- The exceptions: a failed `FC_ASSERT` with its text, a `share_type` that
overflows, an object that is not there. -/
inductive Fault where
  | assertion (message : String)
  | overflow
  | notFound
  deriving DecidableEq, Repr

def fcAssert (condition : Prop) [Decidable condition]
    (message : String) : Except Fault Unit :=
  require condition (.assertion message)

theorem fcAssert_eq_ok {condition : Prop} [Decidable condition]
    {message : String} {done : Unit} :
    fcAssert condition message = .ok done ↔ condition :=
  require_eq_ok

def GRAPHENE_MAX_SHARE_SUPPLY : Int :=
  100000000000000000

def GRAPHENE_100_PERCENT : Nat :=
  10000

def GRAPHENE_1_PERCENT : Nat :=
  100

def GRAPHENE_BLOCKCHAIN_PRECISION : Nat :=
  100000

/-- The value as a `share_type`. -/
def share (value : Int) : Except Fault Int :=
  if -2 ^ 63 ≤ value ∧ value < 2 ^ 63 then .ok value else .error .overflow

/-- What `share_type` arithmetic returns is the exact value, in range. -/
theorem share_eq_ok {value result : Int} (returns : share value = .ok result) :
    result = value ∧ -2 ^ 63 ≤ value ∧ value < 2 ^ 63 := by
  unfold share at returns
  split at returns
  · next inRange =>
      cases returns
      exact ⟨rfl, inRange⟩
  · cases returns

theorem eq_of_share {value result : Int} (returns : share value = .ok result) :
    result = value :=
  (share_eq_ok returns).1

/-- The value read as an `int64_t`. -/
def int64 (value : Int) : Int :=
  (value + 2 ^ 63) % 2 ^ 64 - 2 ^ 63

/-- `uint128_t::to_uint64` -/
def toUint64 (value : Int) : Except Fault Int := do
  fcAssert (value < 2 ^ 64) ""
  return value

/-- The value read as a `uint128_t`. -/
def uint128 (value : Int) : Int :=
  value % 2 ^ 128

theorem int64_of_range {value : Int}
    (low : -2 ^ 63 ≤ value) (high : value < 2 ^ 63) : int64 value = value := by
  unfold int64
  omega

structure Asset where
  amount : Int
  assetId : AssetId
  deriving DecidableEq, Repr

/-- `-a` -/
def Asset.neg (a : Asset) : Asset :=
  { a with amount := -a.amount }

/-- `a <= b`, which throws on two different assets. -/
def Asset.le (a b : Asset) : Except Fault Bool := do
  fcAssert (a.assetId = b.assetId) "${a} == ${b}"
  return decide (a.amount ≤ b.amount)

theorem Asset.amount_le {a b : Asset} (isLe : a.le b = .ok true) :
    a.amount ≤ b.amount := by
  unfold Asset.le at isLe
  obtain ⟨_, _, isLe⟩ := bind_eq_ok.mp isLe
  exact of_decide_eq_true (Except.ok.inj isLe)

structure Price where
  base : Asset
  quote : Asset
  deriving DecidableEq, Repr

/-- `price::validate` -/
def Price.validate (rate : Price) : Except Fault Unit := do
  fcAssert (0 < rate.base.amount) ""
  fcAssert (0 < rate.quote.amount) ""
  fcAssert (rate.base.assetId ≠ rate.quote.assetId) ""

/-- `asset * price` -/
def Asset.times (a : Asset) (rate : Price) : Except Fault Asset :=
  if a.assetId = rate.base.assetId then do
    fcAssert (0 < rate.base.amount) ""
    let result :=
      uint128 (uint128 a.amount * rate.quote.amount) / rate.base.amount
    fcAssert (result ≤ GRAPHENE_MAX_SHARE_SUPPLY) ""
    return ⟨result, rate.quote.assetId⟩
  else if a.assetId = rate.quote.assetId then do
    fcAssert (0 < rate.quote.amount) ""
    let result :=
      uint128 (uint128 a.amount * rate.base.amount) / rate.quote.amount
    fcAssert (result ≤ GRAPHENE_MAX_SHARE_SUPPLY) ""
    return ⟨result, rate.base.assetId⟩
  else
    .error (.assertion "invalid asset * price, asset ${a} price ${p}")

theorem times_nonneg {a result : Asset} {rate : Price}
    (returns : a.times rate = .ok result) : 0 ≤ result.amount := by
  unfold Asset.times at returns
  split at returns
  · obtain ⟨_, positive, returns⟩ := bind_eq_ok.mp returns
    obtain ⟨_, _, returns⟩ := bind_eq_ok.mp returns
    cases returns
    exact Int.ediv_nonneg (Int.emod_nonneg _ (by decide))
      (Int.le_of_lt (fcAssert_eq_ok.mp positive))
  · split at returns
    · obtain ⟨_, positive, returns⟩ := bind_eq_ok.mp returns
      obtain ⟨_, _, returns⟩ := bind_eq_ok.mp returns
      cases returns
      exact Int.ediv_nonneg (Int.emod_nonneg _ (by decide))
        (Int.le_of_lt (fcAssert_eq_ok.mp positive))
    · cases returns

/-- `cut_fee`: the part of `a` that `p` hundredths of a percent are. -/
def cutFee (a : Int) (p : Nat) : Except Fault Int :=
  if a = 0 ∨ p = 0 then
    .ok 0
  else if p = GRAPHENE_100_PERCENT then
    .ok a
  else do
    let r ← toUint64 (uint128 (uint128 a * p) / GRAPHENE_100_PERCENT)
    return int64 r

/-- The cut of an amount is not negative, and at most its exact part. -/
theorem cutFee_bounds {a cut : Int} {p : Nat}
    (nonneg : 0 ≤ a) (fits : a < 2 ^ 63) (atMostAll : p ≤ GRAPHENE_100_PERCENT)
    (returns : cutFee a p = .ok cut) :
    0 ≤ cut ∧ cut * GRAPHENE_100_PERCENT ≤ a * p := by
  unfold cutFee at returns
  split_ifs at returns with nothing everything
  · cases returns
    exact ⟨le_rfl, by
      rw [Int.zero_mul]
      exact Int.mul_nonneg nonneg (Int.natCast_nonneg p)⟩
  · cases returns
    rw [everything]
    exact ⟨nonneg, le_rfl⟩
  · obtain ⟨r, converted, returns⟩ := bind_eq_ok.mp returns
    obtain ⟨_, _, same⟩ := bind_eq_ok.mp converted
    cases same
    cases returns
    have smaller : a * p ≤ a * GRAPHENE_100_PERCENT :=
      Int.mul_le_mul_of_nonneg_left (Int.ofNat_le.mpr atMostAll) nonneg
    have exactly : uint128 (uint128 a * p) = a * p := by
      have low : 0 ≤ a * p := Int.mul_nonneg nonneg (Int.natCast_nonneg p)
      unfold GRAPHENE_100_PERCENT at smaller
      rw [uint128, uint128, Int.emod_eq_of_lt nonneg (by omega)]
      exact Int.emod_eq_of_lt low (by omega)
    rw [exactly]
    unfold GRAPHENE_100_PERCENT at *
    have low : 0 ≤ a * p := Int.mul_nonneg nonneg (Int.natCast_nonneg p)
    rw [int64_of_range (by omega) (by omega)]
    omega

end GxbCore.Ledger
