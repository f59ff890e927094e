import GxbCore.Ledger.AssetOps
import GxbCore.Ledger.Prices

/-!
# Converting from the core asset

The evaluators of assets accept an exchange rate with the core asset on either
side, and `asset * price` exchanges in either direction.  `from_core_asset` takes
the core asset for the base of the rate and computes with 64 bits.
-/

namespace GxbCore.Ledger

open Database

section Conversion

def HARDFORK_1013_TIME : Time :=
  1553832000

/-- The quotient of two `share_type`s, cut towards zero. -/
def shareQuotient (a b : Int) : Except Fault Int := do
  fcAssert (b ≠ 0) "divide by zero"
  share (a.tdiv b)

/-- `from_core_asset`; `realRate` is the rate as a floating-point number, cut to
an integer, which is read before the hard fork only. -/
def Database.fromCoreAsset
    (realRate : Price → Int) (db : Database) (a : Asset) (id : AssetId) :
    Except Fault Asset := do
  let coreAssetId := db.currentCoreAssetId
  fcAssert (a.assetId = coreAssetId) "asset is not core_asset"
  if id = coreAssetId then
    return a
  else
    let asset ← db.getAsset id
    let pr := asset.options.coreExchangeRate
    if db.headBlockTime > HARDFORK_1013_TIME then
      let product ← share (a.amount * pr.quote.amount)
      let amount ← shareQuotient product pr.base.amount
      return ⟨amount, id⟩
    else
      let amount ← shareQuotient a.amount (realRate pr)
      return ⟨amount, id⟩

end Conversion

section Rates

variable {db after : Database} {required : Option Int}

/-- The amounts of the rate have 64 bits. -/
structure Price.Fits (p : Price) : Prop where
  base_low : -2 ^ 63 ≤ p.base.amount
  base_high : p.base.amount < 2 ^ 63
  quote_low : -2 ^ 63 ≤ p.quote.amount
  quote_high : p.quote.amount < 2 ^ 63

/-- A rate between an asset and the core asset of its time, with a positive
amount on the side of the asset. -/
structure Price.Between (p : Price) (id core : AssetId) : Prop where
  proper : p.Proper
  sides :
    (p.base.assetId = id ∧ p.quote.assetId = core ∧ 0 < p.base.amount) ∨
      (p.quote.assetId = id ∧ p.base.assetId = core ∧ 0 < p.quote.amount)

/-- The rates that `asset_create` and `asset_update` have accepted for an asset,
with the core asset at that time. -/
inductive AcceptedRate : AssetId → AssetId → Price → Prop
  | create {db after : Database} {required : Option Int}
      {o : AssetCreateOperation} {id : AssetId} {a : AssetObject}
      (valid : o.validate = .ok ())
      (fits : o.commonOptions.coreExchangeRate.Fits)
      (returns : (assetCreateEvaluator required o).run db = .ok after)
      (fresh : db.assets.length ≤ id)
      (created : after.assets[id]? = some a) :
      AcceptedRate id db.currentCoreAssetId a.options.coreExchangeRate
  | update {db after : Database} {required : Option Int}
      {o : AssetUpdateOperation} {a : AssetObject}
      (fits : o.newOptions.coreExchangeRate.Fits)
      (returns : (assetUpdateEvaluator required o).run db = .ok after)
      (updated : after.assets[o.assetToUpdate]? = some a) :
      AcceptedRate o.assetToUpdate db.currentCoreAssetId
        a.options.coreExchangeRate

/-- A negative amount reads as one that exceeds the largest supply. -/
theorem exchange_nonneg {amount divisor : Int}
    (low : -2 ^ 63 ≤ amount) (positive : 0 < divisor) (fits : divisor < 2 ^ 63)
    (atMost :
      uint128 (uint128 1 * amount) / divisor ≤ GRAPHENE_MAX_SHARE_SUPPLY) :
    0 ≤ amount := by
  by_contra negative
  have wrapped : uint128 (uint128 1 * amount) = amount + 2 ^ 128 := by
    unfold uint128
    omega
  have large :
      GRAPHENE_MAX_SHARE_SUPPLY + 1 ≤
        uint128 (uint128 1 * amount) / divisor := by
    rw [Int.le_ediv_iff_mul_le positive, wrapped]
    have product :
        (GRAPHENE_MAX_SHARE_SUPPLY + 1) * divisor ≤
          (GRAPHENE_MAX_SHARE_SUPPLY + 1) * 2 ^ 63 :=
      Int.mul_le_mul_of_nonneg_left (Int.le_of_lt fits) (by decide)
    refine product.trans ?_
    rw [GRAPHENE_MAX_SHARE_SUPPLY]
    omega
  omega

/-- A rate at which one unit is exchanged is a rate between its asset and the
one it is exchanged into. -/
theorem between_of_times {id : AssetId} {p : Price} {dummy : Asset}
    (fits : p.Fits) (returns : Asset.times ⟨1, id⟩ p = .ok dummy) :
    p.Between id dummy.assetId := by
  obtain ⟨baseLow, baseHigh, quoteLow, quoteHigh⟩ := fits
  unfold Asset.times at returns
  split at returns
  · next isBase =>
      simp only [bind_eq_ok, fcAssert_eq_ok] at returns
      obtain ⟨_, positive, _, atMost, returns⟩ := returns
      cases returns
      have quote := exchange_nonneg quoteLow positive baseHigh atMost
      exact ⟨⟨⟨Int.le_of_lt positive, baseHigh⟩, ⟨quote, quoteHigh⟩⟩,
        .inl ⟨isBase.symm, rfl, positive⟩⟩
  · split at returns
    · next isQuote =>
        simp only [bind_eq_ok, fcAssert_eq_ok] at returns
        obtain ⟨_, positive, _, atMost, returns⟩ := returns
        cases returns
        have base := exchange_nonneg baseLow positive quoteHigh atMost
        exact ⟨⟨⟨base, baseHigh⟩, ⟨Int.le_of_lt positive, quoteHigh⟩⟩,
          .inr ⟨isQuote.symm, rfl, positive⟩⟩
    · cases returns

theorem assetUpdate_between {o : AssetUpdateOperation} {a : AssetObject}
    (fits : o.newOptions.coreExchangeRate.Fits)
    (returns : (assetUpdateEvaluator required o).run db = .ok after)
    (updated : after.assets[o.assetToUpdate]? = some a) :
    a.options.coreExchangeRate.Between o.assetToUpdate
      db.currentCoreAssetId := by
  obtain ⟨coreFee, converted, paid, applied, ran⟩ := run_cases returns
  have evaluated := ran.evaluated
  have applies := ran.applies
  simp only [assetUpdateEvaluator, bind_eq_ok, getAsset_eq_ok, fcAssert_eq_ok]
    at evaluated applies
  obtain ⟨before, found, applies⟩ := applies
  cases applies
  obtain ⟨inside, _⟩ := List.getElem?_eq_some_iff.mp found
  rw [adjustBalance_assets ran.charges, setAsset,
    List.getElem?_set_self inside] at updated
  cases updated
  obtain ⟨_, _, _, _, _, _, _, _, _, _, _, _, _, _, _, _, _, _, _, _, _, _, dummy,
    exchanged, isCore⟩ := evaluated
  have between := between_of_times fits exchanged
  rw [isCore] at between
  exact between

/-- The new asset takes the place of the one that was named beside the core
asset. -/
theorem createdAsset_between {o : AssetCreateOperation} {pool : Int}
    (rate : o.commonOptions.coreExchangeRate.Proper)
    (basePos : 0 < o.commonOptions.coreExchangeRate.base.amount)
    (quotePos : 0 < o.commonOptions.coreExchangeRate.quote.amount)
    (mentions :
      o.commonOptions.coreExchangeRate.base.assetId = db.currentCoreAssetId ∨
        o.commonOptions.coreExchangeRate.quote.assetId =
          db.currentCoreAssetId) :
    (createdAsset db o pool).options.coreExchangeRate.Between db.assets.length
      db.currentCoreAssetId := by
  by_cases isBase :
      o.commonOptions.coreExchangeRate.base.assetId = db.currentCoreAssetId
  · simp only [createdAsset, isBase, if_true]
    exact ⟨⟨rate.base, ⟨rate.quote.nonneg, rate.quote.fits⟩⟩,
      .inr ⟨rfl, isBase, quotePos⟩⟩
  · have isQuote := mentions.resolve_left isBase
    simp only [createdAsset, isBase, if_false]
    exact ⟨⟨⟨rate.base.nonneg, rate.base.fits⟩, rate.quote⟩,
      .inl ⟨rfl, isQuote, basePos⟩⟩

theorem assetCreate_between {o : AssetCreateOperation} {id : AssetId}
    {a : AssetObject} (valid : o.validate = .ok ())
    (fits : o.commonOptions.coreExchangeRate.Fits)
    (returns : (assetCreateEvaluator required o).run db = .ok after)
    (fresh : db.assets.length ≤ id) (created : after.assets[id]? = some a) :
    a.options.coreExchangeRate.Between id db.currentCoreAssetId := by
  simp only [AssetCreateOperation.validate, AssetOptions.validate,
    Price.validate, bind_eq_ok, fcAssert_eq_ok, if_true] at valid
  obtain ⟨_, _, _, _, _, ⟨_, _, _, _, _, _, _, _, _, _, _, _, _, _, _,
    ⟨_, basePos, _, quotePos, _⟩, _⟩, _⟩ := valid
  have rate : o.commonOptions.coreExchangeRate.Proper :=
    ⟨⟨Int.le_of_lt basePos, fits.base_high⟩,
      ⟨Int.le_of_lt quotePos, fits.quote_high⟩⟩
  obtain ⟨coreFee, converted, paid, applied, ran⟩ := run_cases returns
  have frame :=
    (convertFee_frame ran.prepared ran.converts).trans (payFee_frame ran.pays).1
  have mentions :
      o.commonOptions.coreExchangeRate.base.assetId = paid.currentCoreAssetId ∨
        o.commonOptions.coreExchangeRate.quote.assetId =
          paid.currentCoreAssetId := by
    rw [frame.core_eq]
    have evaluated := ran.evaluated
    simp only [assetCreateEvaluator, checkExchangeRate, bind_eq_ok,
      fcAssert_eq_ok] at evaluated
    obtain ⟨_, _, _, _, _, _, evaluated⟩ := evaluated
    split at evaluated
    · simp only [bind_eq_ok, fcAssert_eq_ok] at evaluated
      obtain ⟨_, checked, _⟩ := evaluated
      exact checked
    · simp only [bind_eq_ok, fcAssert_eq_ok] at evaluated
      obtain ⟨_, _, _, _, _, checked, _⟩ := evaluated
      exact checked
  have notMore : paid.assets.length ≤ db.assets.length := by
    by_contra more
    have foundB :=
      List.getElem?_eq_getElem (l := paid.assets) (Nat.lt_of_not_le more)
    obtain ⟨c, foundC, _⟩ := frame.assets _ _ foundB
    exact absurd (List.getElem?_eq_some_iff.mp foundC).1 (Nat.lt_irrefl _)
  rw [adjustBalance_assets ran.charges] at created
  -- the asset is the only one beyond those that were there
  have isCreated :
      ∀ {before : Database} {pool : Int},
        before.assets.length = paid.assets.length →
        applied =
          { before with
            assets := before.assets ++ [createdAsset paid o pool] } →
        id = paid.assets.length ∧ a = createdAsset paid o pool := by
    intro before pool sameLength same
    have beyond : before.assets.length ≤ id := by omega
    rw [same, List.getElem?_append_right beyond] at created
    obtain ⟨inside, isOnly⟩ := List.getElem?_eq_some_iff.mp created
    simp only [List.length_singleton, List.getElem_singleton] at inside isOnly
    exact ⟨Nat.le_antisymm (by omega) (by omega), isOnly.symm⟩
  have between := @createdAsset_between paid o
  rw [frame.core_eq] at between mentions
  rcases assetCreate_cases ran.applies with
    ⟨pool, _, same⟩ | ⟨_, _, b, raised, _, raises, same⟩
  · obtain ⟨isNew, isAsset⟩ := isCreated rfl same
    rw [isNew, isAsset]
    exact between rate basePos quotePos mentions
  · have sameLength : raised.assets.length = paid.assets.length := by
      rw [raises, setAsset, List.length_set]
    obtain ⟨isNew, isAsset⟩ := isCreated sameLength same
    rw [isNew, isAsset]
    exact between rate basePos quotePos mentions

theorem AcceptedRate.between {id core : AssetId} {rate : Price}
    (accepted : AcceptedRate id core rate) : rate.Between id core := by
  cases accepted with
  | create valid fits returns fresh created =>
      exact assetCreate_between valid fits returns fresh created
  | update fits returns updated =>
      exact assetUpdate_between fits returns updated

end Rates

section Agreement

variable {db : Database} {realRate : Price → Int} {a : Asset} {id : AssetId}
  {core : AssetId} {rate : Price} {asset : AssetObject}

/-- `from_core_asset` returns what the price multiplication returns, or both
throw, and what it returns is worth at most the amount. -/
structure AgreesWithPrice (realRate : Price → Int) (db : Database) (a : Asset)
    (id : AssetId) (rate : Price) : Prop where
  same :
    ∀ result,
      db.fromCoreAsset realRate a id = .ok result ↔ a.times rate = .ok result
  back :
    ∀ result back, db.fromCoreAsset realRate a id = .ok result →
      result.times rate = .ok back → back.amount ≤ a.amount

/-- When the two agree.  For the core asset itself its rate to itself has to
leave the amount as it is.  With the core asset as the base the product in 64
bits must overflow exactly when the result exceeds the largest supply; with the
core asset as the quote, what is returned must in addition be nothing or at a
rate of one to one. -/
inductive Convertible (core id : AssetId) (rate : Price) (amount : Int) : Prop
  | core (itself : id = core)
      (within : rate.base.assetId = rate.quote.assetId)
      (positive : 0 < rate.base.amount)
      (low : amount * rate.base.amount ≤ amount * rate.quote.amount)
      (high :
        amount * rate.quote.amount < (amount + 1) * rate.base.amount)
  | base (other : id ≠ core) (isBase : rate.base.assetId = core)
      (together :
        rate.base.amount = 0 ∨
          (amount * rate.quote.amount < 2 ^ 63 ↔
            portion amount rate.quote.amount rate.base.amount ≤
              GRAPHENE_MAX_SHARE_SUPPLY))
  | quote (other : id ≠ core) (isQuote : rate.quote.assetId = core)
      (positive : 0 < rate.quote.amount)
      (together :
        amount * rate.quote.amount < 2 ^ 63 ↔
          portion amount rate.base.amount rate.quote.amount ≤
            GRAPHENE_MAX_SHARE_SUPPLY)
      (symmetric :
        amount * rate.quote.amount < 2 ^ 63 →
          amount = 0 ∨ rate.quote.amount = rate.base.amount)

theorem fromCoreAsset_core (isCore : a.assetId = db.currentCoreAssetId)
    (itself : id = db.currentCoreAssetId) :
    db.fromCoreAsset realRate a id = .ok a := by
  simp [fromCoreAsset, fcAssert, require, isCore, itself, pure, Except.pure,
    bind, Except.bind]

theorem agrees_core_iff (between : rate.Between id core) (amount : a.Proper)
    (atMost : a.amount ≤ GRAPHENE_MAX_SHARE_SUPPLY)
    (isCore : a.assetId = db.currentCoreAssetId)
    (itself : id = db.currentCoreAssetId) :
    AgreesWithPrice realRate db a id rate ↔
      rate.base.assetId = rate.quote.assetId ∧ 0 < rate.base.amount ∧
        portion a.amount rate.quote.amount rate.base.amount = a.amount := by
  have converted := @fromCoreAsset_core db realRate a id isCore itself
  have exchanged := @times_eq_ok a a rate amount between.proper
  have isId : a.assetId = id := isCore.trans itself.symm
  have same :
      a.times rate = .ok a ↔
        rate.base.assetId = rate.quote.assetId ∧ 0 < rate.base.amount ∧
          portion a.amount rate.quote.amount rate.base.amount = a.amount := by
    rw [exchanged]
    constructor
    · rintro (⟨isBase, positive, _, whole⟩ | ⟨notBase, _, _, _, whole⟩)
      · have assets := congrArg Asset.assetId whole
        exact ⟨isBase.symm.trans assets.symm, positive,
          congrArg Asset.amount whole⟩
      · exact absurd (congrArg Asset.assetId whole).symm notBase
    · rintro ⟨within, positive, whole⟩
      have isBase : a.assetId = rate.base.assetId := by
        rcases between.sides with ⟨sameId, _⟩ | ⟨sameId, _⟩
        · exact isId.trans sameId.symm
        · exact isId.trans (sameId.symm.trans within.symm)
      refine .inl ⟨isBase, positive, by rw [whole]; exact atMost, ?_⟩
      rw [whole, ← within, ← isBase]
  rw [← same]
  constructor
  · intro agrees
    exact (agrees.same a).mp converted
  · intro unchanged
    refine ⟨?_, ?_⟩
    · intro result
      rw [converted, unchanged]
    · intro result back returns again
      rw [converted] at returns
      cases returns
      rw [unchanged] at again
      cases again
      exact Int.le_refl _

section OtherAsset

variable (late : db.headBlockTime > HARDFORK_1013_TIME)
  (found : db.getAsset id = .ok asset)
  (isRate : asset.options.coreExchangeRate = rate)
  (amount : a.Proper) (proper : rate.Proper)
  (isCore : a.assetId = db.currentCoreAssetId)
  (other : id ≠ db.currentCoreAssetId)

include late found isRate amount proper isCore other

/-- After the hard fork the base is always taken for the core asset. -/
theorem fromCoreAsset_eq_ok {result : Asset} :
    db.fromCoreAsset realRate a id = .ok result ↔
      rate.base.amount ≠ 0 ∧ a.amount * rate.quote.amount < 2 ^ 63 ∧
        ⟨portion a.amount rate.quote.amount rate.base.amount, id⟩ =
          result := by
  have product : 0 ≤ a.amount * rate.quote.amount :=
    Int.mul_nonneg amount.nonneg proper.quote.nonneg
  have quotient :
      (a.amount * rate.quote.amount).tdiv rate.base.amount =
        portion a.amount rate.quote.amount rate.base.amount :=
    Int.tdiv_eq_ediv_of_nonneg product
  have bounds :
      0 ≤ portion a.amount rate.quote.amount rate.base.amount ∧
        portion a.amount rate.quote.amount rate.base.amount ≤
          a.amount * rate.quote.amount :=
    ⟨Int.ediv_nonneg product proper.base.nonneg,
      Int.ediv_le_self _ product⟩
  have inside :
      db.fromCoreAsset realRate a id = (do
        let product ← share (a.amount * rate.quote.amount)
        let amount ← shareQuotient product rate.base.amount
        return ⟨amount, id⟩) := by
    simp only [fromCoreAsset, fcAssert, require, isCore, other, found, isRate,
      late, if_true, if_false, bind, Except.bind]
  rw [inside]
  simp only [shareQuotient, bind_eq_ok, fcAssert_eq_ok]
  constructor
  · rintro ⟨whole, multiplied, part, ⟨_, nonzero, divided⟩, returns⟩
    obtain ⟨rfl, _, high⟩ := share_eq_ok multiplied
    cases returns
    rw [eq_of_share divided, quotient]
    exact ⟨nonzero, high, rfl⟩
  · rintro ⟨nonzero, high, rfl⟩
    refine ⟨_, if_pos ⟨by omega, high⟩, _, ⟨⟨⟩, nonzero, ?_⟩, rfl⟩
    rw [quotient]
    exact if_pos ⟨by omega, by omega⟩

theorem agrees_base_iff (isBase : rate.base.assetId = db.currentCoreAssetId)
    (isQuote : rate.quote.assetId = id) (positive : 0 < rate.quote.amount) :
    AgreesWithPrice realRate db a id rate ↔
      rate.base.amount = 0 ∨
        (a.amount * rate.quote.amount < 2 ^ 63 ↔
          portion a.amount rate.quote.amount rate.base.amount ≤
            GRAPHENE_MAX_SHARE_SUPPLY) := by
  have converted := fun result =>
    @fromCoreAsset_eq_ok db realRate a id rate asset late found isRate amount
      proper isCore other result
  have exchanged :
      ∀ result, a.times rate = .ok result ↔
        0 < rate.base.amount ∧
          portion a.amount rate.quote.amount rate.base.amount ≤
            GRAPHENE_MAX_SHARE_SUPPLY ∧
          ⟨portion a.amount rate.quote.amount rate.base.amount, id⟩ =
            result := by
    intro result
    rw [times_eq_ok amount proper]
    simp [isCore, isBase, isQuote]
  have nonneg := proper.base.nonneg
  constructor
  · intro agrees
    by_cases nothing : rate.base.amount = 0
    · exact .inl nothing
    · right
      have same :=
        agrees.same
          ⟨portion a.amount rate.quote.amount rate.base.amount, id⟩
      rw [converted, exchanged] at same
      constructor
      · intro fits
        exact (same.mp ⟨nothing, fits, rfl⟩).2.1
      · intro atMost
        exact (same.mpr ⟨by omega, atMost, rfl⟩).2.1
  · intro together
    refine ⟨?_, ?_⟩
    · intro result
      rw [converted, exchanged]
      rcases together with nothing | together
      · simp [nothing]
      · constructor
        · rintro ⟨nonzero, fits, same⟩
          exact ⟨by omega, together.mp fits, same⟩
        · rintro ⟨basePos, atMost, same⟩
          exact ⟨by omega, together.mpr atMost, same⟩
    · intro result back returns again
      obtain ⟨nonzero, fits, rfl⟩ := (converted result).mp returns
      have basePos : 0 < rate.base.amount := by omega
      have product : 0 ≤ a.amount * rate.quote.amount :=
        Int.mul_nonneg amount.nonneg proper.quote.nonneg
      have worth :
          Asset.Proper
            ⟨portion a.amount rate.quote.amount rate.base.amount, id⟩ :=
        ⟨Int.ediv_nonneg product nonneg,
          Int.lt_of_le_of_lt (Int.ediv_le_self _ product) fits⟩
      rcases (times_eq_ok worth proper).mp again with
        ⟨wrong, _⟩ | ⟨_, _, _, _, rfl⟩
      · exact absurd (wrong.trans isBase) other
      · exact portion_back_le positive basePos

theorem agrees_quote_iff (isQuote : rate.quote.assetId = db.currentCoreAssetId)
    (isBase : rate.base.assetId = id) (positive : 0 < rate.base.amount) :
    AgreesWithPrice realRate db a id rate ↔
      0 < rate.quote.amount ∧
        (a.amount * rate.quote.amount < 2 ^ 63 ↔
          portion a.amount rate.base.amount rate.quote.amount ≤
            GRAPHENE_MAX_SHARE_SUPPLY) ∧
        (a.amount * rate.quote.amount < 2 ^ 63 →
          a.amount = 0 ∨ rate.quote.amount = rate.base.amount) := by
  have converted :
      ∀ result, db.fromCoreAsset realRate a id = .ok result ↔
        a.amount * rate.quote.amount < 2 ^ 63 ∧
          ⟨portion a.amount rate.quote.amount rate.base.amount, id⟩ =
            result := by
    intro result
    rw [fromCoreAsset_eq_ok late found isRate amount proper isCore other]
    simp [Int.ne_of_gt positive]
  have exchanged :
      ∀ result, a.times rate = .ok result ↔
        0 < rate.quote.amount ∧
          portion a.amount rate.base.amount rate.quote.amount ≤
            GRAPHENE_MAX_SHARE_SUPPLY ∧
          ⟨portion a.amount rate.base.amount rate.quote.amount, id⟩ =
            result := by
    intro result
    rw [times_eq_ok amount proper]
    simp [isCore, isBase, isQuote, Ne.symm other]
  constructor
  · intro agrees
    have quotePos : 0 < rate.quote.amount := by
      by_contra nothing
      have zero : rate.quote.amount = 0 := by
        have nonneg := proper.quote.nonneg
        omega
      have returned :=
        (agrees.same _).mp ((converted _).mpr ⟨by simp [zero], rfl⟩)
      exact nothing ((exchanged _).mp returned).1
    have sameValue :
        a.amount * rate.quote.amount < 2 ^ 63 →
          portion a.amount rate.base.amount rate.quote.amount ≤
              GRAPHENE_MAX_SHARE_SUPPLY ∧
            portion a.amount rate.base.amount rate.quote.amount =
              portion a.amount rate.quote.amount rate.base.amount := by
      intro fits
      have returned := (agrees.same _).mp ((converted _).mpr ⟨fits, rfl⟩)
      obtain ⟨_, atMost, same⟩ := (exchanged _).mp returned
      exact ⟨atMost, congrArg Asset.amount same⟩
    refine ⟨quotePos, ⟨fun fits => (sameValue fits).1, ?_⟩, ?_⟩
    · intro atMost
      have returned :=
        (agrees.same _).mpr ((exchanged _).mpr ⟨quotePos, atMost, rfl⟩)
      exact ((converted _).mp returned).1
    · intro fits
      exact (portion_eq_inverse_iff amount.nonneg quotePos positive).mp
        (sameValue fits).2.symm
  · rintro ⟨quotePos, together, symmetric⟩
    have sameValue :
        a.amount * rate.quote.amount < 2 ^ 63 →
          portion a.amount rate.quote.amount rate.base.amount =
            portion a.amount rate.base.amount rate.quote.amount := by
      intro fits
      exact (portion_eq_inverse_iff amount.nonneg quotePos positive).mpr
        (symmetric fits)
    refine ⟨?_, ?_⟩
    · intro result
      rw [converted, exchanged]
      constructor
      · rintro ⟨fits, same⟩
        rw [sameValue fits] at same
        exact ⟨quotePos, together.mp fits, same⟩
      · rintro ⟨_, atMost, same⟩
        have fits := together.mpr atMost
        rw [← sameValue fits] at same
        exact ⟨fits, same⟩
    · intro result back returns again
      obtain ⟨fits, rfl⟩ := (converted result).mp returns
      rw [sameValue fits] at again
      have forth := (exchanged _).mpr ⟨quotePos, together.mp fits, rfl⟩
      rcases (times_eq_ok (Asset.Proper.times forth) proper).mp again with
        ⟨_, _, _, rfl⟩ | ⟨notBase, _⟩
      · rcases symmetric fits with nothing | oneToOne
        · simp [nothing]
        · rw [oneToOne, portion_self _ (Int.ne_of_gt positive),
            portion_self _ (Int.ne_of_gt positive)]
      · exact absurd isBase.symm notBase

end OtherAsset

/-- For every accepted rate with the core asset on a side, and every amount of
the core asset up to the largest supply, converting agrees with the price
exactly when it is convertible. -/
theorem core_conversion_agrees
    (accepted : AcceptedRate id core rate)
    (late : db.headBlockTime > HARDFORK_1013_TIME)
    (found : db.getAsset id = .ok asset)
    (isRate : asset.options.coreExchangeRate = rate)
    (mentions :
      rate.base.assetId = db.currentCoreAssetId ∨
        rate.quote.assetId = db.currentCoreAssetId)
    (isCore : a.assetId = db.currentCoreAssetId)
    (nonneg : 0 ≤ a.amount) (atMost : a.amount ≤ GRAPHENE_MAX_SHARE_SUPPLY) :
    AgreesWithPrice realRate db a id rate ↔
      Convertible db.currentCoreAssetId id rate a.amount := by
  have between := accepted.between
  have amount : a.Proper :=
    ⟨nonneg, by rw [GRAPHENE_MAX_SHARE_SUPPLY] at atMost; omega⟩
  by_cases itself : id = db.currentCoreAssetId
  · rw [agrees_core_iff between amount atMost isCore itself]
    constructor
    · rintro ⟨within, positive, whole⟩
      have low := (le_portion_iff positive).mp (Int.le_of_eq whole.symm)
      have high : portion a.amount rate.quote.amount rate.base.amount <
          a.amount + 1 := by omega
      exact .core itself within positive low
        ((Int.ediv_lt_iff_lt_mul positive).mp high)
    · intro convertible
      cases convertible with
      | core _ within positive low high =>
          have atLeast := (le_portion_iff positive).mpr low
          have below : portion a.amount rate.quote.amount rate.base.amount <
              a.amount + 1 := (Int.ediv_lt_iff_lt_mul positive).mpr high
          exact ⟨within, positive, by omega⟩
      | base other => exact absurd itself other
      | quote other => exact absurd itself other
  · rcases between.sides with
      ⟨isBase, sameCore, positive⟩ | ⟨isQuote, sameCore, positive⟩
    · have isQuote : rate.quote.assetId = db.currentCoreAssetId :=
        mentions.resolve_left (fun wrong => itself (isBase.symm.trans wrong))
      rw [agrees_quote_iff late found isRate amount between.proper isCore itself
        isQuote isBase positive]
      constructor
      · rintro ⟨quotePos, together, symmetric⟩
        exact .quote itself isQuote quotePos together symmetric
      · intro convertible
        cases convertible with
        | core same => exact absurd same itself
        | base _ wrong => exact absurd (isBase.symm.trans wrong) itself
        | quote _ _ quotePos together symmetric =>
            exact ⟨quotePos, together, symmetric⟩
    · have isBase : rate.base.assetId = db.currentCoreAssetId :=
        mentions.resolve_right (fun wrong => itself (isQuote.symm.trans wrong))
      rw [agrees_base_iff late found isRate amount between.proper isCore itself
        isBase isQuote positive]
      constructor
      · intro together
        exact .base itself isBase together
      · intro convertible
        cases convertible with
        | core same => exact absurd same itself
        | base _ _ together => exact together
        | quote _ wrong => exact absurd (isQuote.symm.trans wrong) itself

end Agreement

section Sample

def ratedDatabase (rate : Price) : Database :=
  { plainDatabase with
    assets :=
      [plainAsset, plainAsset,
        { plainAsset with
          symbol := "RATED"
          options := { plainAsset.options with coreExchangeRate := rate } }]
    accounts := [plainAccount 1] }

def updateRate (rate : Price) : AssetUpdateOperation where
  fee := ⟨0, 1⟩
  issuer := 0
  assetToUpdate := 2
  newIssuer := none
  newOptions := { plainAsset.options with coreExchangeRate := rate }
  newSymbol := none

/-- Five units of the core asset for one of the third asset, written with the
core asset on either side. -/
def coreAsBase : Price :=
  ⟨⟨5, 1⟩, ⟨1, 2⟩⟩

def coreAsQuote : Price :=
  ⟨⟨1, 2⟩, ⟨5, 1⟩⟩

theorem coreAsBase_accepted : AcceptedRate 2 1 coreAsBase :=
  @AcceptedRate.update (ratedDatabase coreAsQuote) _ none (updateRate coreAsBase)
    _ ⟨by decide, by decide, by decide, by decide⟩ rfl rfl

theorem coreAsQuote_accepted : AcceptedRate 2 1 coreAsQuote :=
  @AcceptedRate.update (ratedDatabase coreAsBase) _ none (updateRate coreAsQuote)
    _ ⟨by decide, by decide, by decide, by decide⟩ rfl rfl

theorem core_conversion_agrees_base :
    AgreesWithPrice (fun _ => 0) (ratedDatabase coreAsBase) ⟨12, 1⟩ 2
      coreAsBase :=
  (core_conversion_agrees coreAsBase_accepted (by decide) rfl rfl (.inl rfl) rfl
    (by decide) (by decide)).mpr
    (.base (by decide) rfl (.inr (by decide)))

/-- Of twelve units of the core asset, at five for one, the price makes two and
the conversion sixty. -/
theorem core_as_quote_diverges :
    AcceptedRate 2 1 coreAsQuote ∧
      ¬ AgreesWithPrice (fun _ => 0) (ratedDatabase coreAsQuote) ⟨12, 1⟩ 2
        coreAsQuote ∧
      (ratedDatabase coreAsQuote).fromCoreAsset (fun _ => 0) ⟨12, 1⟩ 2 =
        .ok ⟨60, 2⟩ ∧
      Asset.times ⟨12, 1⟩ coreAsQuote = .ok ⟨2, 2⟩ := by
  refine ⟨coreAsQuote_accepted, ?_, by decide, by decide⟩
  intro agrees
  have wrong := (agrees.same ⟨60, 2⟩).mp (by decide)
  exact absurd wrong (by decide)

end Sample

end GxbCore.Ledger
