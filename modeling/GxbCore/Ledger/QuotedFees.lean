import GxbCore.Ledger.CoreConversion

/-!
# Quoted fees

`calculate_fee` makes the fee of an operation in the core asset, exchanges it at
a rate and adds single units until what it quotes is worth the fee.  What a quote
is worth is compared with an amount of the base of the rate, so a quote can be
made when the core asset is the base, or when the rate is replaced by the unit
price.
-/

namespace GxbCore.Ledger

section Quotes

/-- `fee_schedule`: what `calc_fee_visitor` returns for an operation, and the
scale. -/
structure FeeSchedule (Op : Type) where
  baseValue : Op → UInt64
  scale : UInt32

variable {Op : Type}

/-- `price::unit_price` -/
def unitPrice (id : AssetId) : Price :=
  ⟨⟨1, id⟩, ⟨1, id⟩⟩

def exchangeRate (coreExchangeRate : Price) (coreAssetId : AssetId) : Price :=
  if coreAssetId = 1 ∧ coreExchangeRate.quote.assetId = 1 ∧
      coreExchangeRate.base.assetId = 0 then
    unitPrice coreAssetId
  else
    coreExchangeRate

/-- The fee in the core asset. -/
def FeeSchedule.scaled (schedule : FeeSchedule Op) (op : Op) : Int :=
  uint128 ((schedule.baseValue op).toNat * schedule.scale.toNat) /
    GRAPHENE_100_PERCENT

/-- `a < b` on assets, which throws on two different ones. -/
def Asset.lt (a b : Asset) : Except Fault Bool := do
  fcAssert (a.assetId = b.assetId) "${a} == ${b}"
  return decide (a.amount < b.amount)

/-- The loop: add single units until the result is worth the target. -/
def raiseFee (rate : Price) (target result : Asset) : Except Fault Asset := do
  let worth ← result.times rate
  let less ← worth.lt target
  if less then
    if result.amount < 2 ^ 63 - 1 then
      raiseFee rate target { result with amount := result.amount + 1 }
    else
      .error .overflow
  else
    return result
termination_by (2 ^ 63 - result.amount).toNat
decreasing_by
  show (2 ^ 63 - (result.amount + 1)).toNat < (2 ^ 63 - result.amount).toNat
  omega

/-- `fee_schedule::calculate_fee` -/
def FeeSchedule.calculateFee
    (schedule : FeeSchedule Op) (op : Op) (coreExchangeRate : Price)
    (coreAssetId : AssetId) : Except Fault Asset := do
  let scaled := schedule.scaled op
  fcAssert (scaled ≤ GRAPHENE_MAX_SHARE_SUPPLY) ""
  let rate := exchangeRate coreExchangeRate coreAssetId
  let result ← Asset.times ⟨scaled, coreAssetId⟩ rate
  let result ← raiseFee rate ⟨scaled, rate.base.assetId⟩ result
  fcAssert (result.amount ≤ GRAPHENE_MAX_SHARE_SUPPLY) ""
  return result

/-- `core_fee_paid` for a fee, as `prepare_fee` computes it at the rate of its
asset. -/
def coreFeePaid (coreExchangeRate : Price) (coreAssetId : AssetId)
    (fee : Asset) : Except Fault Int :=
  if fee.assetId = coreAssetId then
    return fee.amount
  else do
    let feeFromPool ← fee.times coreExchangeRate
    fcAssert (feeFromPool.assetId = coreAssetId) "fee asset id ${f}"
    return feeFromPool.amount

/-- The check of `evaluate`: what is paid is at least the required fee. -/
def FeeSchedule.accepts
    (schedule : FeeSchedule Op) (op : Op) (coreExchangeRate : Price)
    (coreAssetId : AssetId) (fee : Asset) : Except Fault Unit := do
  let paid ← coreFeePaid coreExchangeRate coreAssetId fee
  let required ← schedule.calculateFee op (unitPrice coreAssetId) coreAssetId
  fcAssert (required.amount ≤ paid) "Insufficient Fee Paid"

end Quotes

section Loop

variable {rate : Price} {target result : Asset}

theorem raiseFee_enough {worth : Asset}
    (exchanged : result.times rate = .ok worth)
    (sameAsset : worth.assetId = target.assetId)
    (enough : target.amount ≤ worth.amount) :
    raiseFee rate target result = .ok result := by
  rw [raiseFee]
  simp [exchanged, Asset.lt, sameAsset, fcAssert, require, Int.not_lt.mpr enough,
    bind, Except.bind, pure, Except.pure]

theorem raiseFee_less {worth : Asset}
    (exchanged : result.times rate = .ok worth)
    (sameAsset : worth.assetId = target.assetId)
    (less : worth.amount < target.amount) (fits : result.amount < 2 ^ 63 - 1) :
    raiseFee rate target result =
      raiseFee rate target { result with amount := result.amount + 1 } := by
  rw [raiseFee]
  simp only [exchanged, Asset.lt, sameAsset, fcAssert, require, less, fits,
    if_true, decide_true, bind, Except.bind, pure, Except.pure]

/-- What the loop returns was exchanged and compared with the target. -/
theorem raiseFee_eq_ok {fee : Asset}
    (returns : raiseFee rate target result = .ok fee) :
    fee.assetId = result.assetId ∧
      ∃ worth, fee.times rate = .ok worth ∧ worth.assetId = target.assetId ∧
        target.amount ≤ worth.amount := by
  induction result using raiseFee.induct with
  | case1 result ih =>
      rw [raiseFee] at returns
      simp only [Asset.lt, bind_eq_ok, fcAssert_eq_ok] at returns
      obtain ⟨worth, exchanged, less, ⟨_, sameAsset, compared⟩, returns⟩ :=
        returns
      cases compared
      split at returns
      · split at returns
        · next fits => exact ih fits returns
        · cases returns
      · next enough =>
          cases returns
          refine ⟨rfl, worth, exchanged, sameAsset, ?_⟩
          simpa using enough

/-- From the amount that is rounded down, the loop finds the least one that is
worth the target, unless its worth exceeds the largest supply. -/
theorem raiseFee_rounded {required : Int} {core : AssetId} {fee : Asset}
    (proper : rate.Proper) (basePos : 0 < rate.base.amount)
    (quotePos : 0 < rate.quote.amount) (isBase : rate.base.assetId = core)
    (other : rate.quote.assetId ≠ core) (nonneg : 0 ≤ required)
    (atMost : required ≤ GRAPHENE_MAX_SHARE_SUPPLY)
    (rounded :
      portion required rate.quote.amount rate.base.amount ≤
        GRAPHENE_MAX_SHARE_SUPPLY) :
    raiseFee rate ⟨required, core⟩
        ⟨portion required rate.quote.amount rate.base.amount,
          rate.quote.assetId⟩ = .ok fee ↔
      portion (leastWorth required rate.base.amount rate.quote.amount)
          rate.base.amount rate.quote.amount ≤ GRAPHENE_MAX_SHARE_SUPPLY ∧
        ⟨leastWorth required rate.base.amount rate.quote.amount,
          rate.quote.assetId⟩ = fee := by
  have notMore : GRAPHENE_MAX_SHARE_SUPPLY < 2 ^ 62 := by decide
  have least := fun amount =>
    @leastWorth_le_iff amount rate.base.amount rate.quote.amount required
      basePos quotePos
  obtain ⟨low, high⟩ :=
    @leastWorth_le_succ rate.base.amount rate.quote.amount required basePos
      quotePos
  -- the exchange back, for the amounts that the loop comes to
  have back :
      ∀ {amount : Int} {result : Asset}, 0 ≤ amount → amount < 2 ^ 63 →
        (Asset.times ⟨amount, rate.quote.assetId⟩ rate = .ok result ↔
          portion amount rate.base.amount rate.quote.amount ≤
              GRAPHENE_MAX_SHARE_SUPPLY ∧
            ⟨portion amount rate.base.amount rate.quote.amount, core⟩ =
              result) := by
    intro amount result amountNonneg amountFits
    rw [times_eq_ok ⟨amountNonneg, amountFits⟩ proper]
    simp [isBase, other, quotePos]
  obtain ⟨down, isDown⟩ :
      ∃ down, portion required rate.quote.amount rate.base.amount = down :=
    ⟨_, rfl⟩
  obtain ⟨up, isUp⟩ :
      ∃ up, leastWorth required rate.base.amount rate.quote.amount = up :=
    ⟨_, rfl⟩
  have downNonneg : 0 ≤ down := by
    rw [← isDown]
    exact portion_nonneg nonneg (Int.le_of_lt quotePos) basePos
  have downWorth :
      portion down rate.base.amount rate.quote.amount ≤
        GRAPHENE_MAX_SHARE_SUPPLY := by
    rw [← isDown]
    exact (portion_back_le quotePos basePos).trans atMost
  rw [isDown] at low high rounded ⊢
  rw [isUp] at low high least ⊢
  have exchanged := (back downNonneg (by omega)).mpr ⟨downWorth, rfl⟩
  by_cases enough : up ≤ down
  · have same : up = down := by omega
    have ends :=
      @raiseFee_enough rate ⟨required, core⟩ _ _ exchanged rfl
        ((least down).mp enough)
    rw [ends, same]
    constructor
    · intro returns
      cases returns
      exact ⟨downWorth, rfl⟩
    · rintro ⟨_, rfl⟩
      rfl
  · have same : up = down + 1 := by omega
    have less : portion down rate.base.amount rate.quote.amount < required := by
      rw [← Int.not_le, ← least]
      exact enough
    have goesOn :=
      @raiseFee_less rate ⟨required, core⟩ _ _ exchanged rfl less
        (by show down < _; omega)
    rw [goesOn, same]
    constructor
    · intro returns
      obtain ⟨_, worth, again, _⟩ := raiseFee_eq_ok returns
      have isWorth : required ≤
          portion (down + 1) rate.base.amount rate.quote.amount :=
        (least (down + 1)).mp (by omega)
      by_cases fits :
          portion (down + 1) rate.base.amount rate.quote.amount ≤
            GRAPHENE_MAX_SHARE_SUPPLY
      · have exchangedUp :=
          (back (by omega) (by omega)).mpr ⟨fits, rfl⟩
        have ends :=
          @raiseFee_enough rate ⟨required, core⟩ _ _ exchangedUp rfl isWorth
        rw [ends] at returns
        cases returns
        exact ⟨fits, rfl⟩
      · rw [raiseFee] at returns
        obtain ⟨_, thrown, _⟩ := bind_eq_ok.mp returns
        have within := (@back (down + 1) _ (by omega) (by omega)).mp thrown
        exact absurd within.1 fits
    · rintro ⟨fits, rfl⟩
      have exchangedUp := (back (by omega) (by omega)).mpr ⟨fits, rfl⟩
      exact raiseFee_enough exchangedUp rfl ((least (down + 1)).mp (by omega))

end Loop

section Quotes

variable {Op : Type} {schedule : FeeSchedule Op} {op : Op} {rate : Price}
  {core : AssetId} {fee : Asset}

def WorthFee (rate : Price) (core : AssetId) (required : Int)
    (candidate : Asset) : Prop :=
  ∃ worth, candidate.times rate = .ok worth ∧ worth.assetId = core ∧
    required ≤ worth.amount

/-- An amount that can be paid, and is worth the fee. -/
def PaysFor (rate : Price) (core : AssetId) (required : Int)
    (candidate : Asset) : Prop :=
  0 ≤ candidate.amount ∧ candidate.amount ≤ GRAPHENE_MAX_SHARE_SUPPLY ∧
    WorthFee rate core required candidate

def feeAsset (rate : Price) (core : AssetId) : AssetId :=
  if rate.base.assetId = core then rate.quote.assetId else rate.base.assetId

/-- A quote is the least amount of the fee asset that pays the fee, and the
evaluator accepts it; without a quote the fee, or every amount that is worth it,
exceeds the largest supply. -/
structure QuotesWell (schedule : FeeSchedule Op) (op : Op) (rate : Price)
    (core : AssetId) : Prop where
  least :
    ∀ fee, schedule.calculateFee op rate core = .ok fee →
      fee.assetId = feeAsset (exchangeRate rate core) core ∧
      PaysFor (exchangeRate rate core) core (schedule.scaled op) fee ∧
      ∀ amount,
        PaysFor (exchangeRate rate core) core (schedule.scaled op)
            ⟨amount, fee.assetId⟩ →
          fee.amount ≤ amount
  accepted :
    ∀ fee, schedule.calculateFee op rate core = .ok fee →
      schedule.accepts op rate core fee = .ok ()
  refused :
    ∀ fault, schedule.calculateFee op rate core = .error fault →
      GRAPHENE_MAX_SHARE_SUPPLY < schedule.scaled op ∨
        ∀ amount,
          ¬ PaysFor (exchangeRate rate core) core (schedule.scaled op)
            ⟨amount, feeAsset (exchangeRate rate core) core⟩

/-- The core asset is the base of the rate, or the rate is replaced, or no
amount up to the largest supply is worth the fee. -/
def Quotable (rate : Price) (core : AssetId) (required : Int) : Prop :=
  rate.base.assetId = core ∨
    (core = 1 ∧ rate.quote.assetId = 1 ∧ rate.base.assetId = 0) ∨
    ¬ (required ≤ GRAPHENE_MAX_SHARE_SUPPLY ∧
      leastWorth required rate.quote.amount rate.base.amount ≤
        GRAPHENE_MAX_SHARE_SUPPLY ∧
      portion (leastWorth required rate.quote.amount rate.base.amount)
          rate.quote.amount rate.base.amount ≤ GRAPHENE_MAX_SHARE_SUPPLY)

theorem scaled_nonneg (schedule : FeeSchedule Op) (op : Op) :
    0 ≤ schedule.scaled op :=
  Int.ediv_nonneg (Int.emod_nonneg _ (by decide)) (by decide)

theorem calculateFee_eq_ok :
    schedule.calculateFee op rate core = .ok fee ↔
      schedule.scaled op ≤ GRAPHENE_MAX_SHARE_SUPPLY ∧
        ∃ rounded,
          Asset.times ⟨schedule.scaled op, core⟩ (exchangeRate rate core) =
            .ok rounded ∧
          raiseFee (exchangeRate rate core)
              ⟨schedule.scaled op, (exchangeRate rate core).base.assetId⟩
              rounded = .ok fee ∧
          fee.amount ≤ GRAPHENE_MAX_SHARE_SUPPLY := by
  simp only [FeeSchedule.calculateFee, bind_eq_ok, fcAssert_eq_ok]
  constructor
  · rintro ⟨_, atMost, rounded, exchanged, found, raised, _, within, returns⟩
    cases returns
    exact ⟨atMost, rounded, exchanged, raised, within⟩
  · rintro ⟨atMost, rounded, exchanged, raised, within⟩
    exact ⟨⟨⟩, atMost, rounded, exchanged, fee, raised, ⟨⟩, within, rfl⟩

theorem unitPrice_proper (id : AssetId) : (unitPrice id).Proper := by
  refine ⟨⟨?_, ?_⟩, ⟨?_, ?_⟩⟩
  · show (0 : Int) ≤ 1
    decide
  · show (1 : Int) < 2 ^ 63
    decide
  · show (0 : Int) ≤ 1
    decide
  · show (1 : Int) < 2 ^ 63
    decide

theorem calculateFee_unit (isUnit : exchangeRate rate core = unitPrice core) :
    schedule.calculateFee op rate core = .ok fee ↔
      schedule.scaled op ≤ GRAPHENE_MAX_SHARE_SUPPLY ∧
        ⟨schedule.scaled op, core⟩ = fee := by
  have nonneg := scaled_nonneg schedule op
  rw [calculateFee_eq_ok, isUnit]
  by_cases atMost : schedule.scaled op ≤ GRAPHENE_MAX_SHARE_SUPPLY
  · have amount : Asset.Proper ⟨schedule.scaled op, core⟩ :=
      ⟨nonneg, by
        show schedule.scaled op < 2 ^ 63
        rw [GRAPHENE_MAX_SHARE_SUPPLY] at atMost
        omega⟩
    have same : portion (schedule.scaled op) 1 1 = schedule.scaled op :=
      portion_self _ (by decide)
    have exchanged :
        Asset.times ⟨schedule.scaled op, core⟩ (unitPrice core) =
          .ok ⟨schedule.scaled op, core⟩ := by
      rw [times_eq_ok amount (unitPrice_proper core)]
      exact .inl ⟨rfl, Int.one_pos, by rw [unitPrice, same]; exact atMost,
        by rw [unitPrice, same]⟩
    have ends :=
      @raiseFee_enough (unitPrice core) ⟨schedule.scaled op, core⟩ _ _ exchanged
        rfl (Int.le_refl _)
    constructor
    · rintro ⟨_, rounded, again, raised, _⟩
      cases exchanged.symm.trans again
      cases ends.symm.trans raised
      exact ⟨atMost, rfl⟩
    · rintro ⟨_, rfl⟩
      exact ⟨atMost, _, exchanged, ends, atMost⟩
  · simp [atMost]

theorem calculateFee_base (proper : (exchangeRate rate core).Proper)
    (basePos : 0 < (exchangeRate rate core).base.amount)
    (quotePos : 0 < (exchangeRate rate core).quote.amount)
    (isBase : (exchangeRate rate core).base.assetId = core)
    (other : (exchangeRate rate core).quote.assetId ≠ core) :
    schedule.calculateFee op rate core = .ok fee ↔
      schedule.scaled op ≤ GRAPHENE_MAX_SHARE_SUPPLY ∧
        leastWorth (schedule.scaled op) (exchangeRate rate core).base.amount
            (exchangeRate rate core).quote.amount ≤
          GRAPHENE_MAX_SHARE_SUPPLY ∧
        portion
            (leastWorth (schedule.scaled op)
              (exchangeRate rate core).base.amount
              (exchangeRate rate core).quote.amount)
            (exchangeRate rate core).base.amount
            (exchangeRate rate core).quote.amount ≤
          GRAPHENE_MAX_SHARE_SUPPLY ∧
        ⟨leastWorth (schedule.scaled op)
            (exchangeRate rate core).base.amount
            (exchangeRate rate core).quote.amount,
          (exchangeRate rate core).quote.assetId⟩ = fee := by
  have nonneg := scaled_nonneg schedule op
  rw [calculateFee_eq_ok]
  generalize exchangeRate rate core = used at *
  generalize schedule.scaled op = required at *
  have exchanged :
      required ≤ GRAPHENE_MAX_SHARE_SUPPLY →
        ∀ rounded, Asset.times ⟨required, core⟩ used = .ok rounded ↔
          portion required used.quote.amount used.base.amount ≤
              GRAPHENE_MAX_SHARE_SUPPLY ∧
            ⟨portion required used.quote.amount used.base.amount,
              used.quote.assetId⟩ = rounded := by
    intro atMost rounded
    have fits : required < 2 ^ 63 := by
      rw [GRAPHENE_MAX_SHARE_SUPPLY] at atMost
      omega
    rw [times_eq_ok ⟨nonneg, fits⟩ proper]
    simp [isBase, basePos]
  have low :=
    (@leastWorth_le_succ used.base.amount used.quote.amount required basePos
      quotePos).1
  rw [isBase]
  constructor
  · rintro ⟨atMost, rounded, forth, raised, within⟩
    obtain ⟨small, rfl⟩ := (exchanged atMost rounded).mp forth
    obtain ⟨worth, same⟩ :=
      (raiseFee_rounded proper basePos quotePos isBase other nonneg atMost
        small).mp raised
    rw [← same] at within
    exact ⟨atMost, within, worth, same⟩
  · rintro ⟨atMost, within, worth, same⟩
    have small :
        portion required used.quote.amount used.base.amount ≤
          GRAPHENE_MAX_SHARE_SUPPLY := low.trans within
    refine ⟨atMost, _, (exchanged atMost _).mpr ⟨small, rfl⟩, ?_, ?_⟩
    · exact (raiseFee_rounded proper basePos quotePos isBase other nonneg atMost
        small).mpr ⟨worth, same⟩
    · rw [← same]
      exact within

/-- With the core asset on the other side alone, the comparison throws. -/
theorem calculateFee_quote
    (other : (exchangeRate rate core).base.assetId ≠ core)
    (apart :
      (exchangeRate rate core).base.assetId ≠
        (exchangeRate rate core).quote.assetId) :
    schedule.calculateFee op rate core ≠ .ok fee := by
  intro returns
  obtain ⟨_, rounded, forth, raised, _⟩ := calculateFee_eq_ok.mp returns
  obtain ⟨sameAsset, worth, back, isBase, _⟩ := raiseFee_eq_ok raised
  generalize exchangeRate rate core = used at *
  have inBase : rounded.assetId = used.base.assetId := by
    unfold Asset.times at forth
    rw [if_neg (Ne.symm other)] at forth
    split at forth
    · obtain ⟨_, _, forth⟩ := bind_eq_ok.mp forth
      obtain ⟨_, _, forth⟩ := bind_eq_ok.mp forth
      cases forth
      rfl
    · cases forth
  have inQuote : worth.assetId = used.quote.assetId := by
    unfold Asset.times at back
    rw [if_pos (sameAsset.trans inBase)] at back
    obtain ⟨_, _, back⟩ := bind_eq_ok.mp back
    obtain ⟨_, _, back⟩ := bind_eq_ok.mp back
    cases back
    rfl
  exact apart (isBase.symm.trans inQuote)

/-- What it means to pay the fee in the asset of the quote of a rate. -/
theorem pays_iff {amount required num den : Int} {candidate other : AssetId}
    {used : Price}
    (exchanges :
      ∀ {amount : Int}, 0 ≤ amount → amount < 2 ^ 63 →
        ∀ result, Asset.times ⟨amount, candidate⟩ used = .ok result ↔
          portion amount num den ≤ GRAPHENE_MAX_SHARE_SUPPLY ∧
            ⟨portion amount num den, other⟩ = result) :
    PaysFor used other required ⟨amount, candidate⟩ ↔
      0 ≤ amount ∧ amount ≤ GRAPHENE_MAX_SHARE_SUPPLY ∧
        portion amount num den ≤ GRAPHENE_MAX_SHARE_SUPPLY ∧
        required ≤ portion amount num den := by
  constructor
  · rintro ⟨nonneg, atMost, worth, exchanged, _, enough⟩
    have nonneg : 0 ≤ amount := nonneg
    have atMost : amount ≤ GRAPHENE_MAX_SHARE_SUPPLY := atMost
    have fits : amount < 2 ^ 63 := by
      rw [GRAPHENE_MAX_SHARE_SUPPLY] at atMost
      omega
    obtain ⟨small, rfl⟩ := (exchanges nonneg fits _).mp exchanged
    exact ⟨nonneg, atMost, small, enough⟩
  · rintro ⟨nonneg, atMost, small, enough⟩
    have fits : amount < 2 ^ 63 := by
      rw [GRAPHENE_MAX_SHARE_SUPPLY] at atMost
      omega
    exact ⟨nonneg, atMost, _, (exchanges nonneg fits _).mpr ⟨small, rfl⟩, rfl,
      enough⟩

theorem quotesWell_base (proper : rate.Proper) (basePos : 0 < rate.base.amount)
    (quotePos : 0 < rate.quote.amount)
    (apart : rate.base.assetId ≠ rate.quote.assetId)
    (isBase : rate.base.assetId = core) : QuotesWell schedule op rate core := by
  have nonneg := scaled_nonneg schedule op
  have isUsed : exchangeRate rate core = rate := by
    rw [exchangeRate, if_neg]
    rintro ⟨isOne, _, isZero⟩
    rw [isBase, isOne] at isZero
    cases isZero
  have other : rate.quote.assetId ≠ core := isBase ▸ Ne.symm apart
  have quoted := fun fee => @calculateFee_base _ schedule op rate core fee
  rw [isUsed] at quoted
  replace quoted := fun fee =>
    quoted fee proper basePos quotePos isBase other
  have unit :=
    @calculateFee_unit _ schedule op (unitPrice core) core
  have unitUsed : exchangeRate (unitPrice core) core = unitPrice core := by
    simp [exchangeRate, unitPrice]
  have pays := fun amount =>
    @pays_iff amount (schedule.scaled op) rate.base.amount rate.quote.amount
      rate.quote.assetId core rate (by
        intro amount amountNonneg amountFits result
        rw [times_eq_ok ⟨amountNonneg, amountFits⟩ proper]
        simp [isBase, other, quotePos])
  have least := fun amount =>
    @leastWorth_le_iff amount rate.base.amount rate.quote.amount
      (schedule.scaled op) basePos quotePos
  have leastNonneg :=
    @leastWorth_nonneg rate.base.amount rate.quote.amount (schedule.scaled op)
      nonneg basePos quotePos
  have asset : feeAsset rate core = rate.quote.assetId := if_pos isBase
  refine ⟨?_, ?_, ?_⟩
  · intro fee returns
    obtain ⟨_, within, worth, rfl⟩ := (quoted fee).mp returns
    rw [isUsed]
    refine ⟨asset.symm, ?_, ?_⟩
    · exact (pays _).mpr
        ⟨leastNonneg, within, worth, (least _).mp (Int.le_refl _)⟩
    · intro amount paid
      obtain ⟨_, _, _, enough⟩ := (pays amount).mp paid
      exact (least amount).mpr enough
  · intro fee returns
    obtain ⟨atMost, within, worth, rfl⟩ := (quoted fee).mp returns
    have fee := (pays _).mpr
      ⟨leastNonneg, within, worth, (least _).mp (Int.le_refl _)⟩
    obtain ⟨_, _, paid, exchanged, isCore, enough⟩ := fee
    have required := (unit unitUsed).mpr ⟨atMost, rfl⟩
    simp only [FeeSchedule.accepts, coreFeePaid, other, if_false, bind_eq_ok,
      fcAssert_eq_ok]
    exact ⟨paid.amount, ⟨paid, exchanged, ⟨⟩, isCore, rfl⟩, _, required, enough⟩
  · intro fault throws
    rw [isUsed, asset]
    by_cases atMost : schedule.scaled op ≤ GRAPHENE_MAX_SHARE_SUPPLY
    · right
      intro amount paid
      obtain ⟨amountNonneg, amountLe, small, enough⟩ := (pays amount).mp paid
      have fewer := (least amount).mpr enough
      have worth :=
        (portion_mono proper.base.nonneg quotePos fewer).trans small
      have returns :=
        (quoted _).mpr ⟨atMost, fewer.trans amountLe, worth, rfl⟩
      rw [throws] at returns
      cases returns
    · exact .inl (Int.not_le.mp atMost)

theorem quotesWell_unit (isUnit : exchangeRate rate core = unitPrice core) :
    QuotesWell schedule op rate core := by
  have nonneg := scaled_nonneg schedule op
  have quoted := fun fee =>
    @calculateFee_unit _ schedule op rate core fee isUnit
  have unitUsed : exchangeRate (unitPrice core) core = unitPrice core := by
    simp [exchangeRate, unitPrice]
  have unit := fun fee =>
    @calculateFee_unit _ schedule op (unitPrice core) core fee unitUsed
  have same : ∀ amount, portion amount 1 1 = amount := fun amount =>
    portion_self amount (by decide)
  have pays := fun amount =>
    @pays_iff amount (schedule.scaled op) 1 1 core core (unitPrice core) (by
      intro amount amountNonneg amountFits result
      rw [times_eq_ok ⟨amountNonneg, amountFits⟩ (unitPrice_proper core)]
      simp [unitPrice])
  have asset : feeAsset (unitPrice core) core = core := if_pos rfl
  refine ⟨?_, ?_, ?_⟩
  · intro fee returns
    obtain ⟨atMost, rfl⟩ := (quoted fee).mp returns
    rw [isUnit]
    refine ⟨asset.symm, ?_, ?_⟩
    · refine (pays _).mpr ⟨nonneg, atMost, ?_⟩
      rw [same]
      exact ⟨atMost, Int.le_refl _⟩
    · intro amount paid
      obtain ⟨_, _, _, enough⟩ := (pays amount).mp paid
      rw [same] at enough
      exact enough
  · intro fee returns
    obtain ⟨atMost, rfl⟩ := (quoted fee).mp returns
    have required := (unit _).mpr ⟨atMost, rfl⟩
    simp only [FeeSchedule.accepts, coreFeePaid, if_true, bind_eq_ok,
      fcAssert_eq_ok]
    exact ⟨_, rfl, _, required, Int.le_refl _⟩
  · intro fault throws
    left
    by_contra atMost
    have returns := (quoted _).mpr ⟨Int.not_lt.mp atMost, rfl⟩
    rw [throws] at returns
    cases returns

/-- With the core asset as the quote nothing is quoted, which is right only when
nothing can be paid. -/
theorem quotesWell_quote_iff (proper : rate.Proper)
    (basePos : 0 < rate.base.amount) (quotePos : 0 < rate.quote.amount)
    (apart : rate.base.assetId ≠ rate.quote.assetId)
    (isQuote : rate.quote.assetId = core)
    (kept : ¬ (core = 1 ∧ rate.quote.assetId = 1 ∧ rate.base.assetId = 0)) :
    QuotesWell schedule op rate core ↔
      ¬ (schedule.scaled op ≤ GRAPHENE_MAX_SHARE_SUPPLY ∧
        leastWorth (schedule.scaled op) rate.quote.amount rate.base.amount ≤
          GRAPHENE_MAX_SHARE_SUPPLY ∧
        portion
            (leastWorth (schedule.scaled op) rate.quote.amount
              rate.base.amount) rate.quote.amount rate.base.amount ≤
          GRAPHENE_MAX_SHARE_SUPPLY) := by
  have nonneg := scaled_nonneg schedule op
  have isUsed : exchangeRate rate core = rate := if_neg kept
  have notBase : rate.base.assetId ≠ core := isQuote ▸ apart
  have never : ∀ fee, schedule.calculateFee op rate core ≠ .ok fee := by
    intro fee
    apply calculateFee_quote
    · rw [isUsed]
      exact notBase
    · rw [isUsed]
      exact apart
  have pays := fun amount =>
    @pays_iff amount (schedule.scaled op) rate.quote.amount rate.base.amount
      rate.base.assetId core rate (by
        intro amount amountNonneg amountFits result
        rw [times_eq_ok ⟨amountNonneg, amountFits⟩ proper]
        simp [isQuote, basePos])
  have least := fun amount =>
    @leastWorth_le_iff amount rate.quote.amount rate.base.amount
      (schedule.scaled op) quotePos basePos
  have asset : feeAsset rate core = rate.base.assetId := if_neg notBase
  obtain ⟨fault, throws⟩ :
      ∃ fault, schedule.calculateFee op rate core = .error fault := by
    cases thrown : schedule.calculateFee op rate core with
    | ok fee => exact absurd thrown (never fee)
    | error fault => exact ⟨fault, rfl⟩
  constructor
  · rintro well ⟨atMost, within, worth⟩
    rcases well.refused fault throws with more | unpayable
    · exact absurd atMost (Int.not_le.mpr more)
    · rw [isUsed, asset] at unpayable
      refine unpayable _ ((pays _).mpr
        ⟨?_, within, worth, (least _).mp (Int.le_refl _)⟩)
      exact leastWorth_nonneg nonneg quotePos basePos
  · intro unpayable
    refine ⟨fun fee returns => absurd returns (never fee),
      fun fee returns => absurd returns (never fee), ?_⟩
    intro _ _
    rw [isUsed, asset]
    by_cases atMost : schedule.scaled op ≤ GRAPHENE_MAX_SHARE_SUPPLY
    · right
      intro amount paid
      obtain ⟨amountNonneg, amountLe, small, enough⟩ := (pays amount).mp paid
      have fewer := (least amount).mpr enough
      exact unpayable ⟨atMost, fewer.trans amountLe,
        (portion_mono proper.quote.nonneg basePos fewer).trans small⟩
    · exact .inl (Int.not_le.mp atMost)

def flatSchedule : FeeSchedule Unit where
  baseValue := fun _ => 12
  scale := 10000

end Quotes

end GxbCore.Ledger
