import GxbCore.Ledger.CoreConversion

/-!
# Fees of contract calls

After a contract has run, its caller is charged the base fee and each payer its
RAM.  A fee in another asset is what the core fee is converted to, and the pool
of that asset pays what this is converted back to.

The RAM account is credited with what the pool paid.  The caller's cashback is
the core fee itself, so core asset is created or lost where the two conversions
do not lead back to it.
-/

namespace GxbCore.Ledger

open Database

section Model

/-- `contract_call_operation::fee_parameters_type` -/
structure ContractCallFees where
  fee : UInt64
  pricePerKbyteRam : UInt64
  pricePerMsCpu : UInt64
  deriving DecidableEq, Repr

/-- The parameters of the charges: the rates in floating-point numbers are
functions, `realRate` of a price and `ramFeeCore` of the bytes and the price of a
kilobyte. -/
structure ContractCharges where
  realRate : Price → Int
  ramFeeCore : Int → UInt64 → Int
  ramAccountId : AccountId
  contractBasicFeeVestingPeriodSeconds : UInt32
  feeParam : ContractCallFees

/-- The database with the field `contract_call_cashback_vb` of the accounts. -/
structure ContractLedger where
  db : Database
  contractCallCashbackVb : AccountId → Option VestingBalanceId

namespace ContractCharges

variable (charges : ContractCharges)

/-- The base fee: 64-bit numbers, read as a `share_type`. -/
def baseFee (cpuTimeUs : UInt32) : Int :=
  int64
    (charges.feeParam.fee +
      cpuTimeUs.toUInt64 * charges.feeParam.pricePerMsCpu).toNat

def depositContractCallCashback
    (acct : AccountId) (account : AccountObject) (amount : Int)
    (ledger : ContractLedger) : Except Fault ContractLedger :=
  if amount = 0 then
    .ok ledger
  else if ledger.db.headBlockTime > HARDFORK_1027_TIME then do
    let (newVbid, db) ←
      ledger.db.depositLazyVesting (ledger.contractCallCashbackVb acct) amount
        charges.contractBasicFeeVestingPeriodSeconds acct true
    match newVbid with
    | none => return { ledger with db := db }
    | some id =>
        return {
          db := db
          contractCallCashbackVb := fun other =>
            if other = acct then some id
            else ledger.contractCallCashbackVb other }
  else do
    let (newVbid, db) ←
      ledger.db.depositLazyVesting account.cashbackVb amount
        charges.contractBasicFeeVestingPeriodSeconds acct true
    match newVbid with
    | none => return { ledger with db := db }
    | some id =>
        return { ledger with
          db := db.setAccount acct { account with cashbackVb := some id } }

def chargeBaseFee
    (feePayer : AccountId) (feeAsset : AssetId) (cpuTimeUs : UInt32)
    (ledger : ContractLedger) : Except Fault ContractLedger := do
  let baseFee := charges.baseFee cpuTimeUs
  let baseFeeFromAccount ←
    ledger.db.fromCoreAsset charges.realRate ⟨baseFee, 1⟩ feeAsset
  let coreFeePaid ← ledger.db.prepareFee feePayer baseFeeFromAccount
  let db ← ledger.db.convertFee baseFeeFromAccount coreFeePaid
  let account ← db.getAccount feePayer
  let ledger ←
    charges.depositContractCallCashback feePayer account baseFee
      { ledger with db := db }
  let db ← ledger.db.adjustBalance feePayer baseFeeFromAccount.neg
  return { ledger with db := db }

def ramFee (db : Database) (ramBytes : Int) : Int :=
  if charges.ramFeeCore ramBytes charges.feeParam.pricePerKbyteRam < 0 then
    -min (db.getBalance charges.ramAccountId 1).amount
      (-charges.ramFeeCore ramBytes charges.feeParam.pricePerKbyteRam)
  else
    charges.ramFeeCore ramBytes charges.feeParam.pricePerKbyteRam

def moveRamFee (payer : AccountId) (ramFeeCore : Int) (db : Database) :
    Except Fault Database := do
  let db ← db.adjustBalance payer ⟨-ramFeeCore, 1⟩
  db.adjustBalance charges.ramAccountId ⟨ramFeeCore, 1⟩

def chargeRamFeeByAccount
    (feePayer : AccountId) (feeAsset : AssetId) (db : Database)
    (ram : AccountId × Int) : Except Fault Database :=
  if ram.2 = 0 then
    .ok db
  else if ram.1 = feePayer then do
    let feeUia ←
      db.fromCoreAsset charges.realRate ⟨charges.ramFee db ram.2, 1⟩ feeAsset
    if charges.ramFee db ram.2 < 0 then
      charges.moveRamFee feePayer (charges.ramFee db ram.2) db
    else do
      let coreFeePaid ← db.prepareFee feePayer feeUia
      let db ← db.convertFee feeUia coreFeePaid
      let db ← db.adjustBalance feePayer feeUia.neg
      db.adjustBalance charges.ramAccountId ⟨coreFeePaid, 1⟩
  else
    charges.moveRamFee ram.1 (charges.ramFee db ram.2) db

/-- The charges of `do_apply` after hard fork 1016, for each payer in the order
of `ram_statistics`. -/
def charge
    (feePayer : AccountId) (feeAsset : AssetId) (cpuTimeUs : UInt32)
    (ramStatistics : List (AccountId × Int)) (ledger : ContractLedger) :
    Except Fault ContractLedger := do
  let ledger ← charges.chargeBaseFee feePayer feeAsset cpuTimeUs ledger
  let db ←
    ramStatistics.foldlM (charges.chargeRamFeeByAccount feePayer feeAsset)
      ledger.db
  return { ledger with db := db }

end ContractCharges

end Model

section Moves

variable {charges : ContractCharges} {feePayer : AccountId}
  {feeAsset : AssetId} {db after : Database} {start final : ContractLedger}

/-- `accumulated_fees` of an asset. -/
def Database.accumulatedIn (db : Database) (id : AssetId) : Int :=
  (db.assets[id]?.map (·.dynamicData.accumulatedFees)).getD 0

def Database.paidOrHeld (db : Database) (account : AccountId) (id : AssetId) :
    Int :=
  (db.getBalance account id).amount + db.accumulatedIn id

/-- A step of the charges: every asset is conserved but for a credit in the core
asset, and in any other asset the payer pays what accumulates. -/
structure Charged (feePayer : AccountId) (before after : Database)
    (credit : Int) : Prop where
  moves : Moves 1 before after (fun id => inAsset id 1 credit)
  accumulates :
    ∀ id, id ≠ 1 → after.paidOrHeld feePayer id = before.paidOrHeld feePayer id

theorem Charged.trans {middle : Database} {credit more : Int}
    (first : Charged feePayer db middle credit)
    (later : Charged feePayer middle after more) :
    Charged feePayer db after (credit + more) where
  moves :=
    (first.moves.trans later.moves).congr fun id =>
      (inAsset_add id 1 credit more).symm
  accumulates id notCore :=
    (later.accumulates id notCore).trans (first.accumulates id notCore)

theorem Charged.congr {credit more : Int}
    (charged : Charged feePayer db after credit) (same : credit = more) :
    Charged feePayer db after more :=
  same ▸ charged

theorem adjustBalance_charged {account : AccountId} {amount : Int}
    (returns : db.adjustBalance account ⟨amount, 1⟩ = .ok after) :
    Charged feePayer db after amount where
  moves := adjustBalance_moves returns
  accumulates id notCore := by
    have same : after.accumulatedIn id = db.accumulatedIn id := by
      rw [adjustBalance_frame returns]
      rfl
    rw [paidOrHeld, same, adjustBalance_getBalance returns,
      if_neg fun both => notCore both.2, Int.add_zero, paidOrHeld]

theorem moveRamFee_charged {payer : AccountId} {ramFeeCore : Int}
    (returns : charges.moveRamFee payer ramFeeCore db = .ok after) :
    Charged feePayer db after 0 := by
  obtain ⟨middle, taken, given⟩ := bind_eq_ok.mp returns
  exact ((adjustBalance_charged taken).trans
    (adjustBalance_charged given)).congr (by omega)

theorem depositContractCallCashback_charged
    {acct : AccountId} {account : AccountObject} {amount : Int}
    (isCore : start.db.currentCoreAssetId = 1)
    (found : start.db.accounts[acct]? = some account)
    (returns :
      charges.depositContractCallCashback acct account amount start =
        .ok final) : Charged feePayer start.db final.db amount := by
  have vested :
      ∀ {ovbid newVbid seconds middle last},
        start.db.depositLazyVesting ovbid amount seconds acct true =
          .ok (newVbid, middle) →
        PointsAccount acct account middle last →
        Charged feePayer start.db last amount := by
    intro ovbid newVbid seconds middle last deposits points
    refine ⟨depositForAccount_moves isCore found deposits points, ?_⟩
    intro id _
    have frame := depositLazyVesting_frame deposits
    rcases points with same | ⟨fresh, same, _⟩
    · rw [same, frame]
      rfl
    · rw [same, frame]
      rfl
  unfold ContractCharges.depositContractCallCashback at returns
  split at returns
  · next zero =>
      cases returns
      refine ⟨(Moves.refl 1 start.db).congr ?_, fun _ _ => rfl⟩
      intro id
      simp [zero]
  · split at returns
    · obtain ⟨⟨newVbid, middle⟩, deposits, returns⟩ := bind_eq_ok.mp returns
      cases newVbid with
      | none =>
          cases returns
          exact vested deposits (.inl rfl)
      | some id =>
          cases returns
          exact vested deposits (.inl rfl)
    · obtain ⟨⟨newVbid, middle⟩, deposits, returns⟩ := bind_eq_ok.mp returns
      cases newVbid with
      | none =>
          cases returns
          exact vested deposits (.inl rfl)
      | some id =>
          cases returns
          exact vested deposits (.inr ⟨_, rfl, rfl, rfl⟩)

theorem fee_charged {fee : Asset} {coreFee : Int} {converted paid : Database}
    (isCore : db.currentCoreAssetId = 1)
    (prepared : db.prepareFee feePayer fee = .ok coreFee)
    (converts : db.convertFee fee coreFee = .ok converted)
    {credit : Int} (between : Charged feePayer converted paid credit)
    (pays : paid.adjustBalance feePayer fee.neg = .ok after) :
    Charged feePayer db after (credit - coreFee) := by
  have moves := convertFee_moves isCore prepared converts
  refine ⟨?_, ?_⟩
  · refine ((moves.trans between.moves).trans
      (adjustBalance_moves pays)).congr ?_
    intro id
    simp only [Pi.add_apply, Asset.neg, inAsset_neg, inAsset_sub]
    omega
  · intro id notCore
    have accumulated : after.accumulatedIn id = paid.accumulatedIn id := by
      rw [adjustBalance_frame pays]
      rfl
    have kept := between.accumulates id notCore
    rw [paidOrHeld, accumulated, adjustBalance_getBalance pays]
    unfold paidOrHeld at kept ⊢
    rcases convertFee_cases prepared converts with
      ⟨inCore, _, rfl⟩ | ⟨a, found, _, rfl⟩
    · have other : fee.assetId ≠ id := by
        rw [inCore, isCore]
        exact Ne.symm notCore
      rw [if_neg fun both => other both.2.symm]
      omega
    · obtain ⟨inside, _⟩ := List.getElem?_eq_some_iff.mp found
      have balance :
          ((db.setAsset fee.assetId
            { a with dynamicData :=
              { a.dynamicData with
                accumulatedFees := a.dynamicData.accumulatedFees + fee.amount
                feePool := a.dynamicData.feePool - coreFee } }).getBalance
              feePayer id).amount =
            (db.getBalance feePayer id).amount := rfl
      rw [balance] at kept
      by_cases same : fee.assetId = id
      · subst same
        simp only [accumulatedIn, setAsset, List.getElem?_set_self inside,
          Option.map_some, Option.getD_some, found] at kept ⊢
        rw [if_pos ⟨trivial, rfl⟩]
        simp only [Asset.neg]
        omega
      · simp only [accumulatedIn, setAsset, List.getElem?_set_ne same] at kept ⊢
        rw [if_neg fun both => same both.2.symm]
        omega

theorem chargeRamFeeByAccount_charged {ram : AccountId × Int}
    (isCore : db.currentCoreAssetId = 1)
    (returns :
      charges.chargeRamFeeByAccount feePayer feeAsset db ram = .ok after) :
    Charged feePayer db after 0 := by
  unfold ContractCharges.chargeRamFeeByAccount at returns
  split at returns
  · cases returns
    exact ⟨(Moves.refl 1 db).congr fun id => by simp, fun _ _ => rfl⟩
  · split at returns
    · obtain ⟨feeUia, _, returns⟩ := bind_eq_ok.mp returns
      split at returns
      · exact moveRamFee_charged returns
      · simp only [bind_eq_ok] at returns
        obtain ⟨coreFee, prepared, converted, converts, paid, pays, credits⟩ :=
          returns
        have nothing : Charged feePayer converted converted 0 :=
          ⟨(Moves.refl 1 converted).congr fun id => by simp, fun _ _ => rfl⟩
        have charged := fee_charged isCore prepared converts nothing pays
        exact (charged.trans (adjustBalance_charged credits)).congr (by omega)
    · exact moveRamFee_charged returns

/-- The base fee credits what the conversion back does not cover. -/
theorem chargeBaseFee_charged {cpuTimeUs : UInt32}
    (isCore : start.db.currentCoreAssetId = 1)
    (returns :
      charges.chargeBaseFee feePayer feeAsset cpuTimeUs start = .ok final) :
    ∃ fee coreFee,
      start.db.fromCoreAsset charges.realRate ⟨charges.baseFee cpuTimeUs, 1⟩
          feeAsset = .ok fee ∧
        start.db.prepareFee feePayer fee = .ok coreFee ∧
        Charged feePayer start.db final.db
          (charges.baseFee cpuTimeUs - coreFee) := by
  simp only [ContractCharges.chargeBaseFee, bind_eq_ok, getAccount_eq_ok]
    at returns
  obtain ⟨fee, converted, coreFee, prepared, db, converts, account, found,
    ledger, deposits, paid, pays, returns⟩ := returns
  cases returns
  have sameCore : db.currentCoreAssetId = 1 := by
    rw [(convertFee_moves isCore prepared converts).core_eq]
    exact isCore
  have deposited : Charged feePayer db ledger.db (charges.baseFee cpuTimeUs) :=
    @depositContractCallCashback_charged charges feePayer
      { start with db := db } ledger feePayer account _ sameCore found deposits
  exact ⟨fee, coreFee, converted, prepared,
    fee_charged isCore prepared converts deposited pays⟩

/-- All charges together credit what the conversion back of the base fee does
not cover. -/
theorem charge_charged {cpuTimeUs : UInt32}
    {ramStatistics : List (AccountId × Int)}
    (isCore : start.db.currentCoreAssetId = 1)
    (returns :
      charges.charge feePayer feeAsset cpuTimeUs ramStatistics start =
        .ok final) :
    ∃ fee coreFee,
      start.db.fromCoreAsset charges.realRate ⟨charges.baseFee cpuTimeUs, 1⟩
          feeAsset = .ok fee ∧
        start.db.prepareFee feePayer fee = .ok coreFee ∧
        Charged feePayer start.db final.db
          (charges.baseFee cpuTimeUs - coreFee) := by
  simp only [ContractCharges.charge, bind_eq_ok] at returns
  obtain ⟨ledger, base, db, rams, returns⟩ := returns
  cases returns
  obtain ⟨fee, coreFee, converted, prepared, charged⟩ :=
    chargeBaseFee_charged isCore base
  refine ⟨fee, coreFee, converted, prepared, ?_⟩
  have rounds :
      ∀ ram ∈ ramStatistics, ∀ before after,
        Charged feePayer start.db before
            (charges.baseFee cpuTimeUs - coreFee) →
          charges.chargeRamFeeByAccount feePayer feeAsset before ram =
            .ok after →
          Charged feePayer start.db after
            (charges.baseFee cpuTimeUs - coreFee) := by
    intro ram _ before after sofar round
    have sameCore : before.currentCoreAssetId = 1 := by
      rw [sofar.moves.core_eq]
      exact isCore
    exact (sofar.trans (chargeRamFeeByAccount_charged sameCore round)).congr
      (by omega)
  have kept := foldlM_keeps rounds charged rams
  exact kept

end Moves

section Back

variable {db : Database} {feePayer : AccountId} {feeAsset : AssetId}
  {rate : Price} {realRate : Price → Int} {amount : Int}

/-- The core fee is what its conversion is converted back to.  With the core
asset as the base of the rate nothing may be rounded; with the core asset as the
quote the rate is applied twice the same way, and has to leave the fee as it
is. -/
inductive LeadsBack (feeAsset : AssetId) (rate : Price) (amount : Int) : Prop
  | core (itself : feeAsset = 1)
  | base (other : feeAsset ≠ 1) (nonneg : 0 ≤ amount)
      (isBase : rate.base.assetId = 1)
      (divides : rate.base.amount ∣ amount * rate.quote.amount)
  | quote (other : feeAsset ≠ 1) (nonneg : 0 ≤ amount)
      (isQuote : rate.quote.assetId = 1)
      (low : amount * rate.base.amount ≤ amount * rate.quote.amount)
      (high :
        amount * rate.quote.amount < (amount + 1) * rate.base.amount)

/-- To apply a rate twice leaves an amount as it is exactly when to apply it
once does. -/
theorem portion_twice_eq_iff {num den : Int}
    (numNonneg : 0 ≤ num) (denPos : 0 < den) :
    portion (portion amount num den) num den = amount ↔
      portion amount num den = amount := by
  constructor
  · intro twice
    rcases lt_trichotomy (portion amount num den) amount with
      less | same | more
    · have lower := portion_mono numNonneg denPos (Int.le_of_lt less)
      omega
    · exact same
    · have higher := portion_mono numNonneg denPos (Int.le_of_lt more)
      omega
  · intro once
    rw [once, once]

theorem portion_eq_self_iff {num den : Int} (denPos : 0 < den) :
    portion amount num den = amount ↔
      amount * den ≤ amount * num ∧ amount * num < (amount + 1) * den := by
  have low := @le_portion_iff amount num den amount denPos
  have high := @le_portion_iff amount num den (amount + 1) denPos
  omega

variable {asset : AssetObject}

/-- What `prepare_fee` takes from the pool of another asset. -/
theorem prepareFee_other {fee : Asset} {coreFee : Int}
    (found : db.assets[feeAsset]? = some asset) (isFee : fee.assetId = feeAsset)
    (isCore : db.currentCoreAssetId = 1) (other : feeAsset ≠ 1)
    (prepared : db.prepareFee feePayer fee = .ok coreFee) :
    fee.times asset.options.coreExchangeRate = .ok ⟨coreFee, 1⟩ := by
  subst isFee
  simp only [prepareFee, bind_eq_ok, fcAssert_eq_ok, getAccount_eq_ok,
    getAsset_eq_ok, isCore, if_neg other] at prepared
  obtain ⟨_, _, _, _, a, alsoFound, _, _, fromPool, exchanged, _, inCore, _, _,
    returns⟩ := prepared
  cases found.symm.trans alsoFound
  cases returns
  rw [exchanged, ← inCore]

/-- A negative core fee is converted to nothing, if it is let through. -/
theorem fromCoreAsset_negative {fee : Asset}
    (late : db.headBlockTime > HARDFORK_1013_TIME)
    (found : db.assets[feeAsset]? = some asset)
    (isCore : db.currentCoreAssetId = 1) (other : feeAsset ≠ 1)
    (proper : asset.options.coreExchangeRate.Proper) (negative : amount < 0)
    (converted : db.fromCoreAsset realRate ⟨amount, 1⟩ feeAsset = .ok fee)
    (nonneg : 0 ≤ fee.amount) : fee.amount = 0 := by
  simp only [fromCoreAsset, isCore, bind_eq_ok, fcAssert_eq_ok,
    if_neg other, getAsset_eq_ok, if_pos late, shareQuotient] at converted
  obtain ⟨_, _, a, alsoFound, product, multiplied, quotient,
    ⟨_, nonzero, divided⟩, returns⟩ := converted
  cases found.symm.trans alsoFound
  cases returns
  rw [eq_of_share divided, eq_of_share multiplied] at nonneg ⊢
  have below : amount * asset.options.coreExchangeRate.quote.amount ≤ 0 :=
    Int.mul_nonpos_of_nonpos_of_nonneg (Int.le_of_lt negative)
      proper.quote.nonneg
  have atMost :
      (amount * asset.options.coreExchangeRate.quote.amount).tdiv
        asset.options.coreExchangeRate.base.amount ≤ 0 := by
    have opposite :=
      Int.tdiv_nonneg (Int.neg_nonneg_of_nonpos below) proper.base.nonneg
    rw [Int.neg_tdiv] at opposite
    omega
  exact Int.le_antisymm atMost nonneg

/-- What is converted and prepared is the core fee exactly when the conversions
lead back to it. -/
theorem leadsBack_iff {fee : Asset} {coreFee : Int}
    (late : db.headBlockTime > HARDFORK_1013_TIME)
    (isCore : db.currentCoreAssetId = 1) (fits : amount < 2 ^ 63)
    (found : db.assets[feeAsset]? = some asset)
    (between :
      feeAsset ≠ 1 →
        ∃ listed, asset.options.coreExchangeRate.Between feeAsset listed)
    (converted : db.fromCoreAsset realRate ⟨amount, 1⟩ feeAsset = .ok fee)
    (prepared : db.prepareFee feePayer fee = .ok coreFee) :
    coreFee = amount ↔
      LeadsBack feeAsset asset.options.coreExchangeRate amount := by
  by_cases other : feeAsset = 1
  · have same :=
      @fromCoreAsset_core db realRate ⟨amount, 1⟩ feeAsset isCore.symm
        (other.trans isCore.symm)
    rw [same] at converted
    cases converted
    have inCore : coreFee = amount := by
      obtain ⟨_, _, ⟨_, value⟩ | ⟨notCore, _⟩⟩ := prepareFee_eq_ok prepared
      · exact value
      · exact absurd isCore.symm notCore
    exact ⟨fun _ => .core other, fun _ => inCore⟩
  · obtain ⟨listed, between⟩ := between other
    have proper := between.proper
    obtain ⟨feeNonneg, _, _⟩ := prepareFee_eq_ok prepared
    have isFee : fee.assetId = feeAsset := by
      simp only [fromCoreAsset, isCore, bind_eq_ok, fcAssert_eq_ok,
        if_neg other, getAsset_eq_ok, if_pos late] at converted
      obtain ⟨_, _, _, _, _, _, _, _, returns⟩ := converted
      cases returns
      rfl
    have exchanged := prepareFee_other found isFee isCore other prepared
    generalize isRate : asset.options.coreExchangeRate = rate at *
    by_cases negative : amount < 0
    · have nothing :=
        fromCoreAsset_negative late found isCore other (isRate ▸ proper)
          negative converted feeNonneg
      have none : coreFee = 0 := by
        have feeProper : fee.Proper := ⟨feeNonneg, by omega⟩
        rcases (times_eq_ok feeProper proper).mp exchanged with
          ⟨_, _, _, value⟩ | ⟨_, _, _, _, value⟩
        · rw [nothing, portion_zero] at value
          exact (congrArg Asset.amount value).symm
        · rw [nothing, portion_zero] at value
          exact (congrArg Asset.amount value).symm
      constructor
      · intro same
        omega
      · intro leads
        cases leads with
        | core itself => exact absurd itself other
        | base _ nonneg => omega
        | quote _ nonneg => omega
    · have nonneg : 0 ≤ amount := by omega
      obtain ⟨baseNonzero, product, value⟩ :=
        (@fromCoreAsset_eq_ok db realRate ⟨amount, 1⟩ feeAsset rate asset late
          (getAsset_eq_ok.mpr found) isRate ⟨nonneg, fits⟩ proper isCore.symm
          (isCore ▸ other) fee).mp converted
      have basePos : 0 < rate.base.amount := by
        have := proper.base.nonneg
        omega
      have productNonneg : 0 ≤ amount * rate.quote.amount :=
        Int.mul_nonneg nonneg proper.quote.nonneg
      have feeFits :
          portion amount rate.quote.amount rate.base.amount < 2 ^ 63 := by
        have atMost :
            portion amount rate.quote.amount rate.base.amount ≤
              amount * rate.quote.amount :=
          Int.ediv_le_self _ productNonneg
        simp only at product
        omega
      subst value
      have feeProper :
          Asset.Proper
            ⟨portion amount rate.quote.amount rate.base.amount, feeAsset⟩ :=
        ⟨feeNonneg, feeFits⟩
      rcases (times_eq_ok feeProper proper).mp exchanged with
        ⟨isBase, _, _, value⟩ | ⟨notBase, isQuote, quotePos, _, value⟩
      · have inCore : rate.quote.assetId = 1 := congrArg Asset.assetId value
        have back := congrArg Asset.amount value
        simp only at back isBase
        rw [← back, portion_twice_eq_iff proper.quote.nonneg basePos,
          portion_eq_self_iff basePos]
        constructor
        · rintro ⟨low, high⟩
          exact .quote other nonneg inCore low high
        · intro leads
          cases leads with
          | core itself => exact absurd itself other
          | base _ _ isCoreBase => exact absurd (isBase.trans isCoreBase) other
          | quote _ _ _ low high => exact ⟨low, high⟩
      · have inCore : rate.base.assetId = 1 := congrArg Asset.assetId value
        have back := congrArg Asset.amount value
        simp only at back isQuote
        rw [← back, portion_back_eq_iff quotePos basePos]
        constructor
        · intro divides
          exact .base other nonneg inCore divides
        · intro leads
          cases leads with
          | core itself => exact absurd itself other
          | base _ _ _ divides => exact divides
          | quote _ _ isCoreQuote =>
              exact absurd (isQuote.trans isCoreQuote) other

end Back

section Conservation

variable {charges : ContractCharges} {feePayer : AccountId}
  {feeAsset : AssetId} {cpuTimeUs : UInt32}
  {ramStatistics : List (AccountId × Int)} {start final : ContractLedger}

def HARDFORK_1016_TIME : Time :=
  1553832000

/-- Every asset is conserved: what is credited in the core asset is taken from
payers and pools, and the caller pays in the asset of the fee what accumulates
there. -/
structure FeesConserved (feePayer : AccountId) (feeAsset : AssetId)
    (before after : Database) : Prop where
  moves : Moves 1 before after 0
  accumulated :
    feeAsset ≠ 1 →
      (before.getBalance feePayer feeAsset).amount -
          (after.getBalance feePayer feeAsset).amount =
        after.accumulatedIn feeAsset - before.accumulatedIn feeAsset

theorem baseFee_fits (charges : ContractCharges) (cpuTimeUs : UInt32) :
    charges.baseFee cpuTimeUs < 2 ^ 63 := by
  unfold ContractCharges.baseFee int64
  omega

/-- For every fee asset with an accepted rate and every RAM usage, the charges of
a contract call conserve value exactly when the base fee is what its conversion
to the fee asset is converted back to. -/
theorem contract_fees_conserved
    {asset : AssetObject}
    (late : start.db.headBlockTime > HARDFORK_1016_TIME)
    (found : start.db.assets[feeAsset]? = some asset)
    (accepted :
      feeAsset ≠ 1 →
        ∃ listed,
          AcceptedRate feeAsset listed asset.options.coreExchangeRate)
    (returns :
      charges.charge feePayer feeAsset cpuTimeUs ramStatistics start =
        .ok final) :
    FeesConserved feePayer feeAsset start.db final.db ↔
      LeadsBack feeAsset asset.options.coreExchangeRate
        (charges.baseFee cpuTimeUs) := by
  have isCore : start.db.currentCoreAssetId = 1 :=
    if_pos (UInt32.lt_trans
      (show HARDFORK_1008_TIME < HARDFORK_1016_TIME by decide) late)
  obtain ⟨fee, coreFee, converted, prepared, charged⟩ :=
    charge_charged isCore returns
  have back :=
    leadsBack_iff
      (UInt32.lt_of_le_of_lt
        (show HARDFORK_1013_TIME ≤ HARDFORK_1016_TIME by decide) late)
      isCore (baseFee_fits charges cpuTimeUs) found
      (fun other => by
        obtain ⟨listed, accepted⟩ := accepted other
        exact ⟨listed, accepted.between⟩)
      converted prepared
  rw [← back]
  constructor
  · intro conserved
    have credited := charged.moves.surplus_eq 1
    rw [conserved.moves.surplus_eq 1, inAsset, if_pos rfl, Pi.zero_apply]
      at credited
    omega
  · intro same
    refine ⟨charged.moves.congr fun id => by simp [same], ?_⟩
    intro other
    have kept := charged.accumulates feeAsset other
    unfold paidOrHeld at kept
    omega

end Conservation

section Sample

/-- A base fee of twelve, and one of RAM for every byte. -/
def sampleCharges : ContractCharges where
  realRate := fun _ => 0
  ramFeeCore := fun bytes _ => bytes
  ramAccountId := 1
  contractBasicFeeVestingPeriodSeconds := 86400
  feeParam := ⟨12, 1024, 0⟩

/-- The caller holds a hundred of the third asset, whose pool has a hundred of
the core asset, and the RAM account fifty of the core asset. -/
def callLedger (rate : Price) : ContractLedger where
  db :=
    { plainDatabase with
      assets :=
        [plainAsset, plainAsset,
          { plainAsset with
            options := { plainAsset.options with coreExchangeRate := rate }
            dynamicData := ⟨100, 0, 0, 100⟩ }]
      accounts := [plainAccount 1, plainAccount 2]
      balances := [⟨0, 2, 100⟩, ⟨1, 1, 50⟩] }
  contractCallCashbackVb := fun _ => none

theorem contract_fees_conserved_core :
    ∃ final,
      sampleCharges.charge 1 1 0 [(1, 5)] (callLedger coreAsBase) =
          .ok final ∧
        FeesConserved 1 1 (callLedger coreAsBase).db final.db := by
  refine ⟨_, rfl, ?_⟩
  exact
    (@contract_fees_conserved sampleCharges 1 1 0 [(1, 5)]
      (callLedger coreAsBase) _ plainAsset (by decide) rfl
      (fun other => absurd rfl other) rfl).mpr (.core rfl)

/-- At five units of the core asset for one, a base fee of twelve is converted to
two and these back to ten: the cashback of twelve is two more than the pool
pays. -/
theorem contract_fees_create_core :
    AcceptedRate 2 1 coreAsBase ∧
      ∃ final,
        sampleCharges.charge 0 2 0 [(0, -7)] (callLedger coreAsBase) =
            .ok final ∧
          surplus 1 final.db 1 = surplus 1 (callLedger coreAsBase).db 1 - 2 ∧
          ¬ FeesConserved 0 2 (callLedger coreAsBase).db final.db := by
  refine ⟨coreAsBase_accepted, _, rfl, by decide, ?_⟩
  intro conserved
  exact absurd (conserved.moves.surplus_eq 1) (by decide)

end Sample

end GxbCore.Ledger
