import GxbCore.Ledger.Fees

/-!
# Asset operations

Creation, update, issue and reserve of assets, and their fee pools.
-/

namespace GxbCore.Ledger

open Database

section Operations

def GRAPHENE_SYMBOL_GXS : String :=
  "GXS"

def GRAPHENE_MIN_ASSET_SYMBOL_LENGTH : Nat :=
  3

def GRAPHENE_MAX_ASSET_SYMBOL_LENGTH : Nat :=
  16

def isValidSymbol (symbol : String) : Bool :=
  let chars := symbol.toList
  GRAPHENE_MIN_ASSET_SYMBOL_LENGTH ≤ chars.length &&
    chars.take 3 != ['B', 'I', 'T'] &&
    chars.length ≤ GRAPHENE_MAX_ASSET_SYMBOL_LENGTH &&
    chars.head?.any Char.isAlpha && chars.getLast?.any Char.isAlphanum &&
    chars.all (fun c => c.isUpper || c.isDigit || c == '.') &&
    chars.count '.' ≤ 1

/-- The text before the last dot, if there is one. -/
def symbolPrefix (symbol : String) : Option String :=
  let chars := symbol.toList
  if chars.contains '.' then
    some (String.ofList (chars.reverse.dropWhile (· != '.')).tail.reverse)
  else
    none

/-- `asset_options::validate` -/
def AssetOptions.validate
    (options : AssetOptions) (checkCoreExchangeRate : Bool) :
    Except Fault Unit := do
  fcAssert (0 < options.maxSupply) ""
  fcAssert (options.maxSupply ≤ GRAPHENE_MAX_SHARE_SUPPLY) ""
  fcAssert (options.marketFeePercent.toNat ≤ GRAPHENE_100_PERCENT) ""
  fcAssert
    (0 ≤ options.maxMarketFee ∧
      options.maxMarketFee ≤ GRAPHENE_MAX_SHARE_SUPPLY) ""
  fcAssert
    (options.issuerPermissions &&& ~~~ASSET_ISSUER_PERMISSION_MASK = 0) ""
  fcAssert (options.flags &&& globalSettle = 0) ""
  fcAssert
    (options.flags &&& (witnessFedAsset ||| committeeFedAsset)
      ≠ witnessFedAsset ||| committeeFedAsset) ""
  if checkCoreExchangeRate then
    options.coreExchangeRate.validate
  fcAssert
    (¬(options.whitelistAuthorities.isEmpty ∧
        options.blacklistAuthorities.isEmpty) →
      options.flags &&& whiteList ≠ 0) ""
  fcAssert
    (options.whitelistMarkets.all
      (!options.blacklistMarkets.contains ·)) ""

structure BitassetOptions where
  minimumFeeds : UInt8
  forceSettlementOffsetPercent : UInt16
  maximumForceSettlementVolume : UInt16
  deriving DecidableEq, Repr

def BitassetOptions.validate (options : BitassetOptions) :
    Except Fault Unit := do
  fcAssert (0 < options.minimumFeeds) ""
  fcAssert
    (options.forceSettlementOffsetPercent.toNat ≤ GRAPHENE_100_PERCENT) ""
  fcAssert
    (options.maximumForceSettlementVolume.toNat ≤ GRAPHENE_100_PERCENT) ""

structure AssetCreateOperation where
  fee : Asset
  issuer : AccountId
  symbol : String
  precision : UInt8
  commonOptions : AssetOptions
  bitassetOpts : Option BitassetOptions
  isPredictionMarket : Bool
  deriving DecidableEq, Repr

/-- `asset_update_operation`; `newSymbol` is the symbol of the first
`asset_symbol_t` among the extensions. -/
structure AssetUpdateOperation where
  fee : Asset
  issuer : AccountId
  assetToUpdate : AssetId
  newIssuer : Option AccountId
  newOptions : AssetOptions
  newSymbol : Option String
  deriving DecidableEq, Repr

structure AssetIssueOperation where
  fee : Asset
  issuer : AccountId
  assetToIssue : Asset
  issueToAccount : AccountId
  deriving DecidableEq, Repr

structure AssetReserveOperation where
  fee : Asset
  payer : AccountId
  amountToReserve : Asset
  deriving DecidableEq, Repr

structure AssetFundFeePoolOperation where
  fee : Asset
  fromAccount : AccountId
  assetId : AssetId
  amount : Int
  deriving DecidableEq, Repr

structure AssetClaimFeesOperation where
  fee : Asset
  issuer : AccountId
  amountToClaim : Asset
  deriving DecidableEq, Repr

def AssetCreateOperation.validate (o : AssetCreateOperation) :
    Except Fault Unit := do
  fcAssert (0 ≤ o.fee.amount) ""
  fcAssert (isValidSymbol o.symbol) ""
  o.commonOptions.validate true
  fcAssert
    (o.commonOptions.issuerPermissions
        &&& (disableForceSettle ||| globalSettle) ≠ 0 →
      o.bitassetOpts.isSome) ""
  fcAssert (o.isPredictionMarket → o.bitassetOpts.isSome)
    "Cannot have a User-Issued Asset implement a prediction market."
  fcAssert
    (o.isPredictionMarket →
      o.commonOptions.issuerPermissions &&& globalSettle ≠ 0) ""
  match o.bitassetOpts with
  | none => pure ()
  | some options => options.validate
  fcAssert (o.precision ≤ 12) ""

def AssetUpdateOperation.validate (o : AssetUpdateOperation) :
    Except Fault Unit := do
  fcAssert (0 ≤ o.fee.amount) ""
  fcAssert (∀ issuer ∈ o.newIssuer, o.issuer ≠ issuer) ""
  -- 1.3.0 and 1.3.1, don't validate core_exchange_rate
  o.newOptions.validate (o.assetToUpdate ≠ 0 ∧ o.assetToUpdate ≠ 1)

def AssetIssueOperation.validate (o : AssetIssueOperation) :
    Except Fault Unit := do
  fcAssert (0 ≤ o.fee.amount) ""
  fcAssert (o.assetToIssue.amount ≤ GRAPHENE_MAX_SHARE_SUPPLY) ""
  fcAssert (0 < o.assetToIssue.amount) ""
  fcAssert (o.assetToIssue.assetId ≠ 0) ""

def AssetReserveOperation.validate (o : AssetReserveOperation) :
    Except Fault Unit := do
  fcAssert (0 ≤ o.fee.amount) ""
  fcAssert (o.amountToReserve.amount ≤ GRAPHENE_MAX_SHARE_SUPPLY) ""
  fcAssert (0 < o.amountToReserve.amount) ""

def AssetFundFeePoolOperation.validate (o : AssetFundFeePoolOperation) :
    Except Fault Unit := do
  fcAssert (0 ≤ o.fee.amount) ""
  fcAssert (0 < o.amount) ""

def AssetClaimFeesOperation.validate (o : AssetClaimFeesOperation) :
    Except Fault Unit := do
  fcAssert (0 ≤ o.fee.amount) ""
  fcAssert (0 < o.amountToClaim.amount) ""

end Operations

section Evaluators

/-- The lists of authorities are short enough and name accounts that exist. -/
def checkAuthorities (db : Database) (options : AssetOptions) :
    Except Fault Unit := do
  let maximum := db.parameters.maximumAssetWhitelistAuthorities.toNat
  fcAssert (options.whitelistAuthorities.length ≤ maximum) ""
  fcAssert (options.blacklistAuthorities.length ≤ maximum) ""
  fcAssert (options.whitelistAuthorities.all (· < db.accounts.length)) ""
  fcAssert (options.blacklistAuthorities.all (· < db.accounts.length)) ""

def checkExchangeRate (db : Database) (rate : Price) : Except Fault Unit :=
  fcAssert
    (rate.base.assetId = db.currentCoreAssetId ∨
      rate.quote.assetId = db.currentCoreAssetId) ""

/-- The asset that `asset_create_evaluator::do_apply` creates: whichever side of
the exchange rate is not the core asset becomes the new asset. -/
def createdAsset
    (db : Database) (o : AssetCreateOperation) (feePool : Int) :
    AssetObject where
  symbol := o.symbol
  precision := o.precision
  issuer := o.issuer
  options :=
    let rate := o.commonOptions.coreExchangeRate
    { o.commonOptions with
      coreExchangeRate :=
        if rate.base.assetId = db.currentCoreAssetId then
          { rate with quote := { rate.quote with assetId := db.assets.length } }
        else
          { rate with base := { rate.base with assetId := db.assets.length } } }
  dynamicData := {
    currentSupply := 0
    confidentialSupply := 0
    accumulatedFees := 0
    feePool := feePool }
  isMarketIssued := false
  buybackAccount := none

def oddFeeAfter1005 (db : Database) (coreFee : Int) : Bool :=
  coreFee % 2 = 1 ∧ db.headBlockTime > HARDFORK_1005_TIME

/-- Before hard fork 1005 both halves of an odd fee are rounded up and the unit
that is missing is added to the supply. -/
def raiseSupplyForOddFee (db : Database) (coreFee : Int) :
    Except Fault Database :=
  if coreFee % 2 = 1 ∧ !oddFeeAfter1005 db coreFee then
    db.modifyDynamicData 0 fun d => do
      let currentSupply ← share (d.currentSupply + 1)
      return { d with currentSupply := currentSupply }
  else
    .ok db

/-- `asset_create_evaluator`.  Half of the fee is paid, the other half becomes
the fee pool of the new asset. -/
def assetCreateEvaluator (required : Option Int) (o : AssetCreateOperation) :
    Evaluator where
  feePayer := o.issuer
  fee := o.fee
  requiredFee := required
  doEvaluate db := do
    checkAuthorities db o.commonOptions
    fcAssert
      (db.headBlockTime > HARDFORK_1008_TIME → GRAPHENE_SYMBOL_GXS ≠ o.symbol)
      "new asset symbol can not be GXS"
    fcAssert (db.assets.all (·.symbol ≠ o.symbol)) ""
    match symbolPrefix o.symbol with
    | none => pure ()
    | some name =>
        let parent ←
          orThrow (db.assets.find? (·.symbol == name))
            (.assertion "Asset ${s} may only be created by issuer of ${p}, but ${p} has not been registered")
        fcAssert (parent.issuer = o.issuer)
          "Asset ${s} may only be created by issuer of ${p}, ${i}"
    checkExchangeRate db o.commonOptions.coreExchangeRate
    let dummy ←
      Asset.times ⟨1, db.currentCoreAssetId⟩ o.commonOptions.coreExchangeRate
    fcAssert (dummy.assetId = db.currentCoreAssetId + 1) ""
    fcAssert
      (db.headBlockTime > HARDFORK_1008_TIME → o.bitassetOpts.isNone)
      "disabled since hardfork 1008"
  payFee coreFee db := db.payFee o.issuer (coreFee - coreFee / 2)
  doApply coreFee db := do
    let created :=
      createdAsset db o
        (coreFee - coreFee / 2 - if oddFeeAfter1005 db coreFee then 1 else 0)
    let db ← raiseSupplyForOddFee db coreFee
    return { db with assets := db.assets ++ [created] }

/-- `asset_update_evaluator` clears the fee pool of the asset. -/
def clearsFeePool
    (db : Database) (o : AssetUpdateOperation) (a : AssetObject) : Bool :=
  db.headBlockTime > HARDFORK_1008_TIME && o.assetToUpdate != 0 &&
    (o.assetToUpdate == 1 ||
      (a.options.coreExchangeRate.base.assetId != 1 &&
        a.options.coreExchangeRate.quote.assetId != 1))

/-- What `asset_update_evaluator::do_apply` makes of the asset. -/
def updatedAsset
    (db : Database) (o : AssetUpdateOperation) (a : AssetObject) :
    AssetObject :=
  { a with
    dynamicData :=
      { a.dynamicData with
        feePool := if clearsFeePool db o a then 0 else a.dynamicData.feePool }
    issuer := o.newIssuer.getD a.issuer
    options := o.newOptions
    symbol := o.newSymbol.getD a.symbol }

def assetUpdateEvaluator (required : Option Int) (o : AssetUpdateOperation) :
    Evaluator where
  feePayer := o.issuer
  fee := o.fee
  requiredFee := required
  doEvaluate db := do
    let a ← db.getAsset o.assetToUpdate
    -- asset_object::validate on the new options
    fcAssert
      (a.isMarketIssued ∨
        (o.newOptions.flags &&& (disableForceSettle ||| globalSettle) = 0 ∧
          o.newOptions.issuerPermissions
            &&& (disableForceSettle ||| globalSettle) = 0)) ""
    checkExchangeRate db o.newOptions.coreExchangeRate
    fcAssert (∀ issuer ∈ o.newIssuer, issuer < db.accounts.length) ""
    fcAssert (∀ symbol ∈ o.newSymbol, isValidSymbol symbol) ""
    fcAssert (∀ symbol ∈ o.newSymbol, GRAPHENE_SYMBOL_GXS ≠ symbol)
      "new asset symbol can not be GXS"
    fcAssert
      (∀ symbol ∈ o.newSymbol, db.assets.all (·.symbol ≠ symbol))
      "symbol: ${x} exist"
    fcAssert
      (db.headBlockTime < HARDFORK_572_TIME ∨ a.dynamicData.currentSupply ≠ 0 →
        o.newOptions.issuerPermissions &&& ~~~a.options.issuerPermissions = 0)
      "Cannot reinstate previously revoked issuer permissions on an asset."
    fcAssert
      ((o.newOptions.flags ^^^ a.options.flags)
        &&& ~~~a.options.issuerPermissions = 0)
      "Flag change is forbidden by issuer permissions"
    fcAssert
      (if a.issuer = GRAPHENE_NULL_ACCOUNT ∧ o.assetToUpdate = 0 then
          o.issuer = 0
        else
          o.issuer = a.issuer) ""
    checkAuthorities db o.newOptions
    let dummy ←
      Asset.times ⟨1, o.assetToUpdate⟩ o.newOptions.coreExchangeRate
    fcAssert (dummy.assetId = db.currentCoreAssetId) ""
  payFee coreFee db := db.payFee o.issuer coreFee
  doApply _ db := do
    let a ← db.getAsset o.assetToUpdate
    return db.setAsset o.assetToUpdate (updatedAsset db o a)

def assetIssueEvaluator (required : Option Int) (o : AssetIssueOperation) :
    Evaluator where
  feePayer := o.issuer
  fee := o.fee
  requiredFee := required
  doEvaluate db := do
    let a ← db.getAsset o.assetToIssue.assetId
    fcAssert (o.issuer = a.issuer) ""
    fcAssert (!a.isMarketIssued) "Cannot manually issue a market-issued asset."
    let toAccount ← db.getAccount o.issueToAccount
    fcAssert (isAuthorizedAsset db toAccount o.assetToIssue.assetId a) ""
    let supply ← share (a.dynamicData.currentSupply + o.assetToIssue.amount)
    fcAssert (supply ≤ a.options.maxSupply) ""
  payFee coreFee db := db.payFee o.issuer coreFee
  doApply _ db := do
    let db ← db.adjustBalance o.issueToAccount o.assetToIssue
    db.modifyDynamicData o.assetToIssue.assetId fun d => do
      let currentSupply ← share (d.currentSupply + o.assetToIssue.amount)
      return { d with currentSupply := currentSupply }

def assetReserveEvaluator (required : Option Int) (o : AssetReserveOperation) :
    Evaluator where
  feePayer := o.payer
  fee := o.fee
  requiredFee := required
  doEvaluate db := do
    let a ← db.getAsset o.amountToReserve.assetId
    fcAssert (!a.isMarketIssued)
      "Cannot reserve ${sym} because it is a market-issued asset"
    let fromAccount ← db.getAccount o.payer
    fcAssert (isAuthorizedAsset db fromAccount o.amountToReserve.assetId a) ""
    let supply ← share (a.dynamicData.currentSupply - o.amountToReserve.amount)
    fcAssert (0 ≤ supply) ""
  payFee coreFee db := db.payFee o.payer coreFee
  doApply _ db := do
    let db ← db.adjustBalance o.payer o.amountToReserve.neg
    db.modifyDynamicData o.amountToReserve.assetId fun d => do
      let currentSupply ← share (d.currentSupply - o.amountToReserve.amount)
      return { d with currentSupply := currentSupply }

def assetFundFeePoolEvaluator
    (required : Option Int) (o : AssetFundFeePoolOperation) :
    Evaluator where
  feePayer := o.fromAccount
  fee := o.fee
  requiredFee := required
  doEvaluate db := do
    fcAssert (o.fee.assetId = db.currentCoreAssetId) ""
    let _ ← db.getAsset o.assetId
  payFee coreFee db := db.payFee o.fromAccount coreFee
  doApply _ db := do
    let db ← db.adjustBalance o.fromAccount ⟨-o.amount, db.currentCoreAssetId⟩
    db.modifyDynamicData o.assetId fun d => do
      let feePool ← share (d.feePool + o.amount)
      return { d with feePool := feePool }

def assetClaimFeesEvaluator
    (required : Option Int) (o : AssetClaimFeesOperation) :
    Evaluator where
  feePayer := o.issuer
  fee := o.fee
  requiredFee := required
  doEvaluate db := do
    fcAssert (db.headBlockTime > HARDFORK_413_TIME) ""
    let a ← db.getAsset o.amountToClaim.assetId
    fcAssert (a.issuer = o.issuer)
      "Asset fees may only be claimed by the issuer"
  payFee coreFee db := db.payFee o.issuer coreFee
  doApply _ db := do
    let db ← db.modifyDynamicData o.amountToClaim.assetId fun d => do
      fcAssert (o.amountToClaim.amount ≤ d.accumulatedFees)
        "Attempt to claim more fees than have accumulated"
      let accumulatedFees ← share (d.accumulatedFees - o.amountToClaim.amount)
      return { d with accumulatedFees := accumulatedFees }
    db.adjustBalance o.issuer o.amountToClaim

end Evaluators

section Keeps

variable {core : AssetId} {db after : Database} {required : Option Int}

theorem validate_maxSupply {options : AssetOptions} {check : Bool}
    (valid : options.validate check = .ok ()) :
    0 < options.maxSupply ∧ options.maxSupply ≤ GRAPHENE_MAX_SHARE_SUPPLY := by
  simp only [AssetOptions.validate, bind_eq_ok, fcAssert_eq_ok] at valid
  obtain ⟨_, positive, _, atMost, _⟩ := valid
  exact ⟨positive, atMost⟩

theorem assetIssue_keeps {o : AssetIssueOperation}
    (isCore : db.currentCoreAssetId = core) (valid : o.validate = .ok ())
    (returns : (assetIssueEvaluator required o).run db = .ok after) :
    Moves core db after 0 ∧ Keeps core db after := by
  simp only [AssetIssueOperation.validate, bind_eq_ok, fcAssert_eq_ok] at valid
  obtain ⟨_, _, _, _, _, positive, _⟩ := valid
  apply run_keeps (payFee_whole fun _ _ => rfl) isCore _ returns
  intro _ paid applied evaluated frame applies
  simp only [assetIssueEvaluator, bind_eq_ok, fcAssert_eq_ok,
    getAsset_eq_ok] at evaluated applies
  obtain ⟨a, found, _, _, _, _, _, _, _, _, supply, summed, fits⟩ := evaluated
  obtain ⟨given, gives, applies⟩ := applies
  rw [modifyDynamicData_eq_ok] at applies
  obtain ⟨b, foundB, d, changed, same⟩ := applies
  obtain ⟨newSupply, checked, changed⟩ := bind_eq_ok.mp changed
  cases changed
  rw [eq_of_share checked] at same
  rw [← same]
  constructor
  · refine ((adjustBalance_moves gives).trans
      (setAsset_moves _ foundB)).congr ?_
    intro id
    simp only [Pi.add_apply, Pi.zero_apply, outstanding, inAsset_sub,
      inAsset_add]
    omega
  · intro sound
    have soundGiven := adjustBalance_keeps gives sound
    have before := soundGiven.assets b (List.mem_of_getElem? foundB)
    rw [adjustBalance_assets gives] at foundB
    obtain ⟨c, foundC, sameSupply, sameOptions⟩ := frame.assets _ b foundB
    cases found.symm.trans foundC
    refine setAsset_sound soundGiven { before with supply_le := ?_ } ?_
    · change b.dynamicData.currentSupply + o.assetToIssue.amount
        ≤ b.options.maxSupply
      rw [sameSupply, sameOptions, ← eq_of_share summed]
      exact fits
    · intro notCore
      exact Int.add_nonneg (sound.supplies _ b foundB notCore)
        (Int.le_of_lt positive)

theorem assetReserve_keeps {o : AssetReserveOperation}
    (isCore : db.currentCoreAssetId = core) (valid : o.validate = .ok ())
    (returns : (assetReserveEvaluator required o).run db = .ok after) :
    Moves core db after 0 ∧ Keeps core db after := by
  simp only [AssetReserveOperation.validate, bind_eq_ok,
    fcAssert_eq_ok] at valid
  obtain ⟨_, _, _, _, positive⟩ := valid
  apply run_keeps (payFee_whole fun _ _ => rfl) isCore _ returns
  intro _ paid applied evaluated frame applies
  simp only [assetReserveEvaluator, bind_eq_ok, fcAssert_eq_ok,
    getAsset_eq_ok] at evaluated applies
  obtain ⟨a, found, _, _, _, _, _, _, supply, subtracted, covered⟩ := evaluated
  obtain ⟨taken, takes, applies⟩ := applies
  rw [modifyDynamicData_eq_ok] at applies
  obtain ⟨b, foundB, d, changed, same⟩ := applies
  obtain ⟨newSupply, checked, changed⟩ := bind_eq_ok.mp changed
  cases changed
  rw [eq_of_share checked] at same
  rw [← same]
  constructor
  · refine ((adjustBalance_moves takes).trans
      (setAsset_moves _ foundB)).congr ?_
    intro id
    simp only [Pi.add_apply, Pi.zero_apply, outstanding, Asset.neg,
      inAsset_neg, inAsset_sub]
    omega
  · intro sound
    have soundTaken := adjustBalance_keeps takes sound
    have before := soundTaken.assets b (List.mem_of_getElem? foundB)
    have atMost := before.supply_le
    rw [adjustBalance_assets takes] at foundB
    obtain ⟨c, foundC, sameSupply, _⟩ := frame.assets _ b foundB
    cases found.symm.trans foundC
    refine setAsset_sound soundTaken { before with supply_le := ?_ } ?_
    · change b.dynamicData.currentSupply - o.amountToReserve.amount
        ≤ b.options.maxSupply
      omega
    · intro _
      change 0 ≤ b.dynamicData.currentSupply - o.amountToReserve.amount
      rw [sameSupply, ← eq_of_share subtracted]
      exact covered

theorem assetFundFeePool_keeps {o : AssetFundFeePoolOperation}
    (isCore : db.currentCoreAssetId = core) (valid : o.validate = .ok ())
    (returns : (assetFundFeePoolEvaluator required o).run db = .ok after) :
    Moves core db after 0 ∧ Keeps core db after := by
  simp only [AssetFundFeePoolOperation.validate, bind_eq_ok,
    fcAssert_eq_ok] at valid
  obtain ⟨_, _, positive⟩ := valid
  apply run_keeps (payFee_whole fun _ _ => rfl) isCore _ returns
  intro _ paid applied _ frame applies
  have paidCore : paid.currentCoreAssetId = core := frame.core_eq.trans isCore
  simp only [assetFundFeePoolEvaluator, bind_eq_ok] at applies
  obtain ⟨taken, takes, applies⟩ := applies
  rw [modifyDynamicData_eq_ok] at applies
  obtain ⟨b, foundB, d, changed, same⟩ := applies
  obtain ⟨pool, checked, changed⟩ := bind_eq_ok.mp changed
  cases changed
  rw [eq_of_share checked] at same
  rw [← same]
  constructor
  · refine ((adjustBalance_moves takes).trans
      (setAsset_moves _ foundB)).congr ?_
    intro id
    simp only [Pi.add_apply, Pi.zero_apply, outstanding, inAsset_neg,
      inAsset_sub, inAsset_add, paidCore]
    omega
  · intro sound
    have soundTaken := adjustBalance_keeps takes sound
    have before := soundTaken.assets b (List.mem_of_getElem? foundB)
    refine setAsset_sound soundTaken { before with feePool := ?_ } ?_
    · exact Int.add_nonneg before.feePool (Int.le_of_lt positive)
    · exact soundTaken.supplies _ b foundB

theorem assetClaimFees_keeps {o : AssetClaimFeesOperation}
    (isCore : db.currentCoreAssetId = core)
    (returns : (assetClaimFeesEvaluator required o).run db = .ok after) :
    Moves core db after 0 ∧ Keeps core db after := by
  apply run_keeps (payFee_whole fun _ _ => rfl) isCore _ returns
  intro _ paid applied _ _ applies
  simp only [assetClaimFeesEvaluator, bind_eq_ok] at applies
  obtain ⟨claimed, claims, gives⟩ := applies
  rw [modifyDynamicData_eq_ok] at claims
  obtain ⟨b, foundB, d, changed, same⟩ := claims
  simp only [bind_eq_ok, fcAssert_eq_ok] at changed
  obtain ⟨_, enough, fees, checked, changed⟩ := changed
  cases changed
  rw [eq_of_share checked] at same
  subst same
  constructor
  · refine ((setAsset_moves _ foundB).trans
      (adjustBalance_moves gives)).congr ?_
    intro id
    simp only [Pi.add_apply, Pi.zero_apply, outstanding, inAsset_sub]
    omega
  · intro sound
    have before := sound.assets b (List.mem_of_getElem? foundB)
    apply adjustBalance_keeps gives
    refine setAsset_sound sound { before with accumulatedFees := ?_ } ?_
    · change 0 ≤ b.dynamicData.accumulatedFees - o.amountToClaim.amount
      omega
    · exact sound.supplies _ b foundB

def clearedPool (db : Database) (o : AssetUpdateOperation) : Int :=
  (db.assets[o.assetToUpdate]?.map fun a =>
    if clearsFeePool db o a then a.dynamicData.feePool else 0).getD 0

/-- An update takes the pool it clears from the holders of the core asset, and
the supply stays as it was. -/
theorem assetUpdate_moves {o : AssetUpdateOperation}
    (isCore : db.currentCoreAssetId = core)
    (returns : (assetUpdateEvaluator required o).run db = .ok after) :
    ∃ coreFee converted,
      db.prepareFee o.issuer o.fee = .ok coreFee ∧
        db.convertFee o.fee coreFee = .ok converted ∧
        Moves core db after
          (fun id => inAsset id core (-clearedPool converted o)) := by
  obtain ⟨coreFee, converted, paid, applied, ran⟩ := run_cases returns
  refine ⟨coreFee, converted, ran.prepared, ran.converts, ?_⟩
  obtain ⟨framePaid, sameAssets⟩ := payFee_frame ran.pays
  have applies := ran.applies
  simp only [assetUpdateEvaluator, bind_eq_ok, getAsset_eq_ok] at applies
  obtain ⟨a, found, applies⟩ := applies
  cases applies
  apply ran.moves_of_pays isCore (payFee_moves ran.pays)
  refine (setAsset_moves _ found).congr ?_
  intro id
  rw [sameAssets] at found
  have sameClears : clearsFeePool paid o a = clearsFeePool converted o a := by
    unfold clearsFeePool headBlockTime
    rw [framePaid.properties]
  simp only [updatedAsset, outstanding, clearedPool, found, Option.map_some,
    Option.getD_some, sameClears, inAsset_sub, inAsset_neg]
  split_ifs
  · simp
  · simp

/-- An update keeps the supply within the new maximum when it is within it. -/
theorem assetUpdate_sound {o : AssetUpdateOperation}
    (valid : o.validate = .ok ())
    (fits :
      ∀ a, db.assets[o.assetToUpdate]? = some a →
        a.dynamicData.currentSupply ≤ o.newOptions.maxSupply)
    (returns : (assetUpdateEvaluator required o).run db = .ok after) :
    Keeps core db after := by
  simp only [AssetUpdateOperation.validate, bind_eq_ok,
    fcAssert_eq_ok] at valid
  obtain ⟨_, _, _, _, validOptions⟩ := valid
  obtain ⟨_, atMost⟩ := validate_maxSupply validOptions
  obtain ⟨coreFee, converted, paid, applied, ran⟩ := run_cases returns
  have frame :=
    (convertFee_frame ran.prepared ran.converts).trans (payFee_frame ran.pays).1
  have applies := ran.applies
  simp only [assetUpdateEvaluator, bind_eq_ok, getAsset_eq_ok] at applies
  obtain ⟨a, found, applies⟩ := applies
  cases applies
  intro sound
  apply adjustBalance_keeps ran.charges
  have soundPaid :=
    payFee_sound ran.coreFee_nonneg ran.pays
      (convertFee_sound ran.prepared ran.converts sound)
  have before := soundPaid.assets a (List.mem_of_getElem? found)
  obtain ⟨b, foundB, sameSupply, _⟩ := frame.assets _ a found
  refine setAsset_sound soundPaid { before with
    feePool := ?_
    supply_le := ?_
    maxSupply_le := atMost } ?_
  · simp only [updatedAsset]
    split_ifs
    · exact le_rfl
    · exact before.feePool
  · change a.dynamicData.currentSupply ≤ o.newOptions.maxSupply
    rw [sameSupply]
    exact fits b foundB
  · exact soundPaid.supplies _ a found

/-- A new asset without supply changes what is held by its fee pool. -/
theorem createAsset_moves {a : AssetObject} (empty : outstanding a = 0) :
    Moves core db { db with assets := db.assets ++ [a] }
      (fun id => inAsset id core a.dynamicData.feePool) := by
  refine ⟨rfl, ?_⟩
  intro id
  have sameOutstanding :
      outstandingOf (db.assets ++ [a]) id = outstandingOf db.assets id := by
    unfold outstandingOf
    rcases Nat.lt_trichotomy id db.assets.length with before | here | beyond
    · rw [List.getElem?_append_left before]
    · simp [here, empty]
    · rw [List.getElem?_eq_none (by simp; omega),
        List.getElem?_eq_none (by omega)]
  simp only [surplus, held, coreHeld, fbaHeld, sameOutstanding, total_append,
    total_cons, total_nil, inAsset_add, inAsset_zero]
  omega

theorem createAsset_sound {a : AssetObject} (inOrder : SoundAsset a)
    (supply : 0 ≤ a.dynamicData.currentSupply) (sound : Sound core db) :
    Sound core { db with assets := db.assets ++ [a] } := by
  refine { sound with
    assets := forall_concat sound.assets inOrder
    supplies := ?_ }
  intro id b found notCore
  change (db.assets ++ [a])[id]? = some b at found
  by_cases before : id < db.assets.length
  · rw [List.getElem?_append_left before] at found
    exact sound.supplies id b found notCore
  · rw [List.getElem?_append_right (Nat.le_of_not_lt before)] at found
    have isNew := List.mem_singleton.mp (List.mem_of_getElem? found)
    rw [isNew]
    exact supply

/-- The extra unit that an odd fee puts into the supply before hard fork 1005. -/
def OddFeeFits (db : Database) (o : AssetCreateOperation) : Prop :=
  db.headBlockTime ≤ HARDFORK_1005_TIME →
    ∀ coreFee, db.prepareFee o.issuer o.fee = .ok coreFee → coreFee % 2 = 1 →
      ∀ a, db.assets[0]? = some a →
        a.dynamicData.currentSupply < a.options.maxSupply

theorem core_before_1005 (early : db.headBlockTime ≤ HARDFORK_1005_TIME) :
    db.currentCoreAssetId = 0 := by
  unfold currentCoreAssetId
  rw [if_neg]
  intro late
  have low := UInt32.le_iff_toNat_le.mp early
  have high := UInt32.lt_iff_toNat_lt.mp late
  simp only [HARDFORK_1005_TIME, HARDFORK_1008_TIME, UInt32.reduceToNat] at *
  omega

theorem assetCreate_cases {o : AssetCreateOperation} {coreFee : Int}
    (returns :
      (assetCreateEvaluator required o).doApply coreFee db = .ok after) :
    (∃ pool, pool = coreFee - coreFee / 2 - coreFee % 2 ∧
        after = { db with assets := db.assets ++ [createdAsset db o pool] }) ∨
      (coreFee % 2 = 1 ∧ db.headBlockTime ≤ HARDFORK_1005_TIME ∧
        ∃ a raised, db.assets[0]? = some a ∧
          raised = db.setAsset 0
            { a with dynamicData :=
              { a.dynamicData with
                currentSupply := a.dynamicData.currentSupply + 1 } } ∧
          after = { raised with
            assets := raised.assets ++
              [createdAsset db o (coreFee - coreFee / 2)] }) := by
  simp only [assetCreateEvaluator, bind_eq_ok] at returns
  obtain ⟨raised, raises, created⟩ := returns
  cases created
  unfold raiseSupplyForOddFee at raises
  by_cases odd : coreFee % 2 = 1
  · by_cases late : db.headBlockTime > HARDFORK_1005_TIME
    · have after1005 : oddFeeAfter1005 db coreFee = true := by
        simp [oddFeeAfter1005, odd, late]
      rw [if_neg (by simp [after1005])] at raises
      cases raises
      exact .inl ⟨_, rfl, by simp [after1005, odd]⟩
    · have before1005 : oddFeeAfter1005 db coreFee = false := by
        simp [oddFeeAfter1005, late]
      rw [if_pos (by simp [before1005, odd]), modifyDynamicData_eq_ok] at raises
      obtain ⟨a, found, d, changed, same⟩ := raises
      obtain ⟨supply, checked, changed⟩ := bind_eq_ok.mp changed
      cases changed
      rw [eq_of_share checked] at same
      refine .inr ⟨odd, UInt32.not_lt.mp late, a, raised, found, same.symm, ?_⟩
      simp [before1005]
  · rw [if_neg (by simp [odd])] at raises
    cases raises
    have even : coreFee % 2 = 0 := by omega
    exact .inl ⟨_, rfl, by simp [oddFeeAfter1005, even]⟩

theorem assetCreate_keeps {o : AssetCreateOperation}
    (isCore : db.currentCoreAssetId = core) (valid : o.validate = .ok ())
    (returns : (assetCreateEvaluator required o).run db = .ok after) :
    Moves core db after 0 ∧ (OddFeeFits db o → Keeps core db after) := by
  simp only [AssetCreateOperation.validate, bind_eq_ok,
    fcAssert_eq_ok] at valid
  obtain ⟨_, _, _, _, _, validOptions, _⟩ := valid
  obtain ⟨positive, atMost⟩ := validate_maxSupply validOptions
  obtain ⟨coreFee, converted, paid, applied, ran⟩ := run_cases returns
  have feeNonneg := ran.coreFee_nonneg
  have frame :=
    (convertFee_frame ran.prepared ran.converts).trans (payFee_frame ran.pays).1
  have pays := @payFee_moves core _ _ _ _ ran.pays
  have soundPaid : Sound core db → Sound core paid := fun sound =>
    payFee_sound (by omega) ran.pays
      (convertFee_sound ran.prepared ran.converts sound)
  have inOrder : ∀ pool, 0 ≤ pool → SoundAsset (createdAsset paid o pool) :=
    fun pool poolNonneg =>
      { feePool := poolNonneg
        accumulatedFees := le_rfl
        confidentialSupply := le_rfl
        supply_le := Int.le_of_lt positive
        maxSupply_le := atMost }
  rcases assetCreate_cases ran.applies with
    ⟨pool, isPool, created⟩ |
      ⟨odd, early, a, raised, found, raises, created⟩
  · constructor
    · refine (ran.moves isCore pays
        (created ▸ createAsset_moves rfl)).congr ?_
      intro id
      simp only [createdAsset, Pi.zero_apply, ← inAsset_add, isPool]
      refine (congrArg (inAsset id core) ?_).trans (inAsset_zero id core)
      omega
    · intro _ sound
      apply adjustBalance_keeps ran.charges
      rw [created]
      exact createAsset_sound (inOrder pool (by omega)) le_rfl
        (soundPaid sound)
  · have isZero : core = 0 :=
      isCore.symm.trans (frame.core_eq.symm.trans (core_before_1005 early))
    constructor
    · refine (ran.moves isCore pays
        ((raises ▸ setAsset_moves _ found).trans
          (created ▸ createAsset_moves rfl))).congr ?_
      intro id
      simp only [createdAsset, Pi.add_apply, Pi.zero_apply, outstanding, isZero,
        ← inAsset_add]
      refine (congrArg (inAsset id 0) ?_).trans (inAsset_zero id 0)
      omega
    · intro fits sound
      apply adjustBalance_keeps ran.charges
      have before := (soundPaid sound).assets a (List.mem_of_getElem? found)
      obtain ⟨b, foundB, sameSupply, sameOptions⟩ := frame.assets _ a found
      have below :=
        fits (by rw [headBlockTime, ← frame.properties]; exact early)
          coreFee ran.prepared odd b foundB
      rw [created]
      apply createAsset_sound (inOrder _ (by omega)) le_rfl
      rw [raises]
      refine setAsset_sound (soundPaid sound)
        { before with supply_le := ?_ } ?_
      · change a.dynamicData.currentSupply + 1 ≤ a.options.maxSupply
        rw [sameSupply, sameOptions]
        omega
      · intro notCore
        exact absurd isZero.symm notCore

end Keeps

end GxbCore.Ledger
