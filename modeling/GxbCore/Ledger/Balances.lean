import GxbCore.Ledger.Vesting
import GxbCore.Lib.Rows

/-!
# Moving amounts between holders

`adjust_balance` and the deposits into vesting balances, through which every
operation and every reward moves value.
-/

namespace GxbCore.Ledger

namespace Database

/-- Is this the balance object of the account in the asset? -/
def isBalanceOf
    (account : AccountId) (assetId : AssetId) (b : AccountBalance) : Bool :=
  b.owner = account ∧ b.assetType = assetId

def getBalance (db : Database) (owner : AccountId) (assetId : AssetId) :
    Asset :=
  match db.balances.find? (isBalanceOf owner assetId) with
  | none => ⟨0, assetId⟩
  | some row => ⟨row.balance, assetId⟩

def adjustBalance (db : Database) (account : AccountId) (delta : Asset) :
    Except Fault Database :=
  if delta.amount = 0 then
    .ok db
  else
    match db.balances.find? (isBalanceOf account delta.assetId) with
    | none => do
        fcAssert (0 < delta.amount)
          "Insufficient Balance: ${a}'s balance of ${b} is less than required ${r}"
        return { db with
          balances :=
            db.balances ++ [⟨account, delta.assetId, delta.amount⟩] }
    | some row => do
        fcAssert (delta.amount < 0 → -delta.amount ≤ row.balance)
          "Insufficient Balance: ${a}'s balance of ${b} is less than required ${r}"
        let balance ← share (row.balance + delta.amount)
        return { db with
          balances :=
            replaceFirst (isBalanceOf account delta.assetId)
              { row with balance := balance } db.balances }

/-- `modify` on the dynamic data of an asset. -/
def modifyDynamicData
    (db : Database) (id : AssetId)
    (change : AssetDynamicData → Except Fault AssetDynamicData) :
    Except Fault Database := do
  let a ← db.getAsset id
  let dynamicData ← change a.dynamicData
  return db.setAsset id { a with dynamicData := dynamicData }

/-- May the deposit go into this vesting balance? -/
def isReusable
    (db : Database) (vbo : VestingBalance) (reqVestingSeconds : UInt32)
    (reqOwner : AccountId) : Bool :=
  vbo.owner == reqOwner &&
    (match vbo.policy with
      | .linear _ => false
      | .cdd policy => policy.vestingSeconds == reqVestingSeconds) &&
    (db.headBlockTime ≤ HARDFORK_1008_TIME || vbo.balance.assetId == 1)

/-- The vesting balance that the deposit goes into, if there is one. -/
def findReusable
    (db : Database) (ovbid : Option VestingBalanceId)
    (reqVestingSeconds : UInt32) (reqOwner : AccountId) :
    Except Fault (Option (VestingBalanceId × VestingBalance)) :=
  match ovbid with
  | none => .ok none
  | some id => do
      let vbo ← orThrow db.vestings[id]? .notFound
      return if db.isReusable vbo reqVestingSeconds reqOwner then
          some (id, vbo)
        else
          none

/-- The vesting balance that `deposit_lazy_vesting` creates. -/
def lazyVesting
    (db : Database) (amount : Int) (reqVestingSeconds : UInt32)
    (reqOwner : AccountId) (requireVesting : Bool) : VestingBalance where
  owner := reqOwner
  balance := ⟨amount, db.currentCoreAssetId⟩
  policy := .cdd {
    vestingSeconds := reqVestingSeconds
    coinSecondsEarned :=
      if requireVesting then 0
      else uint128 (int64 (amount * reqVestingSeconds.toNat))
    startClaim := 0
    coinSecondsEarnedLastUpdate := db.headBlockTime }

/-- `deposit_lazy_vesting`: the id of a newly created vesting balance, if any. -/
def depositLazyVesting
    (db : Database) (ovbid : Option VestingBalanceId) (amount : Int)
    (reqVestingSeconds : UInt32) (reqOwner : AccountId)
    (requireVesting : Bool) :
    Except Fault (Option VestingBalanceId × Database) :=
  if amount = 0 then
    .ok (none, db)
  else do
    match ← db.findReusable ovbid reqVestingSeconds reqOwner with
    | some (id, vbo) =>
        let deposited ←
          vbo.depositWith requireVesting db.headBlockTime
            ⟨amount, db.currentCoreAssetId⟩
        return (none, db.setVesting id deposited)
    | none =>
        let vbo :=
          db.lazyVesting amount reqVestingSeconds reqOwner requireVesting
        return (some db.vestings.length,
          { db with vestings := db.vestings ++ [vbo] })

def isBlockchainAccount (account : AccountId) : Bool :=
  account = GRAPHENE_COMMITTEE_ACCOUNT ∨ account = GRAPHENE_WITNESS_ACCOUNT ∨
    account = GRAPHENE_RELAXED_COMMITTEE_ACCOUNT ∨
    account = GRAPHENE_NULL_ACCOUNT ∨ account = GRAPHENE_TEMP_ACCOUNT

def depositCashback
    (db : Database) (acct : AccountId) (amount : Int)
    (requireVesting : Bool) : Except Fault Database :=
  if amount = 0 then
    .ok db
  else if isBlockchainAccount acct then
    -- The blockchain's accounts do not get cashback: it goes to the reserve.
    db.modifyDynamicData db.currentCoreAssetId fun d => do
      let currentSupply ← share (d.currentSupply - amount)
      return { d with currentSupply := currentSupply }
  else do
    let account ← db.getAccount acct
    let (newVbid, db) ←
      db.depositLazyVesting account.cashbackVb amount
        db.parameters.cashbackVestingPeriodSeconds acct requireVesting
    match newVbid with
    | none => return db
    | some id => return db.setAccount acct { account with cashbackVb := some id }

def stakingCashback (db : Database) (acct : AccountId) (amount : Int) :
    Except Fault Database :=
  if amount = 0 then
    .ok db
  else do
    let account ← db.getAccount acct
    if db.headBlockTime > HARDFORK_1027_TIME then
      let (newVbid, db) ←
        db.depositLazyVesting account.stakingCashbackVb amount
          db.parameters.voteParams.stakingRewardsVestingSeconds acct true
      match newVbid with
      | none => return db
      | some id =>
          return db.setAccount acct
            { account with stakingCashbackVb := some id }
    else
      let (newVbid, db) ←
        db.depositLazyVesting account.cashbackVb amount
          db.parameters.voteParams.stakingRewardsVestingSeconds acct true
      match newVbid with
      | none => return db
      | some id =>
          return db.setAccount acct { account with cashbackVb := some id }

def depositWitnessPay (db : Database) (wit : WitnessId) (amount : Int) :
    Except Fault Database :=
  if amount = 0 then
    .ok db
  else do
    let witness ← db.getWitness wit
    let (newVbid, db) ←
      db.depositLazyVesting witness.payVb amount
        db.parameters.witnessPayVestingSeconds witness.witnessAccount true
    match newVbid with
    | none => return db
    | some id => return db.setWitness wit { witness with payVb := some id }

end Database

/-- `detail::_is_authorized_asset` -/
def isAuthorizedAssetSlow
    (now : Time) (acct : AccountObject) (asset : AssetId)
    (assetObj : AssetObject) : Bool :=
  if (match acct.allowedAssets with
      | none => false
      | some allowed => !allowed.contains asset) then
    false
  else if acct.blacklistingAccounts.any
      (assetObj.options.blacklistAuthorities.contains ·) then
    false
  else if now > HARDFORK_415_TIME ∧
      assetObj.options.whitelistAuthorities.length = 0 then
    true
  else
    acct.whitelistingAccounts.any
      (assetObj.options.whitelistAuthorities.contains ·)

def isAuthorizedAsset
    (db : Database) (acct : AccountObject) (asset : AssetId)
    (assetObj : AssetObject) : Bool :=
  (assetObj.options.flags &&& whiteList == 0 && acct.allowedAssets.isNone) ||
    isAuthorizedAssetSlow db.headBlockTime acct asset assetObj

end GxbCore.Ledger
