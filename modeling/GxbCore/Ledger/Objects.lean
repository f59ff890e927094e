import GxbCore.Ledger.Amounts

/-!
# The objects that hold value

The part of the object database that balances, fees, rewards and their
bookkeeping live in.  Assets, accounts, vesting balances, witnesses and
committee members are never removed and their ids are handed out in order, so
they are kept in lists indexed by id; the other objects carry their id and are
kept in the order of ids.

An asset object and its dynamic data are one row, and so are an account and its
statistics: each pair is created together and refers to each other for good.
-/

namespace GxbCore.Ledger

def GRAPHENE_COMMITTEE_ACCOUNT : AccountId :=
  0

def GRAPHENE_WITNESS_ACCOUNT : AccountId :=
  1

def GRAPHENE_RELAXED_COMMITTEE_ACCOUNT : AccountId :=
  2

def GRAPHENE_NULL_ACCOUNT : AccountId :=
  3

def GRAPHENE_TEMP_ACCOUNT : AccountId :=
  4

def GRAPHENE_GXS_ASSET : AssetId :=
  1

def SECONDS_PER_DAY : UInt32 :=
  86400

section Hardforks

def HARDFORK_413_TIME : Time :=
  1446652800

def HARDFORK_415_TIME : Time :=
  1446652800

def HARDFORK_419_TIME : Time :=
  1446652800

def HARDFORK_563_TIME : Time :=
  1456250400

def HARDFORK_572_TIME : Time :=
  1456250400

def HARDFORK_1005_TIME : Time :=
  1524153600

def HARDFORK_1008_TIME : Time :=
  1541433600

def HARDFORK_1019_TIME : Time :=
  1553832000

def HARDFORK_1025_TIME : Time :=
  1585281600

def HARDFORK_1026_TIME : Time :=
  1585281600

def HARDFORK_1027_TIME : Time :=
  1585281600

def HARDFORK_1028_TIME : Time :=
  1585281600

def HARDFORK_1029_TIME : Time :=
  1608133197

def HARDFORK_1129_TIME : Time :=
  1545796800

end Hardforks

section Assets

/-- The `asset_issuer_permission_flags` that are read below. -/
def chargeMarketFee : UInt16 :=
  0x01

def whiteList : UInt16 :=
  0x02

def overrideAuthority : UInt16 :=
  0x04

def transferRestricted : UInt16 :=
  0x08

def disableForceSettle : UInt16 :=
  0x10

def globalSettle : UInt16 :=
  0x20

def disableConfidential : UInt16 :=
  0x40

def witnessFedAsset : UInt16 :=
  0x80

def committeeFedAsset : UInt16 :=
  0x100

def ASSET_ISSUER_PERMISSION_MASK : UInt16 :=
  0x1ff

structure AssetOptions where
  maxSupply : Int
  marketFeePercent : UInt16
  maxMarketFee : Int
  issuerPermissions : UInt16
  flags : UInt16
  coreExchangeRate : Price
  whitelistAuthorities : List AccountId
  blacklistAuthorities : List AccountId
  whitelistMarkets : List AssetId
  blacklistMarkets : List AssetId
  deriving DecidableEq, Repr

structure AssetDynamicData where
  currentSupply : Int
  confidentialSupply : Int
  accumulatedFees : Int
  /-- in core asset -/
  feePool : Int
  deriving DecidableEq, Repr

structure AssetObject where
  symbol : String
  precision : UInt8
  issuer : AccountId
  options : AssetOptions
  dynamicData : AssetDynamicData
  isMarketIssued : Bool
  buybackAccount : Option AccountId
  deriving DecidableEq, Repr

def AssetObject.isTransferRestricted (a : AssetObject) : Bool :=
  a.options.flags &&& transferRestricted != 0

def AssetObject.canOverride (a : AssetObject) : Bool :=
  a.options.flags &&& overrideAuthority != 0

def AssetObject.allowConfidential (a : AssetObject) : Bool :=
  a.options.flags &&& disableConfidential == 0

end Assets

section Accounts

/-- The percentages by which an account's fees are split.  Network and lifetime
referrer take at most the whole: the committee cannot set parameters that say
otherwise, and an upgrade gives the lifetime referrer what the network leaves. -/
structure FeeSplit where
  networkFeePercentage : Nat
  lifetimeReferrerFeePercentage : Nat
  referrerRewardsPercentage : Nat
  network_add_lifetime_le :
    networkFeePercentage + lifetimeReferrerFeePercentage ≤ GRAPHENE_100_PERCENT
  referrer_le : referrerRewardsPercentage ≤ GRAPHENE_100_PERCENT
  deriving DecidableEq, Repr

/-- `top_holders_special_authority` -/
structure TopHolders where
  asset : AssetId
  numTopHolders : UInt8
  deriving DecidableEq, Repr

/-- `account_object` with its `account_statistics_object`. -/
structure AccountObject where
  membershipExpirationDate : Time
  registrar : AccountId
  referrer : AccountId
  lifetimeReferrer : AccountId
  feeSplit : FeeSplit
  hasCode : Bool
  activeKeys : List Nat
  whitelistingAccounts : List AccountId
  blacklistingAccounts : List AccountId
  allowedAssets : Option (List AssetId)
  cashbackVb : Option VestingBalanceId
  stakingCashbackVb : Option VestingBalanceId
  ownerSpecialAuthority : Option TopHolders
  activeSpecialAuthority : Option TopHolders
  topNControlOwner : Bool
  topNControlActive : Bool
  lifetimeFeesPaid : Int
  pendingFees : Int
  pendingVestedFees : Int
  deriving DecidableEq, Repr

/-- `is_lifetime_member`: the expiration date is `time_point_sec::maximum()`. -/
def AccountObject.isLifetimeMember (a : AccountObject) : Bool :=
  a.membershipExpirationDate = 0xffffffff

def AccountObject.isBasicAccount (a : AccountObject) (now : Time) : Bool :=
  now > a.membershipExpirationDate

/-- `is_contract_account`, which holds of the accounts without code. -/
def AccountObject.isContractAccount (a : AccountObject) : Bool :=
  !a.hasCode

structure AccountBalance where
  owner : AccountId
  assetType : AssetId
  balance : Int
  deriving DecidableEq, Repr

end Accounts

section Holders

structure LinearVestingPolicy where
  beginTimestamp : Time
  vestingCliffSeconds : UInt32
  vestingDurationSeconds : UInt32
  beginBalance : Int
  deriving DecidableEq, Repr

structure CddVestingPolicy where
  vestingSeconds : UInt32
  coinSecondsEarned : Int
  startClaim : Time
  coinSecondsEarnedLastUpdate : Time
  deriving DecidableEq, Repr

inductive VestingPolicy where
  | linear (policy : LinearVestingPolicy)
  | cdd (policy : CddVestingPolicy)
  deriving DecidableEq, Repr

structure VestingBalance where
  owner : AccountId
  balance : Asset
  policy : VestingPolicy
  deriving DecidableEq, Repr

structure Staking where
  id : Nat
  owner : AccountId
  createDateTime : Time
  stakingDays : UInt32
  weight : UInt32
  programId : String
  amount : Asset
  trustNode : WitnessId
  isValid : Bool
  deriving DecidableEq, Repr

structure LockBalance where
  id : Nat
  owner : AccountId
  createDateTime : Time
  lockDays : UInt32
  programId : String
  amount : Asset
  interestRate : UInt16
  memo : String
  deriving DecidableEq, Repr

structure TrustNodePledge where
  ownerAccount : AccountId
  amount : Asset
  deriving DecidableEq, Repr

structure Witness where
  witnessAccount : AccountId
  payVb : Option VestingBalanceId
  voteId : Nat
  totalMissed : Int
  previousMissed : Int
  isValid : Bool
  isBanned : Bool
  totalVoteWeights : Int
  voteRewardPool : Int
  commissionRate : UInt32
  commissionUpdateTime : Time
  deriving DecidableEq, Repr

structure CommitteeMember where
  committeeMemberAccount : AccountId
  voteId : Nat
  isValid : Bool
  deriving DecidableEq, Repr

structure WithdrawPermission where
  id : Nat
  withdrawFromAccount : AccountId
  authorizedAccount : AccountId
  withdrawalLimit : Asset
  withdrawalPeriodSec : UInt32
  periodStartTime : Time
  expiration : Time
  claimedThisPeriod : Int
  deriving DecidableEq, Repr

/-- `blinded_balance_object`; keys and commitments are opaque. -/
structure BlindedBalance where
  commitment : Nat
  assetId : AssetId
  owner : Nat
  deriving DecidableEq, Repr

structure FbaAccumulator where
  accumulatedFbaFees : Int
  designatedAsset : Option AssetId
  deriving DecidableEq, Repr

structure SignatureObject where
  signature : Nat
  expiration : Time
  deriving DecidableEq, Repr

end Holders

section Properties

/-- `vote_params_t` -/
structure VoteParams where
  stakingModeOn : Bool
  setCommissionInterval : UInt32
  stakingRewardsVestingSeconds : UInt32
  missedBlockLimit : UInt32
  maxStakingCount : UInt32
  witnessRewardProportion : UInt32
  validNodesNumber : UInt32
  minStakingAmount : UInt64
  deriving DecidableEq, Repr

/-- `staking_weight_t` -/
structure StakingWeight where
  stakingDays : UInt32
  weight : UInt32
  isValid : Bool
  deriving DecidableEq, Repr

/-- `interest_rate_t` -/
structure InterestRate where
  lockDays : UInt32
  interestRate : UInt32
  isValid : Bool
  deriving DecidableEq, Repr

/-- The `chain_parameters` that are read below; an extension that is absent
stands with its default value. -/
structure ChainParameters where
  blockInterval : UInt8
  maintenanceInterval : UInt32
  maximumAssetWhitelistAuthorities : UInt8
  maximumTimeUntilExpiration : UInt32
  cashbackVestingPeriodSeconds : UInt32
  cashbackVestingThreshold : Int
  witnessPayPerBlock : Int
  witnessPayVestingSeconds : UInt32
  trustNodePledge : Int
  voteParams : VoteParams
  stakingParams : List (String × StakingWeight)
  lockBalanceParams : List (String × InterestRate)
  deriving DecidableEq, Repr

/-- `dynamic_global_property_object` -/
structure DynamicGlobalProperties where
  headBlockNumber : UInt32
  time : Time
  nextMaintenanceTime : Time
  lastBudgetTime : Time
  witnessBudget : Int
  currentStakingRewardPool : Int
  deriving DecidableEq, Repr

end Properties

structure Database where
  assets : List AssetObject
  accounts : List AccountObject
  balances : List AccountBalance
  vestings : List VestingBalance
  stakings : List Staking
  nextStakingId : Nat
  locks : List LockBalance
  nextLockId : Nat
  pledges : List TrustNodePledge
  witnesses : List Witness
  committeeMembers : List CommitteeMember
  permissions : List WithdrawPermission
  nextPermissionId : Nat
  blindedBalances : List BlindedBalance
  fbas : List FbaAccumulator
  signatures : List SignatureObject
  nextAvailableVoteId : Nat
  parameters : ChainParameters
  pendingParameters : Option ChainParameters
  properties : DynamicGlobalProperties
  deriving DecidableEq, Repr

namespace Database

def headBlockTime (db : Database) : Time :=
  db.properties.time

def currentCoreAssetId (db : Database) : AssetId :=
  if db.headBlockTime > HARDFORK_1008_TIME then 1 else 0

/-- `asset_id_type::operator()(db)` -/
def getAsset (db : Database) (id : AssetId) : Except Fault AssetObject :=
  orThrow db.assets[id]? .notFound

/-- `account_id_type::operator()(db)` -/
def getAccount (db : Database) (id : AccountId) : Except Fault AccountObject :=
  orThrow db.accounts[id]? .notFound

def getWitness (db : Database) (id : WitnessId) : Except Fault Witness :=
  orThrow db.witnesses[id]? .notFound

/-- `modify` on an asset or on its dynamic data. -/
def setAsset (db : Database) (id : AssetId) (a : AssetObject) : Database :=
  { db with assets := db.assets.set id a }

def setAccount (db : Database) (id : AccountId) (a : AccountObject) :
    Database :=
  { db with accounts := db.accounts.set id a }

def setWitness (db : Database) (id : WitnessId) (w : Witness) : Database :=
  { db with witnesses := db.witnesses.set id w }

def setVesting (db : Database) (id : VestingBalanceId) (v : VestingBalance) :
    Database :=
  { db with vestings := db.vestings.set id v }

end Database

section Sample

/-- An asset without restrictions. -/
def plainAsset : AssetObject where
  symbol := "GXC"
  precision := 5
  issuer := 0
  options := {
    maxSupply := GRAPHENE_MAX_SHARE_SUPPLY
    marketFeePercent := 0
    maxMarketFee := 0
    issuerPermissions := 0
    flags := 0
    coreExchangeRate := ⟨⟨1, 0⟩, ⟨1, 1⟩⟩
    whitelistAuthorities := []
    blacklistAuthorities := []
    whitelistMarkets := []
    blacklistMarkets := [] }
  dynamicData := ⟨100, 0, 0, 0⟩
  isMarketIssued := false
  buybackAccount := none

def plainAccount (key : Nat) : AccountObject where
  membershipExpirationDate := 0xffffffff
  registrar := 0
  referrer := 0
  lifetimeReferrer := 0
  feeSplit := ⟨2000, 3000, 0, by decide, by decide⟩
  hasCode := false
  activeKeys := [key]
  whitelistingAccounts := []
  blacklistingAccounts := []
  allowedAssets := none
  cashbackVb := none
  stakingCashbackVb := none
  ownerSpecialAuthority := none
  activeSpecialAuthority := none
  topNControlOwner := false
  topNControlActive := false
  lifetimeFeesPaid := 0
  pendingFees := 0
  pendingVestedFees := 0

def plainParameters : ChainParameters where
  blockInterval := 3
  maintenanceInterval := 3600
  maximumAssetWhitelistAuthorities := 10
  maximumTimeUntilExpiration := 86400
  cashbackVestingPeriodSeconds := 0
  cashbackVestingThreshold := 0
  witnessPayPerBlock := 0
  witnessPayVestingSeconds := 0
  trustNodePledge := 0
  voteParams := ⟨true, 0, 0, 0, 0, 0, 0, 0⟩
  stakingParams := []
  lockBalanceParams := []

/-- A database with two assets, the second one core, and nobody to hold them. -/
def plainDatabase : Database where
  assets := [plainAsset, plainAsset]
  accounts := []
  balances := []
  vestings := []
  stakings := []
  nextStakingId := 0
  locks := []
  nextLockId := 0
  pledges := []
  witnesses := []
  committeeMembers := []
  permissions := []
  nextPermissionId := 0
  blindedBalances := []
  fbas := []
  signatures := []
  nextAvailableVoteId := 0
  parameters := plainParameters
  pendingParameters := none
  properties := {
    headBlockNumber := 1
    time := 1610000000
    nextMaintenanceTime := 1610003600
    lastBudgetTime := 0
    witnessBudget := 0
    currentStakingRewardPool := 0 }

end Sample

end GxbCore.Ledger
