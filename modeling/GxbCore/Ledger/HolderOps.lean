import GxbCore.Ledger.Fees

/-!
# Vesting balances, withdraw permissions, blinded and locked balances

The operations that move a balance into or out of another kind of holder, and
the withdrawals that one account allows another.
-/

namespace GxbCore.Ledger

open Database

section Operations

inductive VestingPolicyInitializer where
  | linear (beginTimestamp : Time) (vestingCliffSeconds : UInt32)
      (vestingDurationSeconds : UInt32)
  | cdd (startClaim : Time) (vestingSeconds : UInt32)
  deriving DecidableEq, Repr

structure VestingBalanceCreateOperation where
  fee : Asset
  creator : AccountId
  owner : AccountId
  amount : Asset
  policy : VestingPolicyInitializer
  deriving DecidableEq, Repr

structure VestingBalanceWithdrawOperation where
  fee : Asset
  vestingBalance : VestingBalanceId
  owner : AccountId
  amount : Asset
  deriving DecidableEq, Repr

structure WithdrawPermissionCreateOperation where
  fee : Asset
  withdrawFromAccount : AccountId
  authorizedAccount : AccountId
  withdrawalLimit : Asset
  withdrawalPeriodSec : UInt32
  periodsUntilExpiration : UInt32
  periodStartTime : Time
  deriving DecidableEq, Repr

structure WithdrawPermissionUpdateOperation where
  fee : Asset
  withdrawFromAccount : AccountId
  authorizedAccount : AccountId
  permissionToUpdate : Nat
  withdrawalLimit : Asset
  withdrawalPeriodSec : UInt32
  periodStartTime : Time
  periodsUntilExpiration : UInt32
  deriving DecidableEq, Repr

structure WithdrawPermissionClaimOperation where
  fee : Asset
  withdrawPermission : Nat
  withdrawFromAccount : AccountId
  withdrawToAccount : AccountId
  amountToWithdraw : Asset
  deriving DecidableEq, Repr

structure WithdrawPermissionDeleteOperation where
  fee : Asset
  withdrawFromAccount : AccountId
  authorizedAccount : AccountId
  withdrawalPermission : Nat
  deriving DecidableEq, Repr

/-- `blind_output`; the owner is an authority, of which its accounts and whether
it is impossible are read. -/
structure BlindOutput where
  commitment : Nat
  rangeProof : Nat
  owner : Nat
  ownerAccounts : List AccountId
  ownerIsImpossible : Bool
  deriving DecidableEq, Repr

structure BlindInput where
  commitment : Nat
  owner : Nat
  deriving DecidableEq, Repr

structure TransferToBlindOperation where
  fee : Asset
  amount : Asset
  source : AccountId
  blindingFactor : Nat
  outputs : List BlindOutput
  deriving DecidableEq, Repr

structure TransferFromBlindOperation where
  fee : Asset
  amount : Asset
  target : AccountId
  blindingFactor : Nat
  inputs : List BlindInput
  deriving DecidableEq, Repr

structure BlindTransferOperation where
  fee : Asset
  inputs : List BlindInput
  outputs : List BlindOutput
  deriving DecidableEq, Repr

structure BalanceLockOperation where
  fee : Asset
  account : AccountId
  createDateTime : Time
  programId : String
  amount : Asset
  lockDays : UInt32
  interestRate : UInt32
  memo : String
  deriving DecidableEq, Repr

structure BalanceUnlockOperation where
  fee : Asset
  account : AccountId
  lockId : Nat
  deriving DecidableEq, Repr

/-- The elliptic-curve functions that blinded balances are checked with. -/
structure BlindCurve where
  blind : Nat → Int → Nat
  verifySum : List Nat → List Nat → Int → Bool
  /-- `range_get_info(..).max_value` -/
  rangeMaxValue : Nat → Int

def VestingBalanceCreateOperation.validate
    (o : VestingBalanceCreateOperation) : Except Fault Unit := do
  fcAssert (0 ≤ o.fee.amount) ""
  fcAssert (0 < o.amount.amount) ""

def VestingBalanceWithdrawOperation.validate
    (o : VestingBalanceWithdrawOperation) : Except Fault Unit := do
  fcAssert (0 ≤ o.fee.amount) ""
  fcAssert (0 < o.amount.amount) ""

def WithdrawPermissionCreateOperation.validate
    (o : WithdrawPermissionCreateOperation) : Except Fault Unit := do
  fcAssert (0 ≤ o.fee.amount) ""
  fcAssert (o.withdrawFromAccount ≠ o.authorizedAccount) ""
  fcAssert (0 < o.withdrawalLimit.amount) ""
  fcAssert (0 < o.withdrawalPeriodSec) ""
  fcAssert (0 < o.periodsUntilExpiration) ""

def WithdrawPermissionUpdateOperation.validate
    (o : WithdrawPermissionUpdateOperation) : Except Fault Unit := do
  fcAssert (0 < o.withdrawalLimit.amount) ""
  fcAssert (0 ≤ o.fee.amount) ""
  fcAssert (0 < o.withdrawalPeriodSec) ""
  fcAssert (o.withdrawFromAccount ≠ o.authorizedAccount) ""
  fcAssert (0 < o.periodsUntilExpiration) ""

def WithdrawPermissionClaimOperation.validate
    (o : WithdrawPermissionClaimOperation) : Except Fault Unit := do
  fcAssert (o.withdrawToAccount ≠ o.withdrawFromAccount) ""
  fcAssert (0 < o.amountToWithdraw.amount) ""
  fcAssert (0 ≤ o.fee.amount) ""

def WithdrawPermissionDeleteOperation.validate
    (o : WithdrawPermissionDeleteOperation) : Except Fault Unit := do
  fcAssert (0 ≤ o.fee.amount) ""
  fcAssert (o.withdrawFromAccount ≠ o.authorizedAccount) ""

/-- The commitments are strictly ascending. -/
def isSortedByCommitment (commitments : List Nat) : Bool :=
  (commitments.zip commitments.tail).all (fun pair => pair.1 < pair.2)

/-- With more than one output every range proof is bounded. -/
def checkRanges (curve : BlindCurve) (outputs : List BlindOutput) :
    Except Fault Unit :=
  fcAssert
    (1 < outputs.length →
      outputs.all
        (fun out =>
          curve.rangeMaxValue out.rangeProof ≤ GRAPHENE_MAX_SHARE_SUPPLY)) ""

def TransferToBlindOperation.validate
    (curve : BlindCurve) (o : TransferToBlindOperation) :
    Except Fault Unit := do
  fcAssert (0 ≤ o.fee.amount) ""
  fcAssert (0 < o.amount.amount) ""
  let out := o.outputs.map (·.commitment)
  fcAssert (isSortedByCommitment out)
    "all outputs must be sorted by commitment id"
  fcAssert (o.outputs.all (!·.ownerIsImpossible)) ""
  fcAssert (out ≠ []) "there must be at least one output"
  fcAssert
    (curve.verifySum [curve.blind o.blindingFactor o.amount.amount] out 0) ""
  checkRanges curve o.outputs

def TransferFromBlindOperation.validate
    (curve : BlindCurve) (o : TransferFromBlindOperation) :
    Except Fault Unit := do
  fcAssert (0 < o.amount.amount) ""
  fcAssert (0 ≤ o.fee.amount) ""
  fcAssert (o.inputs ≠ []) ""
  fcAssert (o.amount.assetId = o.fee.assetId) ""
  let inputs := o.inputs.map (·.commitment)
  fcAssert (isSortedByCommitment inputs)
    "all inputs must be sorted by commitment id"
  fcAssert
    (curve.verifySum inputs
      [curve.blind o.blindingFactor (int64 (o.fee.amount + o.amount.amount))]
      0) ""

def BlindTransferOperation.validate
    (curve : BlindCurve) (o : BlindTransferOperation) :
    Except Fault Unit := do
  let inputs := o.inputs.map (·.commitment)
  let out := o.outputs.map (·.commitment)
  fcAssert (isSortedByCommitment inputs) ""
  fcAssert (isSortedByCommitment out) ""
  fcAssert (o.outputs.all (!·.ownerIsImpossible)) ""
  fcAssert (inputs ≠ []) "there must be at least one input"
  fcAssert (curve.verifySum inputs out o.fee.amount) ""
  checkRanges curve o.outputs

def BalanceLockOperation.validate (o : BalanceLockOperation) :
    Except Fault Unit := do
  fcAssert (0 ≤ o.fee.amount) ""
  fcAssert (o.amount.assetId = GRAPHENE_GXS_ASSET) ""

def BalanceUnlockOperation.validate (o : BalanceUnlockOperation) :
    Except Fault Unit :=
  fcAssert (0 ≤ o.fee.amount) ""

end Operations

section Vesting

/-- `init_policy_visitor` -/
def VestingPolicyInitializer.init
    (policy : VestingPolicyInitializer) (initBalance : Int) (now : Time) :
    VestingPolicy :=
  match policy with
  | linear beginTimestamp cliff duration =>
      .linear ⟨beginTimestamp, cliff, duration, initBalance⟩
  | cdd startClaim vestingSeconds => .cdd ⟨vestingSeconds, 0, startClaim, now⟩

def vestingBalanceCreateEvaluator
    (required : Option Int) (o : VestingBalanceCreateOperation) :
    Evaluator where
  feePayer := o.creator
  fee := o.fee
  requiredFee := required
  doEvaluate db := do
    let _ ← db.getAccount o.creator
    let _ ← db.getAccount o.owner
    fcAssert (0 < o.amount.amount) ""
    fcAssert
      (o.amount.amount ≤ (db.getBalance o.creator o.amount.assetId).amount) ""
    let a ← db.getAsset o.amount.assetId
    fcAssert (!a.isTransferRestricted) ""
  payFee coreFee db := db.payFee o.creator coreFee
  doApply _ db := do
    fcAssert
      (o.amount.amount ≤ (db.getBalance o.creator o.amount.assetId).amount) ""
    let db ← db.adjustBalance o.creator o.amount.neg
    return { db with
      vestings := db.vestings ++
        [⟨o.owner, o.amount, o.policy.init o.amount.amount db.headBlockTime⟩] }

def vestingBalanceWithdrawEvaluator
    (required : Option Int) (o : VestingBalanceWithdrawOperation) :
    Evaluator where
  feePayer := o.owner
  fee := o.fee
  requiredFee := required
  doEvaluate db := do
    let vbo ← orThrow db.vestings[o.vestingBalance]? .notFound
    fcAssert (o.owner = vbo.owner) ""
    let allowed ← vbo.isWithdrawAllowed db.headBlockTime o.amount
    fcAssert allowed ""
    let covered ← o.amount.le vbo.balance
    fcAssert covered "assert ${a} <= ${v} failed"
    let _ ← db.getAccount o.owner
  payFee coreFee db := db.payFee o.owner coreFee
  doApply _ db := do
    let vbo ← orThrow db.vestings[o.vestingBalance]? .notFound
    let left ← vbo.withdraw db.headBlockTime o.amount
    (db.setVesting o.vestingBalance left).adjustBalance o.owner o.amount

end Vesting

section Permissions

/-- `withdraw_permission_object::available_this_period` -/
def WithdrawPermission.availableThisPeriod
    (permit : WithdrawPermission) (currentTime : Time) :
    Except Fault Asset :=
  if permit.periodStartTime + permit.withdrawalPeriodSec ≤ currentTime then
    .ok permit.withdrawalLimit
  else if permit.claimedThisPeriod < permit.withdrawalLimit.amount then do
    let available ←
      share (permit.withdrawalLimit.amount - permit.claimedThisPeriod)
    return ⟨available, permit.withdrawalLimit.assetId⟩
  else
    .ok ⟨0, permit.withdrawalLimit.assetId⟩

def WithdrawPermission.claim
    (permit : WithdrawPermission) (now : Time) (amount : Int) :
    Except Fault WithdrawPermission := do
  let period : Int := permit.withdrawalPeriodSec.toNat
  let periods := (secondsSince now permit.periodStartTime).tdiv period
  let claimed ←
    share (if periods = 0 then permit.claimedThisPeriod + amount else amount)
  return { permit with
    periodStartTime :=
      permit.periodStartTime + UInt32.ofInt (periods * period)
    claimedThisPeriod := claimed }

def withdrawPermissionCreateEvaluator
    (required : Option Int) (o : WithdrawPermissionCreateOperation) :
    Evaluator where
  feePayer := o.withdrawFromAccount
  fee := o.fee
  requiredFee := required
  doEvaluate db := do
    fcAssert (o.withdrawFromAccount < db.accounts.length) ""
    fcAssert (o.authorizedAccount < db.accounts.length) ""
    fcAssert (o.withdrawalLimit.assetId < db.assets.length) ""
    fcAssert (o.periodStartTime > db.headBlockTime) ""
    fcAssert
      (o.periodStartTime + o.periodsUntilExpiration * o.withdrawalPeriodSec
        > db.headBlockTime) ""
    fcAssert
      (db.parameters.blockInterval.toNat ≤ o.withdrawalPeriodSec.toNat) ""
  payFee coreFee db := db.payFee o.withdrawFromAccount coreFee
  doApply _ db :=
    .ok { db with
      permissions := db.permissions ++ [{
        id := db.nextPermissionId
        withdrawFromAccount := o.withdrawFromAccount
        authorizedAccount := o.authorizedAccount
        withdrawalLimit := o.withdrawalLimit
        withdrawalPeriodSec := o.withdrawalPeriodSec
        periodStartTime := o.periodStartTime
        expiration :=
          o.periodStartTime + o.periodsUntilExpiration * o.withdrawalPeriodSec
        claimedThisPeriod := 0 }]
      nextPermissionId := db.nextPermissionId + 1 }

def withdrawPermissionClaimEvaluator
    (required : Option Int) (o : WithdrawPermissionClaimOperation) :
    Evaluator where
  feePayer := o.withdrawToAccount
  fee := o.fee
  requiredFee := required
  doEvaluate db := do
    let permit ←
      orThrow (db.permissions.find? (·.id == o.withdrawPermission)) .notFound
    fcAssert (permit.expiration > db.headBlockTime) ""
    fcAssert (permit.authorizedAccount = o.withdrawToAccount) ""
    fcAssert (permit.withdrawFromAccount = o.withdrawFromAccount) ""
    let available ← permit.availableThisPeriod db.headBlockTime
    let within ← o.amountToWithdraw.le available
    fcAssert within ""
    fcAssert
      (o.amountToWithdraw.amount ≤
        (db.getBalance o.withdrawFromAccount
          o.amountToWithdraw.assetId).amount) ""
    let a ← db.getAsset o.amountToWithdraw.assetId
    fcAssert
      (a.isTransferRestricted →
        a.issuer = permit.authorizedAccount ∨
          a.issuer = permit.withdrawFromAccount) ""
    let source ← db.getAccount o.withdrawToAccount
    let target ← db.getAccount permit.authorizedAccount
    fcAssert (isAuthorizedAsset db target o.amountToWithdraw.assetId a) ""
    fcAssert (isAuthorizedAsset db source o.amountToWithdraw.assetId a) ""
  payFee coreFee db := db.payFee o.withdrawToAccount coreFee
  doApply _ db := do
    let permit ←
      orThrow (db.permissions.find? (·.id == o.withdrawPermission)) .notFound
    let claimed ← permit.claim db.headBlockTime o.amountToWithdraw.amount
    let noted : Database := { db with
      permissions :=
        replaceFirst (·.id == o.withdrawPermission) claimed db.permissions }
    let db ←
      noted.adjustBalance o.withdrawFromAccount o.amountToWithdraw.neg
    db.adjustBalance o.withdrawToAccount o.amountToWithdraw

def withdrawPermissionUpdateEvaluator
    (required : Option Int) (o : WithdrawPermissionUpdateOperation) :
    Evaluator where
  feePayer := o.withdrawFromAccount
  fee := o.fee
  requiredFee := required
  doEvaluate db := do
    let permit ←
      orThrow (db.permissions.find? (·.id == o.permissionToUpdate)) .notFound
    fcAssert (permit.authorizedAccount = o.authorizedAccount) ""
    fcAssert (permit.withdrawFromAccount = o.withdrawFromAccount) ""
    fcAssert (o.withdrawalLimit.assetId < db.assets.length) ""
    fcAssert (db.headBlockTime ≤ o.periodStartTime) ""
    fcAssert
      (o.periodStartTime + o.periodsUntilExpiration * o.withdrawalPeriodSec
        > db.headBlockTime) ""
    fcAssert
      (db.parameters.blockInterval.toNat ≤ o.withdrawalPeriodSec.toNat) ""
  payFee coreFee db := db.payFee o.withdrawFromAccount coreFee
  doApply _ db := do
    let permit ←
      orThrow (db.permissions.find? (·.id == o.permissionToUpdate)) .notFound
    return { db with
      permissions :=
        replaceFirst (·.id == o.permissionToUpdate)
          { permit with
            periodStartTime := o.periodStartTime
            expiration :=
              o.periodStartTime
                + o.periodsUntilExpiration * o.withdrawalPeriodSec
            withdrawalLimit := o.withdrawalLimit
            withdrawalPeriodSec := o.withdrawalPeriodSec } db.permissions }

def withdrawPermissionDeleteEvaluator
    (required : Option Int) (o : WithdrawPermissionDeleteOperation) :
    Evaluator where
  feePayer := o.withdrawFromAccount
  fee := o.fee
  requiredFee := required
  doEvaluate db := do
    let permit ←
      orThrow (db.permissions.find? (·.id == o.withdrawalPermission)) .notFound
    fcAssert (permit.authorizedAccount = o.authorizedAccount) ""
    fcAssert (permit.withdrawFromAccount = o.withdrawFromAccount) ""
  payFee coreFee db := db.payFee o.withdrawFromAccount coreFee
  doApply _ db :=
    .ok { db with
      permissions := db.permissions.eraseP (·.id == o.withdrawalPermission) }

end Permissions

section Confidential

def fbaAccumulatorIdTransferToBlind : Nat :=
  0

def fbaAccumulatorIdBlindTransfer : Nat :=
  1

def fbaAccumulatorIdTransferFromBlind : Nat :=
  2

/-- `pay_fee` of the three confidential evaluators. -/
def payBlindFee
    (fbaId : Nat) (payer : AccountId) (coreFee : Int) (db : Database) :
    Except Fault Database :=
  if HARDFORK_563_TIME ≤ db.headBlockTime then
    db.payFbaFee fbaId payer coreFee
  else
    db.payFee payer coreFee

/-- Create the blinded balances; a commitment is there at most once. -/
def createBlinded
    (assetId : AssetId) (outputs : List BlindOutput) (db : Database) :
    Except Fault Database :=
  outputs.foldlM
    (fun db out => do
      fcAssert (db.blindedBalances.all (·.commitment ≠ out.commitment))
        "Could not create object!"
      return { db with
        blindedBalances :=
          db.blindedBalances ++ [⟨out.commitment, assetId, out.owner⟩] })
    db

def removeBlinded (inputs : List BlindInput) (db : Database) :
    Except Fault Database :=
  inputs.foldlM
    (fun db input => do
      fcAssert
        (db.blindedBalances.any (·.commitment == input.commitment)) ""
      return { db with
        blindedBalances :=
          db.blindedBalances.eraseP (·.commitment == input.commitment) })
    db

/-- Every input is a blinded balance of the asset with the stated owner. -/
def checkInputs
    (assetId : AssetId) (inputs : List BlindInput) (db : Database) :
    Except Fault Unit :=
  inputs.forM fun input => do
    let b ←
      orThrow
        (db.blindedBalances.find? (·.commitment == input.commitment)) .notFound
    fcAssert (b.assetId = assetId) ""
    fcAssert (b.owner = input.owner) ""

def addConfidential (assetId : AssetId) (amount : Int) (db : Database) :
    Except Fault Database :=
  db.modifyDynamicData assetId fun d => do
    let confidentialSupply ← share (d.confidentialSupply + amount)
    fcAssert (0 ≤ confidentialSupply) ""
    return { d with confidentialSupply := confidentialSupply }

def transferToBlindEvaluator
    (required : Option Int) (o : TransferToBlindOperation) :
    Evaluator where
  feePayer := o.source
  fee := o.fee
  requiredFee := required
  doEvaluate db := do
    let a ← db.getAsset o.amount.assetId
    fcAssert a.allowConfidential ""
    fcAssert (!a.isTransferRestricted) ""
    fcAssert (a.options.flags &&& whiteList = 0) ""
    fcAssert
      (o.outputs.all fun out =>
        out.ownerAccounts.all (· < db.accounts.length)) ""
  payFee := payBlindFee fbaAccumulatorIdTransferToBlind o.source
  doApply _ db := do
    let db ← db.adjustBalance o.source o.amount.neg
    let db ← addConfidential o.amount.assetId o.amount.amount db
    createBlinded o.amount.assetId o.outputs db

def transferFromBlindEvaluator
    (required : Option Int) (o : TransferFromBlindOperation) :
    Evaluator where
  feePayer := GRAPHENE_TEMP_ACCOUNT
  fee := o.fee
  requiredFee := required
  doEvaluate db := do
    let _ ← db.getAsset o.fee.assetId
    checkInputs o.fee.assetId o.inputs db
  payFee := payBlindFee fbaAccumulatorIdTransferFromBlind GRAPHENE_TEMP_ACCOUNT
  doApply _ db := do
    let db ← db.adjustBalance GRAPHENE_TEMP_ACCOUNT o.fee
    let db ← db.adjustBalance o.target o.amount
    let db ← removeBlinded o.inputs db
    addConfidential o.amount.assetId (-(o.amount.amount + o.fee.amount)) db

def blindTransferEvaluator
    (required : Option Int) (o : BlindTransferOperation) :
    Evaluator where
  feePayer := GRAPHENE_TEMP_ACCOUNT
  fee := o.fee
  requiredFee := required
  doEvaluate db := do
    let _ ← db.getAsset o.fee.assetId
    fcAssert
      (o.outputs.all fun out =>
        out.ownerAccounts.all (· < db.accounts.length)) ""
    checkInputs o.fee.assetId o.inputs db
  payFee := payBlindFee fbaAccumulatorIdBlindTransfer GRAPHENE_TEMP_ACCOUNT
  doApply _ db := do
    let db ← db.adjustBalance GRAPHENE_TEMP_ACCOUNT o.fee
    let db ← removeBlinded o.inputs db
    let db ← createBlinded o.fee.assetId o.outputs db
    addConfidential o.fee.assetId (-o.fee.amount) db

end Confidential

section Locks

def LOCKED_BALANCE_EXPIRED_TIME : Int :=
  30

def GRAPHENE_MAX_ACCOUNT_NAME_LENGTH : Nat :=
  63

/-- The difference of two times as an `int32_t`. -/
def int32Difference (later earlier : Time) : Int :=
  (later - earlier).toInt32.toInt

def balanceLockEvaluator (required : Option Int) (o : BalanceLockOperation) :
    Evaluator where
  feePayer := o.account
  fee := o.fee
  requiredFee := required
  doEvaluate db := do
    fcAssert (o.amount.assetId = GRAPHENE_GXS_ASSET) "lock asset must be GXS"
    fcAssert
      (o.amount.amount ≤ (db.getBalance o.account GRAPHENE_GXS_ASSET).amount)
      "account balance not enough"
    fcAssert ((GRAPHENE_BLOCKCHAIN_PRECISION : Int) ≤ o.amount.amount)
      "lock amount must > 1"
    fcAssert (o.memo.utf8ByteSize ≤ GRAPHENE_MAX_ACCOUNT_NAME_LENGTH)
      "memo too long"
    fcAssert (db.parameters.lockBalanceParams ≠ []) "no lock balance params"
    let param ←
      orThrow
        (db.parameters.lockBalanceParams.find? (·.1 == o.programId))
        (.assertion "program_id invalid")
    fcAssert param.2.isValid "program_id offline"
    fcAssert (param.2.interestRate = o.interestRate)
      "input interest_rate invalid"
    fcAssert (param.2.lockDays = o.lockDays) "input lock days invalid"
    fcAssert
      (|int32Difference o.createDateTime db.headBlockTime|
        ≤ LOCKED_BALANCE_EXPIRED_TIME)
      "create_date_time invalid"
  payFee coreFee db := db.payFee o.account coreFee
  doApply _ db :=
    let locked : Database := { db with
      locks := db.locks ++ [{
        id := db.nextLockId
        owner := o.account
        createDateTime := o.createDateTime
        lockDays := o.lockDays
        programId := o.programId
        amount := o.amount
        interestRate := o.interestRate.toUInt16
        memo := o.memo }]
      nextLockId := db.nextLockId + 1 }
    locked.adjustBalance o.account o.amount.neg

def balanceUnlockEvaluator
    (required : Option Int) (o : BalanceUnlockOperation) :
    Evaluator where
  feePayer := o.account
  fee := o.fee
  requiredFee := required
  doEvaluate db := do
    let lock ←
      orThrow (db.locks.find? (·.id == o.lockId))
        (.assertion "lock_id not found, lock_id ${p}")
    fcAssert (lock.owner = o.account) "account not owner"
    let pastDays := (db.headBlockTime - lock.createDateTime) / SECONDS_PER_DAY
    fcAssert (lock.lockDays ≤ pastDays) "unlock timepoint has not arrived yet"
  payFee coreFee db := db.payFee o.account coreFee
  doApply _ db := do
    let lock ← orThrow (db.locks.find? (·.id == o.lockId)) .notFound
    let db ← db.adjustBalance o.account lock.amount
    return { db with locks := db.locks.eraseP (·.id == o.lockId) }

end Locks

end GxbCore.Ledger
