import GxbCore.Ledger.Fees

/-!
# Transfers

The four operations that move a balance from one account to another.
-/

namespace GxbCore.Ledger

open Database

section Operations

structure TransferOperation where
  fee : Asset
  source : AccountId
  target : AccountId
  amount : Asset
  deriving DecidableEq, Repr

structure OverrideTransferOperation where
  fee : Asset
  issuer : AccountId
  source : AccountId
  target : AccountId
  amount : Asset
  deriving DecidableEq, Repr

structure InlineTransferOperation where
  fee : Asset
  source : AccountId
  target : AccountId
  amount : Asset
  memo : String
  deriving DecidableEq, Repr

structure ProxyTransferParams where
  source : AccountId
  target : AccountId
  proxyAccount : AccountId
  percentage : Nat
  amount : Asset
  memo : String
  expiration : Time
  signatures : List Nat
  deriving DecidableEq, Repr

structure ProxyTransferOperation where
  proxyMemo : String
  fee : Asset
  requestParams : ProxyTransferParams
  deriving DecidableEq, Repr

def TransferOperation.validate (o : TransferOperation) :
    Except Fault Unit := do
  fcAssert (0 ≤ o.fee.amount) ""
  fcAssert (o.source ≠ o.target) ""
  fcAssert (0 < o.amount.amount) ""

def OverrideTransferOperation.validate (o : OverrideTransferOperation) :
    Except Fault Unit := do
  fcAssert (0 ≤ o.fee.amount) ""
  fcAssert (o.source ≠ o.target) ""
  fcAssert (0 < o.amount.amount) ""
  fcAssert (o.issuer ≠ o.source) ""

def InlineTransferOperation.validate (o : InlineTransferOperation) :
    Except Fault Unit := do
  fcAssert (0 ≤ o.fee.amount) ""
  fcAssert (o.source ≠ o.target) ""
  fcAssert (0 < o.amount.amount) ""

def ProxyTransferOperation.validate (o : ProxyTransferOperation) :
    Except Fault Unit := do
  fcAssert (0 ≤ o.fee.amount) ""
  fcAssert (0 ≤ o.requestParams.amount.amount) ""
  fcAssert (0 < o.proxyMemo.utf8ByteSize) ""
  fcAssert (o.requestParams.percentage ≤ GRAPHENE_100_PERCENT) ""
  fcAssert (o.requestParams.source ≠ o.requestParams.target) ""

end Operations

/-- Pay a balance of one account to another. -/
def moveBalance
    (source target : AccountId) (amount : Asset) (db : Database) :
    Except Fault Database := do
  let db ← db.adjustBalance source amount.neg
  db.adjustBalance target amount

/-- The asset may be moved between the two accounts. -/
def checkWhitelisted
    (source target : AccountId) (asset : AssetId) (db : Database) :
    Except Fault Unit := do
  let fromAccount ← db.getAccount source
  let toAccount ← db.getAccount target
  let assetType ← db.getAsset asset
  fcAssert (isAuthorizedAsset db fromAccount asset assetType)
    "'from' account ${from} is not whitelisted for asset ${asset}"
  fcAssert (isAuthorizedAsset db toAccount asset assetType)
    "'to' account ${to} is not whitelisted for asset ${asset}"
  fcAssert
    (assetType.isTransferRestricted →
      source = assetType.issuer ∨ target = assetType.issuer)
    "Asset ${asset} has transfer_restricted flag enabled"

def checkBalance
    (source : AccountId) (amount : Asset) (db : Database) :
    Except Fault Unit :=
  fcAssert (amount.amount ≤ (db.getBalance source amount.assetId).amount)
    "Insufficient Balance: ${balance}, unable to transfer '${total_transfer}' from account '${a}' to '${t}'"

def transferEvaluator (required : Option Int) (o : TransferOperation) :
    Evaluator where
  feePayer := o.source
  fee := o.fee
  requiredFee := required
  doEvaluate db := do
    checkWhitelisted o.source o.target o.amount.assetId db
    let toAccount ← db.getAccount o.target
    fcAssert (db.headBlockTime ≤ HARDFORK_1019_TIME → toAccount.isContractAccount)
      "the account '${to}' is a contract account"
    checkBalance o.source o.amount db
  payFee coreFee db := db.payFee o.source coreFee
  doApply _ := moveBalance o.source o.target o.amount

def overrideTransferEvaluator
    (required : Option Int) (o : OverrideTransferOperation) :
    Evaluator where
  feePayer := o.issuer
  fee := o.fee
  requiredFee := required
  doEvaluate db := do
    let assetType ← db.getAsset o.amount.assetId
    fcAssert assetType.canOverride
      "override_transfer not permitted for asset ${asset}"
    fcAssert (assetType.issuer = o.issuer) ""
    let fromAccount ← db.getAccount o.source
    let toAccount ← db.getAccount o.target
    fcAssert (isAuthorizedAsset db toAccount o.amount.assetId assetType) ""
    fcAssert (isAuthorizedAsset db fromAccount o.amount.assetId assetType) ""
    fcAssert
      (o.amount.amount ≤ (db.getBalance o.source o.amount.assetId).amount) ""
  payFee coreFee db := db.payFee o.issuer coreFee
  doApply _ := moveBalance o.source o.target o.amount

def inlineTransferEvaluator
    (required : Option Int) (o : InlineTransferOperation) :
    Evaluator where
  feePayer := o.source
  fee := o.fee
  requiredFee := required
  doEvaluate db := do
    let _ ← db.getAccount o.source
    let _ ← db.getAccount o.target
    let _ ← db.getAsset o.amount.assetId
    checkBalance o.source o.amount db
  payFee coreFee db := db.payFee o.source coreFee
  doApply _ := moveBalance o.source o.target o.amount

def MAX_OP_STRING_LENGTH : Nat :=
  100

/-- `proxy_transfer_evaluator`; `verify` is
`verify_proxy_transfer_signature`. -/
def proxyTransferEvaluator
    (verify : ProxyTransferParams → Nat → Bool) (required : Option Int)
    (o : ProxyTransferOperation) :
    Evaluator where
  feePayer := o.requestParams.proxyAccount
  fee := o.fee
  requiredFee := required
  doEvaluate db := do
    fcAssert (o.proxyMemo.utf8ByteSize < MAX_OP_STRING_LENGTH)
      "proxy_memo ${r} too long, exceeds 100 bytes"
    fcAssert (o.requestParams.memo.utf8ByteSize < MAX_OP_STRING_LENGTH)
      "memo ${r} too long, exceeds 100 bytes"
    fcAssert
      (o.requestParams.expiration
          ≤ db.headBlockTime + db.parameters.maximumTimeUntilExpiration ∧
        o.requestParams.expiration > db.headBlockTime)
      "user request param expiration invalid, ${e}"
    let fromAccount ← db.getAccount o.requestParams.source
    let signature ←
      orThrow o.requestParams.signatures[0]? (.assertion "no signatures")
    fcAssert (fromAccount.activeKeys.length = 1)
      "do not support multisig acount, account ${a}"
    let key ← orThrow fromAccount.activeKeys[0]? .notFound
    fcAssert (verify o.requestParams key) "verify user signature error"
    fcAssert (db.signatures.all (·.signature ≠ signature))
      "user request signature already used once! signature ${s}"
    checkWhitelisted o.requestParams.source o.requestParams.target
      o.requestParams.amount.assetId db
    checkBalance o.requestParams.source o.requestParams.amount db
  payFee coreFee db := db.payFee o.requestParams.proxyAccount coreFee
  doApply _ db := do
    let signature ←
      orThrow o.requestParams.signatures[0]? .notFound
    let signed : Database := { db with
      signatures :=
        db.signatures ++
          [SignatureObject.mk signature o.requestParams.expiration] }
    let amount := o.requestParams.amount
    let commission ← cutFee amount.amount o.requestParams.percentage
    let delta ← share (amount.amount - commission)
    let db ← signed.adjustBalance o.requestParams.source amount.neg
    let db ← db.adjustBalance o.requestParams.target ⟨delta, amount.assetId⟩
    db.adjustBalance o.requestParams.proxyAccount ⟨commission, amount.assetId⟩

section Keeps

variable {core : AssetId} {db after : Database} {required : Option Int}

theorem moveBalance_keeps {source target : AccountId} {amount : Asset}
    (returns : moveBalance source target amount db = .ok after) :
    Moves core db after 0 ∧ Keeps core db after := by
  obtain ⟨middle, taken, given⟩ := bind_eq_ok.mp returns
  constructor
  · refine ((adjustBalance_moves taken).trans
      (adjustBalance_moves given)).congr ?_
    intro id
    simp [Asset.neg, inAsset_neg]
  · intro sound
    exact adjustBalance_keeps given (adjustBalance_keeps taken sound)

theorem transfer_keeps {o : TransferOperation}
    (isCore : db.currentCoreAssetId = core)
    (returns : (transferEvaluator required o).run db = .ok after) :
    Moves core db after 0 ∧ Keeps core db after := by
  apply run_keeps (payFee_whole fun _ _ => rfl) isCore _ returns
  intro _ paid applied _ _ applies
  exact moveBalance_keeps applies

theorem overrideTransfer_keeps {o : OverrideTransferOperation}
    (isCore : db.currentCoreAssetId = core)
    (returns : (overrideTransferEvaluator required o).run db = .ok after) :
    Moves core db after 0 ∧ Keeps core db after := by
  apply run_keeps (payFee_whole fun _ _ => rfl) isCore _ returns
  intro _ paid applied _ _ applies
  exact moveBalance_keeps applies

theorem inlineTransfer_keeps {o : InlineTransferOperation}
    (isCore : db.currentCoreAssetId = core)
    (returns : (inlineTransferEvaluator required o).run db = .ok after) :
    Moves core db after 0 ∧ Keeps core db after := by
  apply run_keeps (payFee_whole fun _ _ => rfl) isCore _ returns
  intro _ paid applied _ _ applies
  exact moveBalance_keeps applies

theorem proxyTransfer_keeps {verify : ProxyTransferParams → Nat → Bool}
    {o : ProxyTransferOperation} (isCore : db.currentCoreAssetId = core)
    (returns : (proxyTransferEvaluator verify required o).run db = .ok after) :
    Moves core db after 0 ∧ Keeps core db after := by
  apply run_keeps (payFee_whole fun _ _ => rfl) isCore _ returns
  intro _ paid applied _ _ applies
  simp only [proxyTransferEvaluator, bind_eq_ok, orThrow_eq_ok] at applies
  obtain ⟨signature, _, commission, _, delta, checked, first, taken, second,
    given, shared⟩ := applies
  have signed :
      Moves core paid
        { paid with
          signatures :=
            paid.signatures ++
              [⟨signature, o.requestParams.expiration⟩] } 0 :=
    ⟨rfl, fun id => by simp [surplus, held, coreHeld, fbaHeld]⟩
  constructor
  · refine (((signed.trans (adjustBalance_moves taken)).trans
      (adjustBalance_moves given)).trans
        (adjustBalance_moves shared)).congr ?_
    intro id
    rw [eq_of_share checked]
    simp only [Pi.add_apply, Pi.zero_apply, Asset.neg, inAsset_neg,
      inAsset_sub]
    omega
  · intro sound
    apply adjustBalance_keeps shared
    apply adjustBalance_keeps given
    apply adjustBalance_keeps taken
    exact { sound with }

end Keeps

end GxbCore.Ledger
