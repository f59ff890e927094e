import GxbCore.Ledger.Fees

/-!
# The pledges of trust nodes

Whoever is a witness or a committee member pledges an amount that the committee
sets.  Creating and updating either, setting a commission and lifting a ban all
bring the pledge to the amount required now, from or to the balance of the
account; a withdrawal puts it into a vesting balance and makes both roles
invalid.

The helper that the evaluators share hands over what was found from
`do_evaluate` to `do_apply` in static members.  They outlive the operation, also
one that throws, and are therefore part of the state here.
-/

namespace GxbCore.Ledger

open Database

abbrev CommitteeMemberId := Nat

/-- The static members of `trust_node_pledge_helper`.  A pointer to a pledge is
the account it belongs to. -/
structure PledgeHelper where
  pledgeObjectExist : Bool
  pledgeObjPtr : Option AccountId
  witnessObjPtr : Option WitnessId
  committeeObjPtr : Option CommitteeMemberId
  pledgeToCharge : Asset
  deriving DecidableEq, Repr

namespace PledgeHelper

def reset : PledgeHelper :=
  ⟨false, none, none, none, ⟨0, 1⟩⟩

end PledgeHelper

/-- What an evaluation leaves in the static members, and whether it throws. -/
abbrev Evaluation := PledgeHelper × Except Fault Unit

def Evaluation.unless (before : PledgeHelper) (check : Except Fault Unit)
    (rest : Evaluation) : Evaluation :=
  match check with
  | .error fault => (before, .error fault)
  | .ok _ => rest

/-- A check that comes after it. -/
def Evaluation.andThen (first : Evaluation) (check : Except Fault Unit) :
    Evaluation :=
  (first.1, first.2.bind fun _ => check)

section Operations

structure WitnessCreateOperation where
  fee : Asset
  witnessAccount : AccountId
  deriving DecidableEq, Repr

structure WitnessUpdateOperation where
  fee : Asset
  witness : WitnessId
  witnessAccount : AccountId
  deriving DecidableEq, Repr

structure WitnessSetCommissionOperation where
  fee : Asset
  witness : WitnessId
  witnessAccount : AccountId
  commissionRate : UInt32
  deriving DecidableEq, Repr

structure WitnessUnbannedOperation where
  fee : Asset
  witness : WitnessId
  witnessAccount : AccountId
  deriving DecidableEq, Repr

structure TrustNodePledgeWithdrawOperation where
  fee : Asset
  witnessAccount : AccountId
  deriving DecidableEq, Repr

structure CommitteeMemberCreateOperation where
  fee : Asset
  committeeMemberAccount : AccountId
  deriving DecidableEq, Repr

structure CommitteeMemberUpdateOperation where
  fee : Asset
  committeeMember : CommitteeMemberId
  committeeMemberAccount : AccountId
  deriving DecidableEq, Repr

/-- The operations that the helper serves. -/
inductive TrustNodeOperation where
  | witnessCreate (op : WitnessCreateOperation)
  | witnessUpdate (op : WitnessUpdateOperation)
  | witnessSetCommission (op : WitnessSetCommissionOperation)
  | witnessUnbanned (op : WitnessUnbannedOperation)
  | pledgeWithdraw (op : TrustNodePledgeWithdrawOperation)
  | committeeMemberCreate (op : CommitteeMemberCreateOperation)
  | committeeMemberUpdate (op : CommitteeMemberUpdateOperation)
  deriving DecidableEq, Repr

def TrustNodeOperation.fee : TrustNodeOperation → Asset
  | witnessCreate op => op.fee
  | witnessUpdate op => op.fee
  | witnessSetCommission op => op.fee
  | witnessUnbanned op => op.fee
  | pledgeWithdraw op => op.fee
  | committeeMemberCreate op => op.fee
  | committeeMemberUpdate op => op.fee

/-- The account of the operation, which is also its `fee_payer`. -/
def TrustNodeOperation.account : TrustNodeOperation → AccountId
  | witnessCreate op => op.witnessAccount
  | witnessUpdate op => op.witnessAccount
  | witnessSetCommission op => op.witnessAccount
  | witnessUnbanned op => op.witnessAccount
  | pledgeWithdraw op => op.witnessAccount
  | committeeMemberCreate op => op.committeeMemberAccount
  | committeeMemberUpdate op => op.committeeMemberAccount

end Operations

namespace Database

def isPledgeOf (account : AccountId) (p : TrustNodePledge) : Bool :=
  p.ownerAccount == account

def isWitnessOf (account : AccountId) (w : Witness) : Bool :=
  w.witnessAccount == account

def isMemberOf (account : AccountId) (m : CommitteeMember) : Bool :=
  m.committeeMemberAccount == account

def getCommitteeMember (db : Database) (id : CommitteeMemberId) :
    Except Fault CommitteeMember :=
  orThrow db.committeeMembers[id]? .notFound

def setCommitteeMember (db : Database) (id : CommitteeMemberId)
    (m : CommitteeMember) : Database :=
  { db with committeeMembers := db.committeeMembers.set id m }

/-- `create<trust_node_pledge_object>` -/
def createPledge (db : Database) (p : TrustNodePledge) :
    Except Fault Database := do
  fcAssert ((db.pledges.find? (isPledgeOf p.ownerAccount)).isNone = true)
    "Could not create object! Most likely a uniqueness constraint is violated."
  return { db with pledges := db.pledges ++ [p] }

/-- `create<witness_object>` -/
def createWitness (db : Database) (w : Witness) : Except Fault Database := do
  fcAssert ((db.witnesses.find? (isWitnessOf w.witnessAccount)).isNone = true)
    "Could not create object! Most likely a uniqueness constraint is violated."
  return { db with witnesses := db.witnesses ++ [w] }

/-- `create<committee_member_object>` -/
def createCommitteeMember (db : Database) (m : CommitteeMember) :
    Except Fault Database := do
  fcAssert
    ((db.committeeMembers.find?
      (isMemberOf m.committeeMemberAccount)).isNone = true)
    "Could not create object! Most likely a uniqueness constraint is violated."
  return { db with committeeMembers := db.committeeMembers ++ [m] }

end Database

namespace PledgeHelper

/-- The last check of `do_evaluate`. -/
def enough (db : Database) (account : AccountId) (charge : Asset) :
    Except Fault Unit := do
  if charge.amount ≤ 0 then
    return
  else
    let covered ← charge.le (db.getBalance account 1)
    fcAssert (covered = true) "account balance not enough"

/-- `do_evaluate` for an account, after the `reset`. -/
def evaluateAccount (db : Database) (account : AccountId) : Evaluation :=
  let pledgeNeeded := db.parameters.trustNodePledge
  if 0 ≤ pledgeNeeded then
    match db.pledges.find? (isPledgeOf account) with
    | none =>
        let left := { reset with pledgeToCharge := ⟨pledgeNeeded, 1⟩ }
        (left, enough db account left.pledgeToCharge)
    | some pledge =>
        let left := { reset with pledgeObjectExist := true }
        match Asset.minus ⟨pledgeNeeded, 1⟩ pledge.amount with
        | .error fault => (left, .error fault)
        | .ok charge =>
            let left :=
              { left with
                pledgeToCharge := charge
                pledgeObjPtr := some pledge.ownerAccount }
            (left, enough db account left.pledgeToCharge)
  else
    (reset, .error (.assertion "trust node pledge must >= 0"))

/-- `do_apply` for an account. -/
def applyAccount (helper : PledgeHelper) (db : Database)
    (account : AccountId) : Except Fault Database :=
  if helper.pledgeToCharge.amount ≠ 0 then
    if helper.pledgeObjectExist then do
      let pointed ← orThrow helper.pledgeObjPtr .notFound
      let pledge ←
        orThrow (db.pledges.find? (isPledgeOf pointed)) .notFound
      let amount ← pledge.amount.plus helper.pledgeToCharge
      let db := { db with
        pledges :=
          replaceFirst (isPledgeOf pointed) { pledge with amount := amount }
            db.pledges }
      db.adjustBalance account helper.pledgeToCharge.neg
    else do
      let db ← db.createPledge ⟨account, helper.pledgeToCharge⟩
      db.adjustBalance account helper.pledgeToCharge.neg
  else
    .ok db

/-- `do_apply` for a witness that is updated. -/
def applyWitness (helper : PledgeHelper) (db : Database)
    (account : AccountId) (witness : WitnessId) : Except Fault Database := do
  let db ← helper.applyAccount db account
  let w ← db.getWitness witness
  return db.setWitness witness { w with isValid := true }

/-- `do_apply` for a committee member that is updated. -/
def applyCommitteeMember (helper : PledgeHelper) (db : Database)
    (account : AccountId) (member : CommitteeMemberId) :
    Except Fault Database := do
  let db ← helper.applyAccount db account
  let m ← db.getCommitteeMember member
  return db.setCommitteeMember member { m with isValid := true }

/-- `do_evaluate` for a withdrawal. -/
def evaluateWithdraw (db : Database) (account : AccountId) : Evaluation :=
  match db.pledges.find? (isPledgeOf account) with
  | none => (reset, .error (.assertion "have no pledge"))
  | some pledge =>
      let left := { reset with
        pledgeObjPtr := some pledge.ownerAccount
        witnessObjPtr := db.witnesses.findIdx? (isWitnessOf account)
        committeeObjPtr := db.committeeMembers.findIdx? (isMemberOf account) }
      (left,
        fcAssert
          (left.witnessObjPtr.isSome = true ∨
            left.committeeObjPtr.isSome = true)
          "witness and committee of this account not exist")

/-- `modify` through the pointer to the witness, if there is one. -/
def invalidateWitness (helper : PledgeHelper) (db : Database) :
    Except Fault Database :=
  match helper.witnessObjPtr with
  | none => .ok db
  | some id => do
      let w ← db.getWitness id
      return db.setWitness id { w with isValid := false }

def invalidateCommitteeMember (helper : PledgeHelper) (db : Database) :
    Except Fault Database :=
  match helper.committeeObjPtr with
  | none => .ok db
  | some id => do
      let m ← db.getCommitteeMember id
      return db.setCommitteeMember id { m with isValid := false }

/-- `do_apply` for a withdrawal. -/
def applyWithdraw (helper : PledgeHelper) (db : Database)
    (account : AccountId) : Except Fault Database := do
  let pointed ← orThrow helper.pledgeObjPtr .notFound
  let pledge ← orThrow (db.pledges.find? (isPledgeOf pointed)) .notFound
  let (_, db) ←
    db.depositLazyVesting none pledge.amount.amount
      db.parameters.cashbackVestingPeriodSeconds account true
  let db := { db with pledges := db.pledges.eraseP (isPledgeOf pointed) }
  let db ← helper.invalidateWitness db
  helper.invalidateCommitteeMember db

end PledgeHelper

open PledgeHelper

/-- The creation of either role first asks for a lifetime member. -/
def checkLifetimeMember (db : Database) (account : AccountId) :
    Except Fault Unit := do
  let a ← db.getAccount account
  fcAssert (a.isLifetimeMember = true) ""

def checkWitnessAccount (db : Database) (witness : WitnessId)
    (account : AccountId) : Except Fault Unit := do
  let w ← db.getWitness witness
  fcAssert (w.witnessAccount = account) ""

def checkCommitteeMemberAccount (db : Database) (member : CommitteeMemberId)
    (account : AccountId) : Except Fault Unit := do
  let m ← db.getCommitteeMember member
  fcAssert (m.committeeMemberAccount = account) ""

/-- Is the pledge asked for at this time? -/
def afterHardfork1129 (db : Database) : Bool :=
  db.headBlockTime > HARDFORK_1129_TIME

/-- The helper's evaluation where it is made after the hard fork only. -/
def evaluateGated (before : PledgeHelper) (db : Database)
    (account : AccountId) : Evaluation :=
  if afterHardfork1129 db then evaluateAccount db account
  else (before, .ok ())

namespace WitnessCreateOperation

def doEvaluate (op : WitnessCreateOperation) (before : PledgeHelper)
    (db : Database) : Evaluation :=
  Evaluation.unless before (checkLifetimeMember db op.witnessAccount)
    (evaluateGated before db op.witnessAccount)

def doApply (op : WitnessCreateOperation) (helper : PledgeHelper)
    (db : Database) : Except Fault Database := do
  let voteId := db.nextAvailableVoteId
  let db := { db with nextAvailableVoteId := voteId + 1 }
  let db ← db.createWitness {
    witnessAccount := op.witnessAccount
    payVb := none
    voteId := voteId
    totalMissed := 0
    previousMissed := 0
    isValid := true
    isBanned := false
    totalVoteWeights := 0
    voteRewardPool := 0
    commissionRate := 0
    commissionUpdateTime := 0 }
  if afterHardfork1129 db then helper.applyAccount db op.witnessAccount
  else return db

end WitnessCreateOperation

namespace WitnessUpdateOperation

def doEvaluate (op : WitnessUpdateOperation) (before : PledgeHelper)
    (db : Database) : Evaluation :=
  Evaluation.unless before
    (checkWitnessAccount db op.witness op.witnessAccount)
    (evaluateGated before db op.witnessAccount)

/-- The url and the signing key are not part of the model. -/
def doApply (op : WitnessUpdateOperation) (helper : PledgeHelper)
    (db : Database) : Except Fault Database := do
  let _ ← db.getWitness op.witness
  if afterHardfork1129 db then
    helper.applyWitness db op.witnessAccount op.witness
  else return db

end WitnessUpdateOperation

/-- A difference of two 32-bit numbers, as `int32_t`. -/
def int32 (value : Int) : Int :=
  (value + 2 ^ 31) % 2 ^ 32 - 2 ^ 31

/-- The checks of `witness_set_commission` that come after the helper's. -/
def checkCommission (db : Database) (op : WitnessSetCommissionOperation) :
    Except Fault Unit := do
  fcAssert (op.commissionRate ≤ 1000) ""
  let w ← db.getWitness op.witness
  let deltaSeconds := int32 (secondsSince db.headBlockTime w.commissionUpdateTime)
  fcAssert
    (db.parameters.voteParams.setCommissionInterval.toNat ≤
      deltaSeconds.natAbs)
    "the modification time is not yet up"

namespace WitnessSetCommissionOperation

def doEvaluate (op : WitnessSetCommissionOperation) (before : PledgeHelper)
    (db : Database) : Evaluation :=
  Evaluation.unless before
    (checkWitnessAccount db op.witness op.witnessAccount)
    ((evaluateAccount db op.witnessAccount).andThen (checkCommission db op))

def doApply (op : WitnessSetCommissionOperation) (helper : PledgeHelper)
    (db : Database) : Except Fault Database := do
  let w ← db.getWitness op.witness
  let db := db.setWitness op.witness
    { w with
      commissionRate := op.commissionRate
      commissionUpdateTime := db.headBlockTime }
  helper.applyWitness db op.witnessAccount op.witness

end WitnessSetCommissionOperation

/-- The checks of `witness_unbanned`, which come after the helper's. -/
def checkBanned (db : Database) (op : WitnessUnbannedOperation) :
    Except Fault Unit := do
  let w ← db.getWitness op.witness
  fcAssert (w.witnessAccount = op.witnessAccount) ""
  fcAssert (w.isBanned = true) ""

namespace WitnessUnbannedOperation

def doEvaluate (op : WitnessUnbannedOperation) (db : Database) : Evaluation :=
  (evaluateAccount db op.witnessAccount).andThen (checkBanned db op)

def doApply (op : WitnessUnbannedOperation) (helper : PledgeHelper)
    (db : Database) : Except Fault Database := do
  let w ← db.getWitness op.witness
  let db := db.setWitness op.witness
    { w with previousMissed := w.totalMissed, isBanned := false }
  helper.applyWitness db op.witnessAccount op.witness

end WitnessUnbannedOperation

namespace CommitteeMemberCreateOperation

def doEvaluate (op : CommitteeMemberCreateOperation) (before : PledgeHelper)
    (db : Database) : Evaluation :=
  Evaluation.unless before (checkLifetimeMember db op.committeeMemberAccount)
    (evaluateGated before db op.committeeMemberAccount)

def doApply (op : CommitteeMemberCreateOperation) (helper : PledgeHelper)
    (db : Database) : Except Fault Database := do
  let voteId := db.nextAvailableVoteId
  let db := { db with nextAvailableVoteId := voteId + 1 }
  let db ← db.createCommitteeMember {
    committeeMemberAccount := op.committeeMemberAccount
    voteId := voteId
    isValid := true }
  if afterHardfork1129 db then
    helper.applyAccount db op.committeeMemberAccount
  else return db

end CommitteeMemberCreateOperation

namespace CommitteeMemberUpdateOperation

def doEvaluate (op : CommitteeMemberUpdateOperation) (before : PledgeHelper)
    (db : Database) : Evaluation :=
  Evaluation.unless before
    (checkCommitteeMemberAccount db op.committeeMember
      op.committeeMemberAccount)
    (evaluateGated before db op.committeeMemberAccount)

/-- The url is not part of the model. -/
def doApply (op : CommitteeMemberUpdateOperation) (helper : PledgeHelper)
    (db : Database) : Except Fault Database := do
  let _ ← db.getCommitteeMember op.committeeMember
  if afterHardfork1129 db then
    helper.applyCommitteeMember db op.committeeMemberAccount
      op.committeeMember
  else return db

end CommitteeMemberUpdateOperation

namespace TrustNodeOperation

/-- `do_evaluate`, with the static members as they were before. -/
def doEvaluate (op : TrustNodeOperation) (before : PledgeHelper)
    (db : Database) : Evaluation :=
  match op with
  | witnessCreate op => op.doEvaluate before db
  | witnessUpdate op => op.doEvaluate before db
  | witnessSetCommission op => op.doEvaluate before db
  | witnessUnbanned op => op.doEvaluate db
  | pledgeWithdraw op => evaluateWithdraw db op.witnessAccount
  | committeeMemberCreate op => op.doEvaluate before db
  | committeeMemberUpdate op => op.doEvaluate before db

/-- `do_apply`, with the static members as the evaluation left them. -/
def doApply (op : TrustNodeOperation) (helper : PledgeHelper)
    (db : Database) : Except Fault Database :=
  match op with
  | witnessCreate op => op.doApply helper db
  | witnessUpdate op => op.doApply helper db
  | witnessSetCommission op => op.doApply helper db
  | witnessUnbanned op => op.doApply helper db
  | pledgeWithdraw op => helper.applyWithdraw db op.witnessAccount
  | committeeMemberCreate op => op.doApply helper db
  | committeeMemberUpdate op => op.doApply helper db

/-- The evaluator of the operation in a state of the static members and the
database. -/
def evaluator (op : TrustNodeOperation) (requiredFee : Option Int)
    (before : PledgeHelper) (db : Database) : Evaluator where
  feePayer := op.account
  fee := op.fee
  requiredFee := requiredFee
  doEvaluate _ := (op.doEvaluate before db).2
  payFee coreFee paying := paying.payFee op.account coreFee
  doApply _ paid := op.doApply (op.doEvaluate before db).1 paid

def run (op : TrustNodeOperation) (requiredFee : Option Int)
    (before : PledgeHelper) (db : Database) : Except Fault Database :=
  (op.evaluator requiredFee before db).run db

end TrustNodeOperation

end GxbCore.Ledger
