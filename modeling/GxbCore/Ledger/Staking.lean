import Mathlib.Data.List.Sort
import GxbCore.Ledger.Fees

/-!
# Staking

Holders of the core asset stake it for a witness they trust.  The stake counts
for the witness, with the weight of the program it was made under, until it
expires.  The maintenance pays the reward pool to the witnesses by the weight of
their votes, a part of it to those who staked, and takes the expired stakes out
of the count.
-/

namespace GxbCore.Ledger

open Database

section Operations

structure StakingCreateOperation where
  fee : Asset
  owner : AccountId
  trustNode : WitnessId
  amount : Asset
  programId : String
  weight : UInt32
  stakingDays : UInt32
  deriving DecidableEq, Repr

structure StakingUpdateOperation where
  fee : Asset
  owner : AccountId
  trustNode : WitnessId
  stakingId : Nat
  deriving DecidableEq, Repr

structure StakingClaimOperation where
  fee : Asset
  owner : AccountId
  stakingId : Nat
  deriving DecidableEq, Repr

end Operations

/-- `amount * weight` of a stake. -/
def Staking.voteWeights (s : Staking) : Int :=
  s.amount.amount * s.weight.toNat

/-- The stake has run its days: `staking_days * SECONDS_PER_DAY` is less than
the seconds since it was made. -/
def Staking.hasEnded (s : Staking) (now : Time) : Bool :=
  s.stakingDays * SECONDS_PER_DAY < now - s.createDateTime

namespace Database

def findStaking (db : Database) (id : Nat) : Option Staking :=
  db.stakings.find? (·.id == id)

/-- `modify` on a staking object. -/
def setStaking (db : Database) (s : Staking) : Database :=
  { db with stakings := replaceFirst (·.id == s.id) s db.stakings }

/-- `obj.total_vote_weights += weights` -/
def addVoteWeights (db : Database) (wit : WitnessId) (weights : Int) :
    Except Fault Database := do
  let witness ← db.getWitness wit
  let totalVoteWeights ← share (witness.totalVoteWeights + weights)
  return db.setWitness wit { witness with totalVoteWeights := totalVoteWeights }

def reduceVoteWeights (db : Database) (wit : WitnessId) (s : Staking) :
    Except Fault Database := do
  let witness ← db.getWitness wit
  let totalVoteWeights ← share s.voteWeights
  let left ←
    share (witness.totalVoteWeights
      - min totalVoteWeights witness.totalVoteWeights)
  return db.setWitness wit { witness with totalVoteWeights := left }

end Database

def checkTrustNode (trustNode : WitnessId) (db : Database) :
    Except Fault Unit := do
  let wit ←
    orThrow db.witnesses[trustNode]?
      (.assertion "nonexistent trust node account ${id}")
  fcAssert wit.isValid "invalid trust node account ${id}"

def stakingCreateEvaluator (required : Option Int)
    (o : StakingCreateOperation) : Evaluator where
  feePayer := o.owner
  fee := o.fee
  requiredFee := required
  doEvaluate db := do
    fcAssert (o.amount.assetId = GRAPHENE_GXS_ASSET)
      "staking asset must be GXC"
    let enough ← o.amount.le (db.getBalance o.owner GRAPHENE_GXS_ASSET)
    fcAssert enough "account balance not enough"
    fcAssert
      (int64 db.parameters.voteParams.minStakingAmount.toNat
        ≤ o.amount.amount)
      "staking amount must > ${amount}"
    fcAssert (db.parameters.stakingParams ≠ []) "no staking weight params"
    let param ←
      orThrow (db.parameters.stakingParams.find? (·.1 == o.programId))
        (.assertion "program_id invalid")
    fcAssert param.2.isValid "program_id offline"
    fcAssert (param.2.weight = o.weight) "input weight invalid"
    fcAssert (param.2.stakingDays = o.stakingDays)
      "input staking days invalid"
    fcAssert
      (db.stakings.countP (·.owner == o.owner)
        < db.parameters.voteParams.maxStakingCount.toNat)
      "mortgages have reached their maximum number"
    checkTrustNode o.trustNode db
  payFee coreFee db := db.payFee o.owner coreFee
  doApply _ db := do
    let created : Database := { db with
      stakings := db.stakings ++ [{
        id := db.nextStakingId
        owner := o.owner
        createDateTime := db.headBlockTime
        stakingDays := o.stakingDays
        weight := o.weight
        programId := o.programId
        amount := o.amount
        trustNode := o.trustNode
        isValid := true }]
      nextStakingId := db.nextStakingId + 1 }
    let db ← created.adjustBalance o.owner o.amount.neg
    let weights ← share (o.amount.amount * o.weight.toNat)
    db.addVoteWeights o.trustNode weights

def stakingUpdateEvaluator (required : Option Int)
    (o : StakingUpdateOperation) : Evaluator where
  feePayer := o.owner
  fee := o.fee
  requiredFee := required
  doEvaluate db := do
    checkTrustNode o.trustNode db
    let staking ←
      orThrow (db.findStaking o.stakingId)
        (.assertion "invalid staking_id ${id}")
    fcAssert
      (db.headBlockTime > HARDFORK_1027_TIME → staking.owner = o.owner)
      "non-staking owners cannot update"
    let previous ←
      orThrow db.witnesses[staking.trustNode]?
        (.assertion "The previous trust node no longer exists, ${id}")
    let weights ← share staking.voteWeights
    fcAssert (weights ≤ previous.totalVoteWeights)
      "An error occurred in the old node-ticket statistics"
    fcAssert
      (db.headBlockTime > HARDFORK_1028_TIME →
        staking.trustNode ≠ o.trustNode)
      "Cannot be updated to the same trust node"
    fcAssert
      (staking.stakingDays * SECONDS_PER_DAY
        > db.headBlockTime - staking.createDateTime)
      "staking expired"
    fcAssert staking.isValid "staking is not valid"
  payFee coreFee db := db.payFee o.owner coreFee
  doApply _ db := do
    let staking ← orThrow (db.findStaking o.stakingId) .notFound
    let product ← share staking.voteWeights
    let updated := db.setStaking { staking with trustNode := o.trustNode }
    let previous ← updated.getWitness staking.trustNode
    let prevVoteWeights := min product previous.totalVoteWeights
    let left ← share (previous.totalVoteWeights - prevVoteWeights)
    let reduced :=
      updated.setWitness staking.trustNode
        { previous with totalVoteWeights := left }
    reduced.addVoteWeights o.trustNode prevVoteWeights

/-- The weights that `staking_claim` takes from the witness when the staking
mode is off. -/
def claimVoteWeights (staking : Staking) (db : Database) :
    Except Fault Database :=
  if db.parameters.voteParams.stakingModeOn = false then
    db.reduceVoteWeights staking.trustNode staking
  else
    .ok db

def stakingClaimEvaluator (required : Option Int)
    (o : StakingClaimOperation) : Evaluator where
  feePayer := o.owner
  fee := o.fee
  requiredFee := required
  doEvaluate db := do
    let staking ←
      orThrow (db.findStaking o.stakingId)
        (.assertion "invalid staking_id ${id}")
    fcAssert
      (db.headBlockTime > HARDFORK_1027_TIME → staking.owner = o.owner)
      "non-staking owners cannot claim"
    fcAssert (staking.hasEnded db.headBlockTime)
      "claim timepoint has not arrived yet"
    fcAssert
      (db.parameters.voteParams.stakingModeOn = true →
        staking.isValid = false)
      "please wait for the dividend to end"
  payFee coreFee db := db.payFee o.owner coreFee
  doApply _ db := do
    let staking ← orThrow (db.findStaking o.stakingId) .notFound
    let reduced ← claimVoteWeights staking db
    let paid ← reduced.adjustBalance staking.owner staking.amount
    return { paid with
      stakings := paid.stakings.eraseP (·.id == o.stakingId) }

namespace Database

def handlingExpiredStaking (db : Database) (s : Staking)
    (witnessId : WitnessId) : Except Fault Database :=
  if s.hasEnded db.headBlockTime ∧ db.witnesses[witnessId]?.isSome then
    (db.setStaking { s with isValid := false }).reduceVoteWeights witnessId s
  else
    .ok db

def checkWitnessAvailable (db : Database) (wit : Witness) : Bool :=
  !wit.isBanned &&
    (decide (wit.totalMissed - wit.previousMissed
      ≤ db.parameters.voteParams.missedBlockLimit.toNat) ||
      decide (wit.previousMissed = 0))

/-- `statistical_vote_weight`: witnesses that missed too many blocks are
banned. -/
def statisticalVoteWeight (db : Database) : Database :=
  { db with
    witnesses := db.witnesses.map fun wit =>
      { wit with
        isBanned := wit.isBanned || !db.checkWitnessAvailable wit
        previousMissed := wit.totalMissed } }

/-- The tally of each witness that `statistical_vote_weight` writes. -/
def voteTally (db : Database) : List Int :=
  db.witnesses.map fun wit =>
    if db.checkWitnessAvailable wit then wit.totalVoteWeights else 0

/-- The order of `sort_votable_objects`: by votes downwards, then by vote id. -/
def votesBefore (db : Database) (tally : List Int) (a b : WitnessId) : Bool :=
  if tally.getD a 0 = tally.getD b 0 then
    (db.witnesses[a]?.map (·.voteId)).getD 0
      ≤ (db.witnesses[b]?.map (·.voteId)).getD 0
  else
    tally.getD a 0 > tally.getD b 0

/-- `sort_votable_objects<witness_index>` -/
def sortVotableWitnesses (db : Database) (tally : List Int) (count : Nat) :
    List WitnessId :=
  ((List.range db.witnesses.length).insertionSort
    fun a b => db.votesBefore tally a b).take count

def rewards (wit : Witness) : Bool :=
  !wit.isBanned && wit.isValid

def rewardTotalWeight (db : Database) (wits : List WitnessId) :
    Except Fault Int :=
  wits.foldlM (fun sum id => do
    let wit ← db.getWitness id
    if rewards wit then share (sum + wit.totalVoteWeights) else return sum) 0

/-- What a witness gets of the pool, before the rest of the pool limits it. -/
def rewardPay (db : Database) (pools totalVoteWeights totalWeight : Int) :
    Except Fault Int :=
  if db.headBlockTime > HARDFORK_1029_TIME then
    .ok (int64 ((pools * totalVoteWeights).tdiv totalWeight))
  else do
    let product ← share (pools * totalVoteWeights)
    share (product.tdiv totalWeight)

/-- One round of the loop that pays the witnesses. -/
def payTrustNode (pools totalWeight : Int) (db : Database) (id : WitnessId) :
    Except Fault Database := do
  let wit ← db.getWitness id
  if rewards wit then
    let rewardPay ← db.rewardPay pools wit.totalVoteWeights totalWeight
    let rewardPay := min rewardPay db.properties.currentStakingRewardPool
    let pool ← share (db.properties.currentStakingRewardPool - rewardPay)
    let db : Database := { db with
      properties := { db.properties with currentStakingRewardPool := pool } }
    let product ← share (rewardPay * wit.commissionRate.toNat)
    let votePay := min rewardPay (product.tdiv 1000)
    let voteRewardPool ← share (wit.voteRewardPool + votePay)
    let db := db.setWitness id { wit with voteRewardPool := voteRewardPool }
    let witnessPay ← share (rewardPay - votePay)
    db.depositWitnessPay id witnessPay
  else
    return db

/-- What a stake gets of the reward pool of its witness; `backup` holds the
pools and the weights from before the loop. -/
def voterPay (backup : List Witness) (s : Staking) (wit : Witness) :
    Except Fault Int := do
  let before ← orThrow backup[s.trustNode]? .notFound
  let product ← share (before.voteRewardPool * s.amount.amount)
  let weighted ← share (product * s.weight.toNat)
  let pay ← share (weighted.tdiv before.totalVoteWeights)
  return min pay wit.voteRewardPool

def voterPaid (backup : List Witness) (s : Staking) (wit : Witness) : Bool :=
  wit.isValid && !wit.isBanned &&
    (backup[s.trustNode]?.any fun before => before.totalVoteWeights ≠ 0)

def payVoter (backup : List Witness) (s : Staking) (db : Database) :
    Except Fault Database := do
  let wit ← db.getWitness s.trustNode
  let pay ← voterPay backup s wit
  if pay ≠ 0 then
    let paid ← db.stakingCashback s.owner pay
    let wit ← paid.getWitness s.trustNode
    let pool ← share (wit.voteRewardPool - pay)
    return paid.setWitness s.trustNode { wit with voteRewardPool := pool }
  else
    return db

/-- The reward of a valid stake, and its expiry: up to hard fork 1026 only a
stake that is paid expires. -/
def visitValidStaking (backup : List Witness) (s : Staking) (db : Database) :
    Except Fault Database :=
  if db.witnesses[s.trustNode]?.any (voterPaid backup s) then do
    let paid ← db.payVoter backup s
    paid.handlingExpiredStaking s s.trustNode
  else if db.headBlockTime > HARDFORK_1026_TIME then
    db.handlingExpiredStaking s s.trustNode
  else
    .ok db

/-- One round of the loop over the staking objects. -/
def visitStaking (backup : List Witness) (db : Database) (id : Nat) :
    Except Fault Database :=
  match db.findStaking id with
  | none => .ok db
  | some s =>
      if s.isValid then db.visitValidStaking backup s else .ok db

/-- The rewards of `perform_chain_maintenance`, from the tally of the votes
on. -/
def distributeStakingRewards (db : Database) (tally : List Int) :
    Except Fault Database := do
  let count :=
    min db.witnesses.length db.parameters.voteParams.validNodesNumber.toNat
  let wits := db.sortVotableWitnesses tally count
  let totalWeight ← db.rewardTotalWeight wits
  if totalWeight ≠ 0 then
    let pools := db.properties.currentStakingRewardPool
    let db ← wits.foldlM (payTrustNode pools totalWeight) db
    (db.stakings.map (·.id)).foldlM (visitStaking db.witnesses) db
  else
    return db

end Database

end GxbCore.Ledger
