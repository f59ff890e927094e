import Mathlib.Data.List.Dedup
import Mathlib.Data.List.MinMax
import GxbCore.Lib.Fallible
import GxbCore.Ledger.Amounts
import GxbCore.Protocol.Authority

/-!
# Proposals

A proposal is a transaction that waits for approvals.  It is executed when an
update brings the last approval that it needs, or, when it has a review period,
at its expiration; then it is removed.

An executed proposal may create and delete proposals in turn, and an update in
it would execute others.  The recursion is modelled with a bound on its depth.
A C++ reference to a proposal is the id together with the node that holds the
object: removing the object frees the node, and undoing the removal inserts the
object into a new one.

Operations of other kinds, fees, and the accounts with their authorities are
parameters: `Rules` over a world that proposals do not touch.
-/

namespace GxbCore.Proposal

open GxbCore.Protocol
open GxbCore.Ledger (Asset Time)

abbrev AccountId := Nat

abbrev ProposalId := Nat

/-- An `fc::exception` with its text, the use of a freed object, or the bound on
the recursion. -/
inductive Fault where
  | exception (message : String)
  | dangling
  | outOfFuel
  deriving DecidableEq, Repr

structure ProposalUpdateOperation (K : Type) where
  feePayingAccount : AccountId
  fee : Asset
  proposal : ProposalId
  activeApprovalsToAdd : List AccountId
  activeApprovalsToRemove : List AccountId
  ownerApprovalsToAdd : List AccountId
  ownerApprovalsToRemove : List AccountId
  keyApprovalsToAdd : List K
  keyApprovalsToRemove : List K
  deriving DecidableEq, Repr

structure ProposalDeleteOperation where
  feePayingAccount : AccountId
  usingOwnerAuthority : Bool
  fee : Asset
  proposal : ProposalId
  deriving DecidableEq, Repr

/-- `operation`: the three on proposals, and those of other kinds.  The first is
`proposal_create_operation` with its members in order. -/
inductive Operation (K X : Type) where
  | proposalCreate (fee : Asset) (feePayingAccount : AccountId)
      (proposedOps : List (Operation K X)) (expirationTime : Time)
      (reviewPeriodSeconds : Option UInt32)
  | proposalUpdate (o : ProposalUpdateOperation K)
  | proposalDelete (o : ProposalDeleteOperation)
  | other (op : X)

/-- What the proposals use of the rest of the chain; `W` is its state. -/
structure Rules (K X W : Type) where
  /-- `operation_get_required_authorities` on the other operations -/
  requires : X → Required K
  validate : X → Except String Unit
  /-- the evaluator of another operation, with its fee -/
  apply : X → Time → W → Except String W
  prepareFee : AccountId → Asset → Time → W → Except String Unit
  /-- `convert_fee` and `pay_fee` -/
  payFee : AccountId → Asset → Time → W → Except String W
  /-- `db_adjust_balance` -/
  takeFee : AccountId → Asset → W → Except String W
  getActive : W → AccountId → Option (Authority K)
  getOwner : W → AccountId → Option (Authority K)
  maxAuthorityDepth : W → Nat
  maximumProposalLifetime : W → UInt32
  committeeProposalReviewPeriod : W → UInt32

section Required

variable {K X W : Type} [DecidableEq K]

/-- The authority of `proposal_update_operation::get_required_authorities`: every
key has the weight one, and all are needed. -/
def ProposalUpdateOperation.keyAuthority (o : ProposalUpdateOperation K) :
    Authority K :=
  let keys := (o.keyApprovalsToAdd ++ o.keyApprovalsToRemove).dedup
  { weightThreshold := UInt32.ofNat keys.length
    accountAuths := []
    keyAuths := keys.map fun key => (key, 1) }

/-- `operation_get_required_authorities` -/
def Operation.requires (rules : Rules K X W) : Operation K X → Required K
  | .proposalCreate _ feePayingAccount _ _ _ => ⟨[feePayingAccount], [], []⟩
  | .proposalUpdate o =>
      ⟨o.feePayingAccount ::
          (o.activeApprovalsToAdd ++ o.activeApprovalsToRemove),
        o.ownerApprovalsToAdd ++ o.ownerApprovalsToRemove,
        [o.keyAuthority]⟩
  | .proposalDelete o => ⟨[o.feePayingAccount], [], []⟩
  | .other op => rules.requires op

end Required

section Validate

/-- `FC_ASSERT` -/
def proposalAssert (condition : Prop) [Decidable condition]
    (message : String) : Except String Unit :=
  require condition message

variable {K X W : Type} [DecidableEq K]

/-- `proposal_update_operation::validate` -/
def ProposalUpdateOperation.validate (o : ProposalUpdateOperation K) :
    Except String Unit := do
  proposalAssert (0 ≤ o.fee.amount) ""
  proposalAssert
    (¬ (o.activeApprovalsToAdd = [] ∧ o.activeApprovalsToRemove = [] ∧
      o.ownerApprovalsToAdd = [] ∧ o.ownerApprovalsToRemove = [] ∧
      o.keyApprovalsToAdd = [] ∧ o.keyApprovalsToRemove = [])) ""
  proposalAssert
    (∀ a ∈ o.activeApprovalsToAdd, a ∉ o.activeApprovalsToRemove)
    "Cannot add and remove approval at the same time."
  proposalAssert
    (∀ a ∈ o.ownerApprovalsToAdd, a ∉ o.ownerApprovalsToRemove)
    "Cannot add and remove approval at the same time."
  proposalAssert
    (∀ a ∈ o.keyApprovalsToAdd, a ∉ o.keyApprovalsToRemove)
    "Cannot add and remove approval at the same time."

mutual

/-- `operation_validate` -/
def Operation.validate (rules : Rules K X W) :
    Operation K X → Except String Unit
  | .proposalCreate _ _ proposedOps _ _ =>
      if proposedOps.isEmpty then .error ""
      else validateAll rules proposedOps
  | .proposalUpdate o => o.validate
  | .proposalDelete o => proposalAssert (0 ≤ o.fee.amount) ""
  | .other op => rules.validate op

/-- `operation_validate` on each operation. -/
def validateAll (rules : Rules K X W) :
    List (Operation K X) → Except String Unit
  | [] => .ok ()
  | op :: rest => do
      op.validate rules
      validateAll rules rest

end

end Validate

/-- `proposal_object`, with the node that holds it. -/
structure ProposalObject (K X : Type) where
  id : ProposalId
  node : Nat
  expirationTime : Time
  reviewPeriodTime : Option Time
  operations : List (Operation K X)
  requiredActiveApprovals : List AccountId
  availableActiveApprovals : List AccountId
  requiredOwnerApprovals : List AccountId
  availableOwnerApprovals : List AccountId
  availableKeyApprovals : List K

/-- What happened to proposals, with the head block time. -/
inductive Event (K X : Type) where
  /-- with `committee_proposal_review_period` -/
  | created (id : ProposalId) (reviewPeriod : UInt32)
  | approved (id : ProposalId) (time : Time)
  | executed (proposal : ProposalObject K X) (time : Time)
  | removed (id : ProposalId)

/-- The proposals in the order in which they were inserted, the rest of the
chain, and what has happened, the latest first. -/
structure State (K X W : Type) where
  proposals : List (ProposalObject K X)
  nextProposalId : ProposalId
  nextNode : Nat
  headBlockTime : Time
  world : W
  log : List (Event K X)

namespace State

variable {K X W : Type}

/-- `find` by id. -/
def find (state : State K X W) (id : ProposalId) :
    Option (ProposalObject K X) :=
  state.proposals.find? fun p => p.id == id

def holds (state : State K X W) (reference : ProposalObject K X) : Bool :=
  state.proposals.any fun p =>
    p.id == reference.id && p.node == reference.node

def note (state : State K X W) (event : Event K X) : State K X W :=
  { state with log := event :: state.log }

def create (state : State K X W) (p : ProposalObject K X) : State K X W :=
  { state with
    proposals := state.proposals ++
      [{ p with id := state.nextProposalId, node := state.nextNode }]
    nextProposalId := state.nextProposalId + 1
    nextNode := state.nextNode + 1 }

def modify (state : State K X W) (p : ProposalObject K X) : State K X W :=
  { state with
    proposals := state.proposals.map fun other =>
      if other.id = p.id then p else other }

def remove (state : State K X W) (reference : ProposalObject K X) :
    Outcome Fault (State K X W) :=
  if state.holds reference then
    .ok ({ state with
      proposals := state.proposals.filter fun p =>
        p.id ≠ reference.id }.note (.removed reference.id))
  else
    .throw .dangling state

/-- The undo of everything since `before`: what was removed is inserted
again, into new nodes. -/
def undo (before after : State K X W) : State K X W :=
  { before with
    proposals :=
      (before.proposals.filter fun p => after.holds p) ++
        ((before.proposals.filter fun p => !after.holds p).map fun p =>
          { p with node := after.nextNode })
    nextNode := after.nextNode + 1 }

end State

section Evaluators

variable {K X W : Type} [DecidableEq K]

/-- Go on with the value, or throw an `fc::exception`. -/
def orRaise {α : Type} (call : Except String α) (state : State K X W)
    (next : α → Outcome Fault (State K X W)) : Outcome Fault (State K X W) :=
  match call with
  | .ok value => next value
  | .error message => .throw (.exception message) state

/-- The accounts of which a proposal with these operations needs an
authority, of either kind. -/
def requiredAccounts (rules : Rules K X W) (ops : List (Operation K X)) :
    List AccountId :=
  let required := getRequiredAuthorities (Operation.requires rules) ops
  required.active ++ required.owner

/-- `proposal_create_evaluator::do_evaluate` -/
def evaluateCreate (rules : Rules K X W) (state : State K X W)
    (proposedOps : List (Operation K X)) (expirationTime : Time)
    (reviewPeriodSeconds : Option UInt32) : Except String Unit := do
  proposalAssert (expirationTime > state.headBlockTime)
    "Proposal has already expired on creation."
  proposalAssert
    (expirationTime
      ≤ state.headBlockTime + rules.maximumProposalLifetime state.world)
    "Proposal expiration time is too far in the future."
  proposalAssert
    (reviewPeriodSeconds.all fun seconds =>
      (seconds.toNat : Int)
        < expirationTime.toNat - state.headBlockTime.toNat)
    "Proposal review period must be less than its overall lifetime."
  proposalAssert
    ((getRequiredAuthorities (Operation.requires rules)
      proposedOps).other.length = 0) ""
  -- The period is asked for only where one is given.
  proposalAssert
    (reviewPeriodSeconds.all fun seconds =>
      GRAPHENE_COMMITTEE_ACCOUNT ∈ requiredAccounts rules proposedOps →
        rules.committeeProposalReviewPeriod state.world ≤ seconds)
    "Review period of ${t} specified, but at least ${min} required"
  proposalAssert (proposedOps ≠ [])
    "A transaction must have at least one operation"
  validateAll rules proposedOps

/-- The object that `proposal_create_evaluator::do_apply` creates. -/
def proposalOf (rules : Rules K X W) (proposedOps : List (Operation K X))
    (expirationTime : Time) (reviewPeriodSeconds : Option UInt32) :
    ProposalObject K X :=
  let required := getRequiredAuthorities (Operation.requires rules) proposedOps
  { id := 0
    node := 0
    expirationTime := expirationTime
    reviewPeriodTime :=
      reviewPeriodSeconds.map fun seconds => expirationTime - seconds
    operations := proposedOps
    requiredActiveApprovals :=
      required.active.filter fun id => id ∉ required.owner
    availableActiveApprovals := []
    requiredOwnerApprovals := required.owner
    availableOwnerApprovals := []
    availableKeyApprovals := [] }

/-- `proposal_update_evaluator::do_evaluate` -/
def evaluateUpdate (state : State K X W) (o : ProposalUpdateOperation K) :
    Except String (ProposalObject K X) := do
  let p ← orThrow (state.find o.proposal) ""
  proposalAssert
    (p.reviewPeriodTime.all fun start =>
      state.headBlockTime ≥ start →
        o.activeApprovalsToAdd = [] ∧ o.ownerApprovalsToAdd = [])
    "This proposal is in its review period. No new approvals may be added."
  proposalAssert
    (∀ id ∈ o.activeApprovalsToRemove, id ∈ p.availableActiveApprovals) ""
  proposalAssert
    (∀ id ∈ o.ownerApprovalsToRemove, id ∈ p.availableOwnerApprovals) ""
  return p

/-- `proposal_delete_evaluator::do_evaluate` -/
def evaluateDelete (state : State K X W) (o : ProposalDeleteOperation) :
    Except String (ProposalObject K X) := do
  let p ← orThrow (state.find o.proposal) ""
  proposalAssert
    (o.feePayingAccount ∈
      if o.usingOwnerAuthority then p.requiredOwnerApprovals
      else p.requiredActiveApprovals)
    "Provided authority is not authoritative for this proposal."
  return p

/-- `insert` and `erase` on a set of approvals. -/
def approve {α : Type} [DecidableEq α] (available add remove : List α) :
    List α :=
  (add.foldl (fun set id => set.insert id) available).filter
    fun id => id ∉ remove

/-- The lambda of `proposal_update_evaluator::do_apply`. -/
def applyApprovals (o : ProposalUpdateOperation K) (p : ProposalObject K X) :
    ProposalObject K X :=
  { p with
    availableActiveApprovals :=
      approve p.availableActiveApprovals o.activeApprovalsToAdd
        o.activeApprovalsToRemove
    availableOwnerApprovals :=
      approve p.availableOwnerApprovals o.ownerApprovalsToAdd
        o.ownerApprovalsToRemove
    availableKeyApprovals :=
      approve p.availableKeyApprovals o.keyApprovalsToAdd
        o.keyApprovalsToRemove }

def ProposalUpdateOperation.adds (o : ProposalUpdateOperation K) : Bool :=
  !(o.activeApprovalsToAdd.isEmpty && o.ownerApprovalsToAdd.isEmpty &&
    o.keyApprovalsToAdd.isEmpty)

def isAuthorizedToExecute (rules : Rules K X W) (state : State K X W)
    (p : ProposalObject K X) : Bool :=
  (verifyAuthority (Operation.requires rules) p.operations {
    sigs := p.availableKeyApprovals
    getActive := rules.getActive state.world
    getOwner := rules.getOwner state.world
    maxRecursionDepth := rules.maxAuthorityDepth state.world
    allowCommittee := true
    activeApprovals := p.availableActiveApprovals
    ownerApprovals := p.availableOwnerApprovals }).returned

/-- One round of the loop of `push_proposal`: the operation is read from the
object. -/
def pushOperation
    (apply : Operation K X → State K X W → Outcome Fault (State K X W))
    (p : ProposalObject K X) (op : Operation K X) (state : State K X W) :
    Outcome Fault (State K X W) :=
  if state.holds p then apply op state else .throw .dangling state

/-- `push_proposal`; `apply` is `apply_operation`. -/
def pushProposal
    (apply : Operation K X → State K X W → Outcome Fault (State K X W))
    (p : ProposalObject K X) (state : State K X W) :
    Outcome Fault (State K X W) :=
  let session :=
    (forEach (pushOperation apply p) p.operations state).bind fun applied =>
      (applied.remove p).bind fun removed =>
        .ok (removed.note (.executed p removed.headBlockTime))
  match session with
  | .ok after => .ok after
  | .throw error after => .throw error (state.undo after)

/-- Catch an `fc::exception`; nothing else is caught. -/
def orCatch (call : Outcome Fault (State K X W))
    (handle : State K X W → Outcome Fault (State K X W)) :
    Outcome Fault (State K X W) :=
  match call with
  | .throw (.exception _) state => handle state
  | other => other

/-- `proposal_update_evaluator::do_apply` -/
def applyUpdate (rules : Rules K X W)
    (apply : Operation K X → State K X W → Outcome Fault (State K X W))
    (o : ProposalUpdateOperation K) (p : ProposalObject K X)
    (state : State K X W) : Outcome Fault (State K X W) :=
  let updated := applyApprovals o p
  let modified := state.modify updated
  let noted :=
    if o.adds then modified.note (.approved p.id state.headBlockTime)
    else modified
  -- With a review period the proposal is executed at its expiration only.
  if updated.reviewPeriodTime.isSome then
    .ok noted
  else if isAuthorizedToExecute rules noted updated then
    orCatch (pushProposal apply updated noted) .ok
  else
    .ok noted

/-- The frame of `start_evaluate`: the fee around `do_evaluate` and
`do_apply`. -/
def withFee {α : Type} (rules : Rules K X W) (payer : AccountId) (fee : Asset)
    (doEvaluate : Except String α)
    (doApply : α → State K X W → Outcome Fault (State K X W))
    (state : State K X W) : Outcome Fault (State K X W) :=
  orRaise (rules.prepareFee payer fee state.headBlockTime state.world) state
    fun _ =>
  orRaise doEvaluate state fun evaluated =>
  orRaise (rules.payFee payer fee state.headBlockTime state.world) state
    fun paid =>
  (doApply evaluated { state with world := paid }).bind fun applied =>
  orRaise (rules.takeFee payer fee applied.world) applied fun taken =>
  .ok { applied with world := taken }

/-- `proposal_create_evaluator::do_apply` -/
def applyCreate (rules : Rules K X W) (reviewPeriod : UInt32)
    (proposedOps : List (Operation K X)) (expirationTime : Time)
    (reviewPeriodSeconds : Option UInt32) (state : State K X W) :
    State K X W :=
  (state.create
    (proposalOf rules proposedOps expirationTime reviewPeriodSeconds)).note
    (.created state.nextProposalId reviewPeriod)

/-- The evaluator of an operation; `apply` is `apply_operation` on the
operations of an executed proposal. -/
def evaluate (rules : Rules K X W)
    (apply : Operation K X → State K X W → Outcome Fault (State K X W)) :
    Operation K X → State K X W → Outcome Fault (State K X W)
  | .proposalCreate fee feePayingAccount proposedOps expirationTime
      reviewPeriodSeconds, state =>
      withFee rules feePayingAccount fee
        (evaluateCreate rules state proposedOps expirationTime
          reviewPeriodSeconds)
        (fun _ paid => .ok
          (applyCreate rules
            (rules.committeeProposalReviewPeriod state.world) proposedOps
            expirationTime reviewPeriodSeconds paid))
        state
  | .proposalUpdate o, state =>
      withFee rules o.feePayingAccount o.fee (evaluateUpdate state o)
        (applyUpdate rules apply o) state
  | .proposalDelete o, state =>
      withFee rules o.feePayingAccount o.fee (evaluateDelete state o)
        (fun p paid => paid.remove p) state
  | .other op, state =>
      orRaise (rules.apply op state.headBlockTime state.world) state
        fun world => .ok { state with world := world }

/-- `apply_operation`, to a depth of the recursion. -/
def applyOperation (rules : Rules K X W) :
    Nat → Operation K X → State K X W → Outcome Fault (State K X W)
  | 0, _, state => .throw .outOfFuel state
  | depth + 1, op, state =>
      evaluate rules (applyOperation rules depth) op state

/-- `*proposal_expiration_index.begin()`: the first of those that expire
first. -/
def firstExpiring (proposals : List (ProposalObject K X)) :
    Option (ProposalObject K X) :=
  proposals.argmin fun p => p.expirationTime.toNat

/-- One round of the loop of `clear_expired_proposals`. -/
def clearProposal (rules : Rules K X W) (depth : Nat)
    (p : ProposalObject K X) (state : State K X W) :
    Outcome Fault (State K X W) :=
  if isAuthorizedToExecute rules state p then
    orCatch (pushProposal (applyOperation rules depth) p state)
      fun failed => failed.remove p
  else
    state.remove p

/-- `clear_expired_proposals`, to a number of rounds. -/
def clearExpiredProposals (rules : Rules K X W) (depth : Nat) :
    Nat → State K X W → Outcome Fault (State K X W)
  | 0, state => .throw .outOfFuel state
  | rounds + 1, state =>
      match firstExpiring state.proposals with
      | none => .ok state
      | some p =>
          if p.expirationTime ≤ state.headBlockTime then
            (clearProposal rules depth p state).bind
              (clearExpiredProposals rules depth rounds)
          else
            .ok state

end Evaluators

end GxbCore.Proposal
