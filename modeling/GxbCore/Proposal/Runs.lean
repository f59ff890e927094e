import GxbCore.Proposal.Executions

/-!
# Runs

A run applies operations, clears expired proposals, lets time pass, changes the
rest of the chain, and undoes what has happened, in any order.  The rules of
this module take a property from the steps of an execution to the steps of a
run.  Every state that a run reaches is formed.
-/

namespace GxbCore.Proposal

open GxbCore.Protocol
open GxbCore.Ledger (Asset Time)

variable {K X W : Type} [DecidableEq K]

section Approvals

/-- The state in which `proposal_update_evaluator::do_apply` has noted the
approvals. -/
def State.withApprovals (o : ProposalUpdateOperation K)
    (p : ProposalObject K X) (state : State K X W) : State K X W :=
  let modified := state.modify (applyApprovals o p)
  if o.adds then modified.note (.approved p.id state.headBlockTime)
  else modified

variable {o : ProposalUpdateOperation K} {p : ProposalObject K X}
  {state : State K X W}

theorem applyUpdate_eq (rules : Rules K X W)
    (apply : Operation K X → State K X W → Outcome Fault (State K X W)) :
    applyUpdate rules apply o p state =
      if p.reviewPeriodTime.isSome then .ok (state.withApprovals o p)
      else if isAuthorizedToExecute rules (state.withApprovals o p)
        (applyApprovals o p) then
        orCatch
          (pushProposal apply (applyApprovals o p) (state.withApprovals o p))
          .ok
      else .ok (state.withApprovals o p) :=
  rfl

theorem withApprovals_proposals :
    (state.withApprovals o p).proposals =
      state.proposals.map fun other =>
        if other.id = p.id then applyApprovals o p else other := by
  unfold State.withApprovals
  dsimp only
  split
  · rfl
  · rfl

theorem withApprovals_nextProposalId :
    (state.withApprovals o p).nextProposalId = state.nextProposalId := by
  unfold State.withApprovals
  dsimp only
  split
  · rfl
  · rfl

variable (o p state) in
theorem withApprovals_log :
    (state.withApprovals o p).log = state.log ∨
      o.adds = true ∧
        (state.withApprovals o p).log =
          .approved p.id state.headBlockTime :: state.log := by
  unfold State.withApprovals
  dsimp only
  split
  · next adds => exact .inr ⟨adds, rfl⟩
  · exact .inl rfl

theorem withApprovals_removedIds :
    removedIds (state.withApprovals o p).log = removedIds state.log := by
  rcases withApprovals_log o p state with same | ⟨_, noted⟩
  · rw [same]
  · rw [noted, removedIds_approved]

theorem applyApprovals_bare (o : ProposalUpdateOperation K)
    (p : ProposalObject K X) : (applyApprovals o p).bare = p.bare :=
  rfl

theorem mem_withApprovals (member : p ∈ state.proposals) :
    applyApprovals o p ∈ (state.withApprovals o p).proposals := by
  rw [withApprovals_proposals]
  exact List.mem_map.mpr ⟨p, member, if_pos rfl⟩

theorem bare_of_modify (member : p ∈ state.proposals) {q : ProposalObject K X}
    (stored : q ∈ (state.modify (applyApprovals o p)).proposals) :
    ∃ r ∈ state.proposals, q.bare = r.bare := by
  obtain ⟨r, inState, same⟩ := List.mem_map.mp stored
  by_cases changed : r.id = (applyApprovals o p).id
  · rw [if_pos changed] at same
    exact ⟨p, member, same ▸ applyApprovals_bare o p⟩
  · rw [if_neg changed] at same
    exact ⟨r, inState, same ▸ rfl⟩

theorem bare_of_withApprovals (member : p ∈ state.proposals)
    {q : ProposalObject K X}
    (stored : q ∈ (state.withApprovals o p).proposals) :
    ∃ r ∈ state.proposals, q.bare = r.bare := by
  rw [withApprovals_proposals] at stored
  exact bare_of_modify member stored

theorem Formed.withApprovals (formed : Formed state)
    (member : p ∈ state.proposals) :
    Formed (state.withApprovals o p) where
  distinct := by
    rw [withApprovals_proposals, List.map_map]
    have ids :
        ∀ other ∈ state.proposals,
          ((·.id) ∘ fun other =>
            if other.id = p.id then applyApprovals o p else other) other =
            other.id := by
      intro other _
      dsimp only [Function.comp_apply]
      split
      · next same => exact same.symm
      · rfl
    rw [List.map_congr_left ids]
    exact formed.distinct
  earlier q stored := by
    obtain ⟨r, inState, same⟩ := bare_of_withApprovals member stored
    rw [withApprovals_nextProposalId, ProposalObject.id_of_bare same]
    exact formed.earlier r inState
  noUpdates q stored := by
    obtain ⟨r, inState, same⟩ := bare_of_withApprovals member stored
    rw [ProposalObject.operations_of_bare same]
    exact formed.noUpdates r inState
  removedOnce := by
    rw [withApprovals_removedIds]
    exact formed.removedOnce
  removedEarlier := by
    rw [withApprovals_removedIds, withApprovals_nextProposalId]
    exact formed.removedEarlier
  removedGone q stored := by
    obtain ⟨r, inState, same⟩ := bare_of_withApprovals member stored
    rw [withApprovals_removedIds, ProposalObject.id_of_bare same]
    exact formed.removedGone r inState

omit [DecidableEq K] in
theorem evaluateUpdate_eq_ok (evaluated : evaluateUpdate state o = .ok p) :
    state.find o.proposal = some p ∧
      (∀ start ∈ p.reviewPeriodTime, state.headBlockTime ≥ start →
        o.activeApprovalsToAdd = [] ∧ o.ownerApprovalsToAdd = []) ∧
      (∀ id ∈ o.activeApprovalsToRemove, id ∈ p.availableActiveApprovals) ∧
      ∀ id ∈ o.ownerApprovalsToRemove, id ∈ p.availableOwnerApprovals := by
  simp only [evaluateUpdate, proposalAssert, bind_eq_ok, orThrow_eq_ok,
    require_eq_ok] at evaluated
  obtain ⟨q, found, _, closed, _, active, _, owner, returns⟩ := evaluated
  cases returns
  refine ⟨found, ?_, active, owner⟩
  intro start inReview
  exact of_decide_eq_true ((Option.all_eq_true _ _).mp closed start inReview)

end Approvals

section Rules

variable {rules : Rules K X W} {keeps : State K X W → Prop}

/-- A property of formed states that operations keep, where `leads` says what
an execution that began in one state can have come to: then it can be undone,
or it comes to its end.  The proposal that is executed is `p`; when its
operations have been applied it is stored as `q`. -/
structure Carried (rules : Rules K X W) (keeps : State K X W → Prop)
    (leads : State K X W → State K X W → Prop)
    (executes : State K X W → ProposalObject K X → Prop) : Prop
    extends KeptByEffects rules keeps where
  formed : ∀ state, keeps state → Formed state
  leadsRefl : ∀ state, leads state state
  leadsEffects : ∀ state, KeptByEffects rules (leads state)
  undone :
    ∀ before after, keeps before → leads before after →
      keeps (before.undo after)
  executed :
    ∀ start middle : State K X W, ∀ p ∈ start.proposals,
      ∀ q ∈ middle.proposals,
      keeps start → executes start p → leads start middle →
      q.bare = p.bare → middle.headBlockTime = start.headBlockTime →
      keeps ((middle.without p.id).note (.executed p middle.headBlockTime))

namespace Carried

variable {leads : State K X W → State K X W → Prop}
  {executes : State K X W → ProposalObject K X → Prop}
  {p : ProposalObject K X} {state : State K X W}

theorem pushProposal (carried : Carried rules keeps leads executes)
    (depth : Nat) (member : p ∈ state.proposals) (holds : keeps state)
    (may : executes state p) :
    keeps
      (pushProposal (applyOperation rules depth) p state).state := by
  have formed := carried.formed state holds
  have both :=
    (carried.leadsEffects state).and (Evolves.kept rules state).byEffects
  -- The end of the execution is no step of it, so what is shown of the
  -- session is stronger than what is shown of the whole.
  unfold Proposal.pushProposal
  have led :=
    both.session depth p (formed.noUpdates p member)
      ⟨carried.leadsRefl state, Evolves.refl state⟩
  cases session :
      forEach (pushOperation (applyOperation rules depth) p)
        p.operations state with
  | throw error after =>
      rw [session] at led
      exact carried.undone state after holds led.1
  | ok applied =>
      rw [session] at led
      obtain ⟨leadsMiddle, evolves⟩ := led
      by_cases held : applied.holds p = true
      · simp only [Outcome.bind_ok, State.remove, held, if_true]
        obtain ⟨q, stored, sameId, _⟩ := holds_iff.mp held
        exact carried.executed state applied p member q stored holds may
          leadsMiddle (evolves.bare_of_id formed member stored sameId)
          evolves.time
      · simp only [Outcome.bind_ok, State.remove, held]
        exact carried.undone state applied holds leadsMiddle

/-- An update keeps what noting the approvals keeps, if it may execute the
proposal. -/
theorem applyUpdate (carried : Carried rules keeps leads executes) (depth : Nat)
    (o : ProposalUpdateOperation K) (member : p ∈ state.proposals)
    (noted : keeps (state.withApprovals o p))
    (may :
      p.reviewPeriodTime = none →
        executes (state.withApprovals o p) (applyApprovals o p)) :
    keeps
      (applyUpdate rules (applyOperation rules depth) o p state).state := by
  rw [applyUpdate_eq]
  split
  · exact noted
  next noReview =>
    split
    · have pushed :=
        carried.pushProposal depth (mem_withApprovals member) noted
          (may (by simpa using noReview))
      generalize Proposal.pushProposal _ _ _ = outcome at pushed ⊢
      cases outcome with
      | ok after => exact pushed
      | throw error after =>
          cases error with
          | exception => exact pushed
          | dangling => exact pushed
          | outOfFuel => exact pushed
    · exact noted

theorem proposalUpdate (carried : Carried rules keeps leads executes)
    (depth : Nat) (o : ProposalUpdateOperation K) (holds : keeps state)
    (updates :
      ∀ p world, evaluateUpdate state o = .ok p →
        let paid : State K X W := { state with world := world }
        keeps (paid.withApprovals o p) ∧
          (p.reviewPeriodTime = none →
            executes (paid.withApprovals o p) (applyApprovals o p))) :
    keeps (applyOperation rules depth (.proposalUpdate o) state).state := by
  cases depth with
  | zero => exact holds
  | succ depth =>
      rw [Proposal.applyOperation, evaluate]
      rcases withFee_cases rules o.feePayingAccount o.fee
        (evaluateUpdate state o)
        (Proposal.applyUpdate rules (Proposal.applyOperation rules depth) o)
        state with
        ⟨message, thrown⟩ | ⟨p, world, evaluated, applies⟩
      · rw [thrown]
        exact holds
      have member : p ∈ ({ state with world := world } : State K X W).proposals :=
        (mem_of_find (evaluateUpdate_eq_ok evaluated).1).1
      obtain ⟨noted, may⟩ := updates p world evaluated
      have applied := carried.applyUpdate depth o member noted may
      rcases applies with
        ⟨error, after, throws, same⟩ |
          ⟨middle, after, returns, ⟨later, rfl⟩, ends⟩
      · rw [throws] at applied
        rw [same]
        exact applied
      · rw [returns] at applied
        have keepsLater := carried.world middle later applied
        rcases ends with returned | ⟨message, thrown⟩
        · rw [returned]
          exact keepsLater
        · rw [thrown]
          exact keepsLater

/-- An operation keeps what noting the approvals keeps, if it may execute the
proposal. -/
theorem applyOperation (carried : Carried rules keeps leads executes)
    (depth : Nat) (op : Operation K X) (holds : keeps state)
    (updates :
      ∀ o p world, op = .proposalUpdate o →
        evaluateUpdate state o = .ok p →
          let paid : State K X W := { state with world := world }
          keeps (paid.withApprovals o p) ∧
            (p.reviewPeriodTime = none →
              executes (paid.withApprovals o p) (applyApprovals o p))) :
    keeps (applyOperation rules depth op state).state := by
  cases op with
  | proposalUpdate o =>
      exact carried.proposalUpdate depth o holds
        fun p world evaluated => updates o p world rfl evaluated
  | proposalCreate => exact carried.toKeptByEffects.applyOperation rfl depth holds
  | proposalDelete => exact carried.toKeptByEffects.applyOperation rfl depth holds
  | other => exact carried.toKeptByEffects.applyOperation rfl depth holds

theorem clearProposal (carried : Carried rules keeps leads executes)
    (depth : Nat) (member : p ∈ state.proposals) (holds : keeps state)
    (may : executes state p) :
    keeps (clearProposal rules depth p state).state := by
  have removes :
      ∀ left : State K X W, keeps left → keeps (left.remove p).state := by
    intro left keepsLeft
    unfold State.remove
    split
    · next held =>
        obtain ⟨q, stored, sameId, _⟩ := holds_iff.mp held
        have kept := carried.removed left q stored keepsLeft
        rw [sameId] at kept
        exact kept
    · exact keepsLeft
  unfold Proposal.clearProposal
  split
  · have pushed := carried.pushProposal depth member holds may
    generalize Proposal.pushProposal _ _ _ = outcome at pushed ⊢
    cases outcome with
    | ok after => exact pushed
    | throw error after =>
        cases error with
        | exception => exact removes after pushed
        | dangling => exact pushed
        | outOfFuel => exact pushed
  · exact removes state holds

omit [DecidableEq K] in
theorem mem_of_firstExpiring {proposals : List (ProposalObject K X)}
    (first : firstExpiring proposals = some p) : p ∈ proposals :=
  List.argmin_mem first

/-- The loop keeps what its rounds keep, if they may execute what has
expired. -/
theorem clearExpiredProposals
    (carried : Carried rules keeps leads executes) (depth rounds : Nat)
    (may :
      ∀ (state : State K X W), ∀ p ∈ state.proposals, keeps state →
        p.expirationTime ≤ state.headBlockTime → executes state p)
    (holds : keeps state) :
    keeps (clearExpiredProposals rules depth rounds state).state := by
  induction rounds generalizing state with
  | zero => exact holds
  | succ rounds ih =>
      unfold Proposal.clearExpiredProposals
      split
      · exact holds
      next p first =>
        split
        · next expired =>
            have member := mem_of_firstExpiring first
            refine Outcome.bind_state_keeps
              (carried.clearProposal depth member holds
                (may state p member holds expired)) ?_
            intro middle _ keepsMiddle
            exact ih keepsMiddle
        · exact holds

end Carried

/-- A property of formed states that the steps of executions keep, and that is
kept where one of the executions comes to its end.  The proposal that is
executed is `p`; when its operations have been applied it is stored as `q`. -/
structure Invariant (rules : Rules K X W) (keeps : State K X W → Prop)
    (executes : State K X W → ProposalObject K X → Prop) : Prop
    extends Kept rules keeps where
  formed : ∀ state, keeps state → Formed state
  executed :
    ∀ start middle : State K X W, ∀ p ∈ start.proposals,
      ∀ q ∈ middle.proposals,
      keeps start → executes start p → keeps middle → q.bare = p.bare →
      middle.headBlockTime = start.headBlockTime →
      keeps ((middle.without p.id).note (.executed p middle.headBlockTime))

namespace Invariant

variable {executes : State K X W → ProposalObject K X → Prop}

theorem carried (invariant : Invariant rules keeps executes) :
    Carried rules keeps (fun start state => keeps start → keeps state)
      executes where
  toKeptByEffects := invariant.toKept.byEffects
  formed := invariant.formed
  leadsRefl _ holds := holds
  leadsEffects _ :=
    { world := fun state world led holds =>
        invariant.world state world (led holds)
      created := fun state ops expirationTime review led evaluated holds =>
        invariant.created state ops expirationTime review (led holds)
          evaluated
      removed := fun state p member led holds =>
        invariant.removed state p member (led holds) }
  undone before after holds _ := invariant.undone before after holds
  executed start middle p member q stored holds may led same time :=
    invariant.executed start middle p member q stored holds may (led holds)
      same time

/-- What is kept is also kept together with where the proposals come from. -/
theorem evolves (invariant : Invariant rules keeps executes)
    (start : State K X W) :
    Invariant rules (fun state => keeps state ∧ Evolves start state)
      executes where
  toKept := invariant.toKept.and (Evolves.kept rules start)
  formed state both := invariant.formed state both.1
  executed before middle p member q stored holds may both same time := by
    refine ⟨invariant.executed before middle p member q stored holds.1 may
      both.1 same time, ?_⟩
    have removed := both.2.trans (Evolves.without middle p.id)
    exact ⟨removed.time, removed.next, removed.removed, removed.conserves,
      removed.origin⟩

end Invariant

end Rules

section Runs

/-- What happens to the chain, as far as the proposals see it. -/
inductive Action (K X W : Type) where
  | apply (depth : Nat) (op : Operation K X)
  | clearExpired (depth rounds : Nat)
  | advance (time : Time)
  /-- blocks, maintenance and whatever else does not concern proposals -/
  | elsewhere (world : W)
  /-- what led to the state is undone: a failed transaction, a popped block -/
  | undo (after : State K X W)

/-- The state after an action that returns. -/
inductive Step (rules : Rules K X W) :
    State K X W → Action K X W → State K X W → Prop
  | apply {state after : State K X W} (depth : Nat) (op : Operation K X)
      (returns : applyOperation rules depth op state = .ok after) :
      Step rules state (.apply depth op) after
  | clearExpired {state after : State K X W} (depth rounds : Nat)
      (returns : clearExpiredProposals rules depth rounds state = .ok after) :
      Step rules state (.clearExpired depth rounds) after
  | advance {state : State K X W} {time : Time}
      (later : state.headBlockTime ≤ time) :
      Step rules state (.advance time) { state with headBlockTime := time }
  | elsewhere {state : State K X W} {world : W} :
      Step rules state (.elsewhere world) { state with world := world }
  | undo {state : State K X W} (after : State K X W) :
      Step rules state (.undo after) (state.undo after)

/-- The states that a run reaches from a chain without proposals, if all its
actions are proper. -/
inductive Run (rules : Rules K X W)
    (proper : State K X W → Action K X W → Prop) : State K X W → Prop
  | start (time : Time) (world : W) :
      Run rules proper
        { proposals := [], nextProposalId := 0, nextNode := 0,
          headBlockTime := time, world := world, log := [] }
  | step {state after : State K X W} {action : Action K X W}
      (reached : Run rules proper state) (allowed : proper state action)
      (steps : Step rules state action after) :
      Run rules proper after

theorem formed_invariant (rules : Rules K X W) :
    Invariant rules Formed fun _ _ => True where
  toKept := kept_formed rules
  formed _ formed := formed
  executed _ middle p _ q stored _ _ formed same _ := by
    have removed := formed.without stored
    rw [ProposalObject.id_of_bare same] at removed
    exact ⟨removed.distinct, removed.earlier, removed.noUpdates,
      removed.removedOnce, removed.removedEarlier, removed.removedGone⟩

theorem Formed.step {rules : Rules K X W} {state after : State K X W}
    {action : Action K X W} (formed : Formed state)
    (steps : Step rules state action after) : Formed after := by
  have invariant := formed_invariant rules
  cases steps with
  | apply depth op returns =>
      have kept := invariant.carried.applyOperation depth op formed ?_
      · rw [returns] at kept
        exact kept
      intro o p world _ evaluated
      have member := (mem_of_find (evaluateUpdate_eq_ok evaluated).1).1
      exact ⟨(invariant.world state world formed).withApprovals member,
        fun _ => trivial⟩
  | clearExpired depth rounds returns =>
      have kept :=
        invariant.carried.clearExpiredProposals depth rounds
          (fun _ _ _ _ _ => trivial) formed
      rw [returns] at kept
      exact kept
  | advance later =>
      exact ⟨formed.distinct, formed.earlier, formed.noUpdates,
        formed.removedOnce, formed.removedEarlier, formed.removedGone⟩
  | elsewhere => exact invariant.world state _ formed
  | undo after => exact formed.undo after

theorem Run.formed {rules : Rules K X W}
    {proper : State K X W → Action K X W → Prop} {state : State K X W}
    (run : Run rules proper state) : Formed state := by
  induction run with
  | start time world => constructor <;> simp [removedIds]
  | step _ _ steps ih => exact ih.step steps

end Runs

section Sample

/-- The other operations need the active authority of one account and always
succeed.  Account 7 acts for the committee. -/
def plainRules : Rules Nat AccountId Unit where
  requires account := ⟨[account], [], []⟩
  validate _ := .ok ()
  apply _ _ world := .ok world
  prepareFee _ _ _ _ := .ok ()
  payFee _ _ _ world := .ok world
  takeFee _ _ world := .ok world
  getActive _ account :=
    if account = GRAPHENE_COMMITTEE_ACCOUNT then some ⟨1, [(7, 1)], []⟩
    else some ⟨1, [], [(account, 1)]⟩
  getOwner _ account := some ⟨1, [], [(account, 1)]⟩
  maxAuthorityDepth _ := 2
  maximumProposalLifetime _ := 2419200
  committeeProposalReviewPeriod _ := 1209600

def plainChain : State Nat AccountId Unit where
  proposals := []
  nextProposalId := 0
  nextNode := 0
  headBlockTime := 1000
  world := ()
  log := []

def approvalBy (account : AccountId) (id : ProposalId) :
    ProposalUpdateOperation Nat where
  feePayingAccount := account
  fee := ⟨0, 1⟩
  proposal := id
  activeApprovalsToAdd := [account]
  activeApprovalsToRemove := []
  ownerApprovalsToAdd := []
  ownerApprovalsToRemove := []
  keyApprovalsToAdd := []
  keyApprovalsToRemove := []

end Sample

end GxbCore.Proposal
