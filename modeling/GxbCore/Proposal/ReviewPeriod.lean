import GxbCore.Proposal.Runs

/-!
# The review period of the committee

A proposal that needs the authority of the committee account is meant to be
executed at its expiration only, after a review period in which nobody may
approve it.  `proposal_create` checks the length of the period where one is
given, and does not ask for one; `proposal_update` refuses new approvals of
accounts in the period, and does not look at approvals by keys.

Where the committee's proposals do have a review period and no keys are added
in it, every execution comes after the period.
-/

namespace GxbCore.Proposal

open GxbCore.Protocol
open GxbCore.Ledger (Asset Time)

variable {K X W : Type} [DecidableEq K]

/-- The operations of the proposal require the authority of the committee
account. -/
def Committee (rules : Rules K X W) (p : ProposalObject K X) : Prop :=
  GRAPHENE_COMMITTEE_ACCOUNT ∈ requiredAccounts rules p.operations

theorem committee_of_bare {rules : Rules K X W} {p q : ProposalObject K X}
    (same : q.bare = p.bare) (committee : Committee rules q) :
    Committee rules p := by
  unfold Committee
  rw [← ProposalObject.operations_of_bare same]
  exact committee

omit [DecidableEq K] in
theorem reviewPeriodTime_of_bare {p q : ProposalObject K X}
    (same : q.bare = p.bare) : q.reviewPeriodTime = p.reviewPeriodTime := by
  have fields := congrArg ProposalObject.reviewPeriodTime same
  exact fields

/-- At `time` the proposal had expired, after a review period of at least the
committee's at its creation, in which no approval was added. -/
def AfterReview (log : List (Event K X)) (p : ProposalObject K X)
    (time : Time) : Prop :=
  ∃ start minimum, p.reviewPeriodTime = some start ∧
    .created p.id minimum ∈ log ∧
    start.toNat + minimum.toNat ≤ p.expirationTime.toNat ∧
    p.expirationTime ≤ time ∧
    ∀ approval, .approved p.id approval ∈ log → approval < start

omit [DecidableEq K] in
/-- The review stays kept while no approval is added. -/
theorem AfterReview.mono {log more : List (Event K X)} {p : ProposalObject K X}
    {time : Time} (after : AfterReview log p time) (grows : log ⊆ more)
    (approvals :
      ∀ id approval, .approved id approval ∈ more →
        .approved id approval ∈ log) : AfterReview more p time := by
  obtain ⟨start, minimum, review, created, long, past, early⟩ := after
  exact ⟨start, minimum, review, grows created, long, past,
    fun approval approved => early approval (approvals _ _ approved)⟩

/-- The invariant: the review period of a stored proposal, and of those that
were executed. -/
structure Reviewed (rules : Rules K X W) (state : State K X W) : Prop where
  closed :
    ∀ p ∈ state.proposals, Committee rules p →
      ∀ start ∈ p.reviewPeriodTime,
        ∀ time, .approved p.id time ∈ state.log → time < start
  longEnough :
    ∀ p ∈ state.proposals, Committee rules p →
      ∃ minimum, .created p.id minimum ∈ state.log ∧
        ∀ start ∈ p.reviewPeriodTime,
          start.toNat + minimum.toNat ≤ p.expirationTime.toNat
  approvedEarlier :
    ∀ id time, .approved id time ∈ state.log → id < state.nextProposalId
  executedGone :
    ∀ p time, .executed p time ∈ state.log → p.id ∈ removedIds state.log
  afterReview :
    ∀ p time, .executed p time ∈ state.log → Committee rules p →
      AfterReview state.log p time

section Steps

variable {rules : Rules K X W} {state : State K X W}

/-- New events that are neither approvals nor executions change nothing, as
long as the proposals are the same. -/
theorem Reviewed.of_bare {after : State K X W} (reviewed : Reviewed rules state)
    (proposals : ∀ q ∈ after.proposals, ∃ p ∈ state.proposals, q.bare = p.bare)
    (next : state.nextProposalId ≤ after.nextProposalId)
    (grows : state.log ⊆ after.log)
    (approvals :
      ∀ id time, .approved id time ∈ after.log →
        .approved id time ∈ state.log)
    (executions :
      ∀ p time, .executed p time ∈ after.log →
        .executed p time ∈ state.log) :
    Reviewed rules after where
  closed q stored committee start inReview time approved := by
    obtain ⟨p, member, same⟩ := proposals q stored
    rw [reviewPeriodTime_of_bare same] at inReview
    rw [ProposalObject.id_of_bare same] at approved
    exact reviewed.closed p member (committee_of_bare same committee) start
      inReview time (approvals _ _ approved)
  longEnough q stored committee := by
    obtain ⟨p, member, same⟩ := proposals q stored
    obtain ⟨minimum, created, long⟩ :=
      reviewed.longEnough p member (committee_of_bare same committee)
    rw [reviewPeriodTime_of_bare same, ProposalObject.id_of_bare same,
      ProposalObject.expirationTime_of_bare same]
    exact ⟨minimum, grows created, long⟩
  approvedEarlier id time approved :=
    Nat.lt_of_lt_of_le
      (reviewed.approvedEarlier id time (approvals _ _ approved)) next
  executedGone p time executed := by
    have gone := reviewed.executedGone p time (executions _ _ executed)
    obtain ⟨event, noted, isRemoval⟩ := List.mem_filterMap.mp gone
    exact List.mem_filterMap.mpr ⟨event, grows noted, isRemoval⟩
  afterReview p time executed committee :=
    (reviewed.afterReview p time (executions _ _ executed) committee).mono
      grows approvals

theorem Reviewed.without (reviewed : Reviewed rules state) (id : ProposalId) :
    Reviewed rules (state.without id) := by
  refine reviewed.of_bare ?_ (Nat.le_refl _) (List.subset_cons_self _ _) ?_ ?_
  · intro q stored
    exact ⟨q, List.mem_of_mem_filter stored, rfl⟩
  · intro id time approved
    simpa [State.without, State.note] using approved
  · intro p time executed
    simpa [State.without, State.note] using executed

theorem Reviewed.undo (reviewed : Reviewed rules state) (after : State K X W) :
    Reviewed rules (state.undo after) := by
  refine reviewed.of_bare ?_ (Nat.le_refl _) (List.Subset.refl _)
    (fun _ _ approved => approved) (fun _ _ executed => executed)
  intro q stored
  obtain ⟨p, member, node, rfl⟩ := mem_undo stored
  exact ⟨p, member, rfl⟩

/-- What `proposal_create` checks of the review period, where there is one. -/
theorem evaluateCreate_review {proposedOps : List (Operation K X)}
    {expirationTime : Time} {review : Option UInt32}
    (evaluated :
      evaluateCreate rules state proposedOps expirationTime review = .ok ())
    (committee :
      GRAPHENE_COMMITTEE_ACCOUNT ∈ requiredAccounts rules proposedOps) :
    ∀ start ∈ review.map fun seconds => expirationTime - seconds,
      start.toNat +
          (rules.committeeProposalReviewPeriod state.world).toNat ≤
        expirationTime.toNat := by
  simp only [evaluateCreate, proposalAssert, bind_eq_ok, require_eq_ok]
    at evaluated
  obtain ⟨_, _, _, _, _, short, _, _, _, long, _⟩ := evaluated
  intro start inReview
  obtain ⟨seconds, given, rfl⟩ := Option.mem_map.mp inReview
  have less :=
    of_decide_eq_true ((Option.all_eq_true _ _).mp short seconds given)
  have more :=
    of_decide_eq_true ((Option.all_eq_true _ _).mp long seconds given)
      committee
  rw [UInt32.le_iff_toNat_le] at more
  have within : seconds ≤ expirationTime := by
    rw [UInt32.le_iff_toNat_le]
    omega
  rw [UInt32.toNat_sub_of_le _ _ within]
  omega

theorem Reviewed.create (reviewed : Reviewed rules state)
    {proposedOps : List (Operation K X)} {expirationTime : Time}
    {review : Option UInt32}
    (evaluated :
      evaluateCreate rules state proposedOps expirationTime review =
        .ok ()) :
    Reviewed rules
      (applyCreate rules (rules.committeeProposalReviewPeriod state.world)
        proposedOps expirationTime review state) := by
  have noted :
      Reviewed rules
        { state with
          nextProposalId := state.nextProposalId + 1
          log :=
            .created state.nextProposalId
              (rules.committeeProposalReviewPeriod state.world) ::
                state.log } := by
    refine reviewed.of_bare (fun q stored => ⟨q, stored, rfl⟩)
      (Nat.le_succ _) (List.subset_cons_self _ _) ?_ ?_
    · intro id time approved
      simpa using approved
    · intro p time executed
      simpa using executed
  refine ⟨forall_concat noted.closed ?_, forall_concat noted.longEnough ?_,
    noted.approvedEarlier, noted.executedGone, noted.afterReview⟩
  · -- The id is new, so nobody has approved it.
    intro _ _ _ time approved
    have inLog : .approved state.nextProposalId time ∈ state.log := by
      rcases List.mem_cons.mp approved with isCreated | inLog
      · cases isCreated
      · exact inLog
    exact absurd (reviewed.approvedEarlier _ time inLog) (Nat.lt_irrefl _)
  · intro committee
    exact ⟨_, List.mem_cons_self, evaluateCreate_review evaluated committee⟩

theorem kept_reviewed (rules : Rules K X W) :
    Kept rules (Reviewed rules) where
  world _ _ reviewed := ⟨reviewed.closed, reviewed.longEnough,
    reviewed.approvedEarlier, reviewed.executedGone, reviewed.afterReview⟩
  created _ _ _ _ reviewed evaluated := reviewed.create evaluated
  removed _ p _ reviewed := reviewed.without p.id
  undone _ after reviewed := reviewed.undo after

/-- An approval before the review period of a proposal that is still there. -/
theorem Reviewed.approved (reviewed : Reviewed rules state)
    {id : ProposalId} {time : Time} (earlier : id < state.nextProposalId)
    (there : id ∉ removedIds state.log)
    (before :
      ∀ p ∈ state.proposals, p.id = id → Committee rules p →
        ∀ start ∈ p.reviewPeriodTime, time < start) :
    Reviewed rules (state.note (.approved id time)) where
  closed p member committee start inReview other noted := by
    rcases List.mem_cons.mp noted with new | old
    · cases new
      exact before p member rfl committee start inReview
    · exact reviewed.closed p member committee start inReview other old
  longEnough p member committee := by
    obtain ⟨minimum, created, long⟩ := reviewed.longEnough p member committee
    exact ⟨minimum, List.mem_cons_of_mem _ created, long⟩
  approvedEarlier other otherTime noted := by
    rcases List.mem_cons.mp noted with new | old
    · cases new
      exact earlier
    · exact reviewed.approvedEarlier other otherTime old
  executedGone p executedTime noted := by
    rcases List.mem_cons.mp noted with new | old
    · cases new
    · exact reviewed.executedGone p executedTime old
  afterReview p executedTime noted committee := by
    rcases List.mem_cons.mp noted with new | old
    · cases new
    obtain ⟨start, minimum, review, created, long, past, early⟩ :=
      reviewed.afterReview p executedTime old committee
    refine ⟨start, minimum, review, List.mem_cons_of_mem _ created, long,
      past, ?_⟩
    intro approval noted
    rcases List.mem_cons.mp noted with new | old
    · -- An executed proposal is gone, and the new approval is of another.
      cases new
      exact absurd (reviewed.executedGone p executedTime old) there
    · exact early approval old

/-- Approvals that an update may add leave every review period closed. -/
theorem Reviewed.withApprovals (reviewed : Reviewed rules state)
    (formed : Formed state) {o : ProposalUpdateOperation K}
    {p : ProposalObject K X} (evaluated : evaluateUpdate state o = .ok p)
    (noKeys :
      Committee rules p → ∀ start ∈ p.reviewPeriodTime,
        start ≤ state.headBlockTime → o.keyApprovalsToAdd = []) :
    Reviewed rules (state.withApprovals o p) := by
  obtain ⟨found, noAccounts, _, _⟩ := evaluateUpdate_eq_ok evaluated
  obtain ⟨member, _⟩ := mem_of_find found
  -- First the proposals, then the new approval.
  have modified : Reviewed rules (state.modify (applyApprovals o p)) := by
    refine reviewed.of_bare ?_ (Nat.le_refl _) (List.Subset.refl _)
      (fun _ _ approved => approved) (fun _ _ executed => executed)
    intro q stored
    exact bare_of_modify member stored
  unfold State.withApprovals
  dsimp only
  split
  · next adds =>
      refine modified.approved (formed.earlier p member)
        (formed.removedGone p member) ?_
      intro q stored sameId committee start inReview
      obtain ⟨r, inState, same⟩ := bare_of_modify member stored
      have isUpdated : r = p :=
        List.inj_on_of_nodup_map formed.distinct inState member
          ((ProposalObject.id_of_bare same).symm.trans sameId)
      subst isUpdated
      rw [reviewPeriodTime_of_bare same] at inReview
      by_contra late
      have begun := UInt32.not_lt.mp late
      obtain ⟨noActive, noOwner⟩ := noAccounts start inReview begun
      have noKey :=
        noKeys (committee_of_bare same committee) start inReview begun
      simp [ProposalUpdateOperation.adds, noActive, noOwner, noKey] at adds
  · exact modified

/-- What may be executed: at its expiration, with a review period if the
committee needs one. -/
def MayExecute (rules : Rules K X W) (state : State K X W)
    (p : ProposalObject K X) : Prop :=
  Committee rules p →
    p.reviewPeriodTime.isSome ∧ p.expirationTime ≤ state.headBlockTime

theorem Reviewed.afterReview_of_stored {middle : State K X W}
    (reviewed : Reviewed rules middle) {p q : ProposalObject K X}
    (stored : q ∈ middle.proposals) (same : q.bare = p.bare)
    (may : MayExecute rules middle p) (committee : Committee rules p) :
    AfterReview middle.log p middle.headBlockTime := by
  obtain ⟨hasReview, past⟩ := may committee
  obtain ⟨start, review⟩ := Option.isSome_iff_exists.mp hasReview
  have storedReview : start ∈ q.reviewPeriodTime := by
    rw [reviewPeriodTime_of_bare same]
    exact review
  have storedCommittee := committee_of_bare same.symm committee
  obtain ⟨minimum, created, long⟩ :=
    reviewed.longEnough q stored storedCommittee
  have early := reviewed.closed q stored storedCommittee start storedReview
  have enough := long start storedReview
  rw [ProposalObject.expirationTime_of_bare same] at enough
  rw [ProposalObject.id_of_bare same] at created early
  exact ⟨start, minimum, review, created, enough, past, early⟩

theorem Reviewed.execute {middle : State K X W}
    (reviewed : Reviewed rules middle) {p q : ProposalObject K X}
    (stored : q ∈ middle.proposals) (same : q.bare = p.bare)
    (may : MayExecute rules middle p) :
    Reviewed rules
      ((middle.without p.id).note
        (.executed p middle.headBlockTime)) := by
  have removed := reviewed.without p.id
  refine ⟨?_, ?_, ?_, ?_, ?_⟩
  · intro r member committee start inReview time noted
    exact removed.closed r member committee start inReview time
      (by simpa [State.note] using noted)
  · intro r member committee
    obtain ⟨minimum, created, long⟩ := removed.longEnough r member committee
    exact ⟨minimum, List.mem_cons_of_mem _ created, long⟩
  · intro id time noted
    exact removed.approvedEarlier id time
      (by simpa [State.note] using noted)
  · intro r time noted
    rcases List.mem_cons.mp noted with new | old
    · cases new
      exact List.mem_cons_self
    · exact removed.executedGone r time old
  · intro r time noted committee
    rcases List.mem_cons.mp noted with new | old
    · cases new
      exact (reviewed.afterReview_of_stored stored same may committee).mono
        (fun _ event => List.mem_cons_of_mem _ (List.mem_cons_of_mem _ event))
        (by simp [State.note, State.without])
    · exact (removed.afterReview r time old committee).mono
        (fun _ event => List.mem_cons_of_mem _ event)
        (by simp [State.note])

theorem reviewed_invariant (rules : Rules K X W) :
    Invariant rules (fun state => Formed state ∧ Reviewed rules state)
      (MayExecute rules) where
  toKept := (kept_formed rules).and (kept_reviewed rules)
  formed _ both := both.1
  executed before middle p member q stored holds may both same time := by
    refine ⟨(formed_invariant rules).executed before middle p member q stored
      holds.1 trivial both.1 same time, both.2.execute stored same ?_⟩
    unfold MayExecute
    rw [time]
    exact may

end Steps

section Runs

/-- The steps at which the checks of the code are enough: what the committee is
asked to approve, and what of it expires, has a review period, and no key is
added in it. -/
def ReviewProper (rules : Rules K X W) (state : State K X W) :
    Action K X W → Prop
  | .apply _ (.proposalUpdate o) =>
      ∀ p ∈ state.proposals, p.id = o.proposal → Committee rules p →
        ∃ start, p.reviewPeriodTime = some start ∧
          (start ≤ state.headBlockTime → o.keyApprovalsToAdd = [])
  | .clearExpired _ _ =>
      ∀ p ∈ state.proposals, p.expirationTime ≤ state.headBlockTime →
        Committee rules p → p.reviewPeriodTime.isSome
  | _ => True

variable {rules : Rules K X W}

theorem Reviewed.applyOperation {state after : State K X W}
    (formed : Formed state) (reviewed : Reviewed rules state) {depth : Nat}
    {op : Operation K X} (allowed : ReviewProper rules state (.apply depth op))
    (returns : applyOperation rules depth op state = .ok after) :
    Reviewed rules after := by
  have invariant := reviewed_invariant rules
  have kept := invariant.carried.applyOperation depth op ⟨formed, reviewed⟩ ?_
  · rw [returns] at kept
    exact kept.2
  intro o p world isUpdate evaluated
  subst isUpdate
  obtain ⟨member, sameId⟩ := mem_of_find (evaluateUpdate_eq_ok evaluated).1
  have permitted := allowed p member sameId
  obtain ⟨formedPaid, reviewedPaid⟩ :=
    invariant.world state world ⟨formed, reviewed⟩
  refine ⟨⟨formedPaid.withApprovals member, ?_⟩, ?_⟩
  · refine reviewedPaid.withApprovals formedPaid evaluated ?_
    intro committee start inReview begun
    obtain ⟨same, review, noKeys⟩ := permitted committee
    rw [review] at inReview
    cases inReview
    exact noKeys begun
  · intro noReview committee
    obtain ⟨start, review, _⟩ := permitted committee
    rw [noReview] at review
    cases review

theorem Reviewed.clearExpiredProposals
    {state after : State K X W} (formed : Formed state)
    (reviewed : Reviewed rules state) {depth rounds : Nat}
    (allowed : ReviewProper rules state (.clearExpired depth rounds))
    (returns : clearExpiredProposals rules depth rounds state = .ok after) :
    Reviewed rules after := by
  have kept :=
    ((reviewed_invariant rules).evolves state).carried.clearExpiredProposals
      depth rounds ?_ ⟨⟨formed, reviewed⟩, Evolves.refl state⟩
  · rw [returns] at kept
    exact kept.1.2
  -- What the loop finds expired had expired when it began.
  intro middle q stored keepsMiddle past committee
  obtain ⟨_, evolves⟩ := keepsMiddle
  refine ⟨?_, past⟩
  rcases evolves.origin q stored with ⟨p, member, same⟩ | ⟨_, later⟩
  · rw [reviewPeriodTime_of_bare same]
    refine allowed p member ?_ (committee_of_bare same committee)
    rw [← ProposalObject.expirationTime_of_bare same, ← evolves.time]
    exact past
  · exact absurd past (UInt32.not_le.mpr later)

theorem Reviewed.step {rules : Rules K X W} {state after : State K X W}
    {action : Action K X W} (formed : Formed state)
    (reviewed : Reviewed rules state)
    (allowed : ReviewProper rules state action)
    (steps : Step rules state action after) : Reviewed rules after := by
  cases steps with
  | apply depth op returns =>
      exact reviewed.applyOperation formed allowed returns
  | clearExpired depth rounds returns =>
      exact reviewed.clearExpiredProposals formed allowed returns
  | advance later =>
      exact ⟨reviewed.closed, reviewed.longEnough, reviewed.approvedEarlier,
        reviewed.executedGone, reviewed.afterReview⟩
  | elsewhere => exact (kept_reviewed rules).world state _ reviewed
  | undo after => exact reviewed.undo after

theorem Run.reviewed {state : State K X W}
    (run : Run rules (ReviewProper rules) state) : Reviewed rules state := by
  induction run with
  | start time world => constructor <;> simp
  | step reached allowed steps ih =>
      exact ih.step reached.formed allowed steps

/-- In every run whose steps are proper, what the committee has to authorize is
executed at its expiration, after the review period. -/
theorem committee_executed_after_review {rules : Rules K X W}
    {state : State K X W} (run : Run rules (ReviewProper rules) state)
    (p : ProposalObject K X) (time : Time)
    (executed : .executed p time ∈ state.log)
    (committee : Committee rules p) :
    AfterReview state.log p time :=
  run.reviewed.afterReview p time executed committee

end Runs

section Sample

def committeeProposal (review : Option UInt32) : Operation Nat AccountId :=
  .proposalCreate ⟨0, 1⟩ 7 [.other GRAPHENE_COMMITTEE_ACCOUNT] 2001000 review

def proposedChain (review : Option UInt32) : State Nat AccountId Unit :=
  (applyOperation plainRules 1 (committeeProposal review) plainChain).state

def approvedChain (review : Option UInt32) : State Nat AccountId Unit :=
  (applyOperation plainRules 2 (.proposalUpdate (approvalBy 7 0))
    (proposedChain review)).state

/-- The proposal has expired and is executed. -/
def executedChain : State Nat AccountId Unit :=
  (clearExpiredProposals plainRules 1 2
    { approvedChain (some 1209600) with headBlockTime := 2001000 }).state

theorem executedChain_reached :
    Run plainRules (ReviewProper plainRules) executedChain := by
  have proposed :
      Run plainRules (ReviewProper plainRules)
        (proposedChain (some 1209600)) := by
    refine .step (.start 1000 ()) ?_
      (.apply 1 (committeeProposal (some 1209600)) rfl)
    trivial
  have approved :
      Run plainRules (ReviewProper plainRules)
        (approvedChain (some 1209600)) := by
    refine .step proposed ?_
      (.apply 2 (.proposalUpdate (approvalBy 7 0)) rfl)
    intro p member _ _
    obtain rfl := List.mem_singleton.mp member
    exact ⟨_, rfl, fun _ => rfl⟩
  have expired :
      Run plainRules (ReviewProper plainRules)
        { approvedChain (some 1209600) with headBlockTime := 2001000 } := by
    refine .step approved ?_ (.advance (by decide))
    trivial
  refine .step expired ?_ (.clearExpired 1 2 rfl)
  intro p member _ _
  obtain rfl := List.mem_singleton.mp member
  rfl

theorem executedChain_after_review :
    ∃ p, .executed p 2001000 ∈ executedChain.log ∧
      Committee plainRules p ∧ AfterReview executedChain.log p 2001000 := by
  refine ⟨_, List.mem_cons_self, ?committee,
    committee_executed_after_review executedChain_reached _ _
      List.mem_cons_self ?committee⟩
  exact List.mem_cons_self

def keyApproval : ProposalUpdateOperation Nat :=
  { approvalBy 7 0 with
    activeApprovalsToAdd := []
    keyApprovalsToAdd := [7] }

def keyApprovedChain : State Nat AccountId Unit :=
  (applyOperation plainRules 1 (.proposalUpdate keyApproval)
    { proposedChain (some 1209600) with headBlockTime := 1000000 }).state

def keyExecutedChain : State Nat AccountId Unit :=
  (clearExpiredProposals plainRules 1 2
    { keyApprovedChain with headBlockTime := 2001000 }).state

theorem keyExecutedChain_reached :
    Run plainRules (fun _ _ => True) keyExecutedChain := by
  have proposed :
      Run plainRules (fun _ _ => True) (proposedChain (some 1209600)) :=
    .step (.start 1000 ()) trivial
      (.apply 1 (committeeProposal (some 1209600)) rfl)
  have inReview :
      Run plainRules (fun _ _ => True)
        { proposedChain (some 1209600) with headBlockTime := 1000000 } :=
    .step proposed trivial (.advance (by decide))
  have approved : Run plainRules (fun _ _ => True) keyApprovedChain :=
    .step inReview trivial (.apply 1 (.proposalUpdate keyApproval) rfl)
  have expired :
      Run plainRules (fun _ _ => True)
        { keyApprovedChain with headBlockTime := 2001000 } :=
    .step approved trivial (.advance (by decide))
  exact .step expired trivial (.clearExpired 1 2 rfl)

/-- Without a review period the proposal is executed by the update that
approves it, long before its expiration; with one, a key may be added in it. -/
theorem unreviewed_executions :
    (∃ state p, Run plainRules (fun _ _ => True) state ∧
      .executed p 1000 ∈ state.log ∧ Committee plainRules p ∧
      p.expirationTime = 2001000 ∧ ¬ AfterReview state.log p 1000) ∧
    ∃ state p, Run plainRules (fun _ _ => True) state ∧
      .executed p 2001000 ∈ state.log ∧ Committee plainRules p ∧
      p.reviewPeriodTime = some 791400 ∧
      .approved p.id 1000000 ∈ state.log ∧
      ¬ AfterReview state.log p 2001000 := by
  refine ⟨⟨approvedChain none, _, ?_, List.mem_cons_self, List.mem_cons_self,
    rfl, ?_⟩, keyExecutedChain, _, keyExecutedChain_reached,
    List.mem_cons_self, List.mem_cons_self, rfl, ?approved, ?_⟩
  · have proposed :
        Run plainRules (fun _ _ => True) (proposedChain none) :=
      .step (.start 1000 ()) trivial
        (.apply 1 (committeeProposal none) rfl)
    exact .step proposed trivial
      (.apply 2 (.proposalUpdate (approvalBy 7 0)) rfl)
  · rintro ⟨start, minimum, review, _⟩
    cases review
  · exact List.mem_cons_of_mem _ (List.mem_cons_of_mem _ List.mem_cons_self)
  · rintro ⟨start, minimum, review, _, _, _, early⟩
    cases review
    exact absurd
      (early 1000000
        (List.mem_cons_of_mem _ (List.mem_cons_of_mem _ List.mem_cons_self)))
      (by decide)

end Sample

end GxbCore.Proposal
