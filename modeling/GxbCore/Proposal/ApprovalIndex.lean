import GxbCore.Lib.Memberships
import GxbCore.Proposal.Runs

/-!
# The approval index

`required_approval_index` maps an account to the proposals that it approves or
has to approve.  It is a secondary index: it is told of the proposals that are
inserted and removed, also by an undo, but it does nothing when a proposal is
modified.  So it follows the proposals as long as the updates only add approvals
of accounts whose approval is required.
-/

namespace GxbCore.Proposal

open GxbCore.Ledger (Asset Time)

variable {K X W : Type}

section Hooks

/-- `_account_to_proposals`: the pairs of an account and a proposal in its set.
An account with an empty set is not in the map. -/
abbrev AccountToProposals :=
  Memberships AccountId ProposalId

/-- `required_approval_index::object_inserted` -/
def objectInserted (p : ProposalObject K X) (index : AccountToProposals) :
    AccountToProposals :=
  let active :=
    Memberships.insertAll p.requiredActiveApprovals.toFinset p.id index
  let owner :=
    Memberships.insertAll p.requiredOwnerApprovals.toFinset p.id active
  let availableActive :=
    Memberships.insertAll p.availableActiveApprovals.toFinset p.id owner
  Memberships.insertAll p.availableOwnerApprovals.toFinset p.id
    availableActive

/-- `required_approval_index::object_removed` -/
def objectRemoved (p : ProposalObject K X) (index : AccountToProposals) :
    AccountToProposals :=
  let active :=
    Memberships.eraseAll p.requiredActiveApprovals.toFinset p.id index
  let owner :=
    Memberships.eraseAll p.requiredOwnerApprovals.toFinset p.id active
  let availableActive :=
    Memberships.eraseAll p.availableActiveApprovals.toFinset p.id owner
  Memberships.eraseAll p.availableOwnerApprovals.toFinset p.id
    availableActive

def ProposalObject.required (p : ProposalObject K X) : Finset AccountId :=
  p.requiredActiveApprovals.toFinset ∪ p.requiredOwnerApprovals.toFinset

/-- The accounts in the required or available active or owner approvals. -/
def ProposalObject.approvers (p : ProposalObject K X) : Finset AccountId :=
  p.required ∪
    (p.availableActiveApprovals.toFinset ∪
      p.availableOwnerApprovals.toFinset)

theorem ProposalObject.required_of_bare {p q : ProposalObject K X}
    (same : q.bare = p.bare) : q.required = p.required := by
  have active := congrArg ProposalObject.requiredActiveApprovals same
  have owner := congrArg ProposalObject.requiredOwnerApprovals same
  change q.requiredActiveApprovals = p.requiredActiveApprovals at active
  change q.requiredOwnerApprovals = p.requiredOwnerApprovals at owner
  rw [ProposalObject.required, ProposalObject.required, active, owner]

variable {p : ProposalObject K X} {index : AccountToProposals}
  {account : AccountId} {id : ProposalId}

theorem mem_objectInserted :
    (account, id) ∈ objectInserted p index ↔
      (account, id) ∈ index ∨ id = p.id ∧ account ∈ p.approvers := by
  simp only [objectInserted, Memberships.insertAll, Finset.mem_union,
    Finset.mem_image, Prod.mk.injEq, ProposalObject.approvers,
    ProposalObject.required]
  grind

theorem mem_objectRemoved :
    (account, id) ∈ objectRemoved p index ↔
      (account, id) ∈ index ∧ ¬ (id = p.id ∧ account ∈ p.approvers) := by
  simp only [objectRemoved, Memberships.eraseAll, Finset.mem_sdiff,
    Finset.mem_union, Finset.mem_image, Prod.mk.injEq,
    ProposalObject.approvers, ProposalObject.required]
  grind

end Hooks

section Indexed

/-- The state with the index over its proposals. -/
structure Indexed (K X W : Type) where
  state : State K X W
  accountToProposals : AccountToProposals

namespace Indexed

/-- The chain without proposals. -/
def start (time : Time) (world : W) : Indexed K X W where
  state :=
    { proposals := [], nextProposalId := 0, nextNode := 0,
      headBlockTime := time, world := world, log := [] }
  accountToProposals := ∅

/-- The approvals of an update are noted: the index does not hear of it. -/
def approved [DecidableEq K] (indexed : Indexed K X W)
    (o : ProposalUpdateOperation K) (p : ProposalObject K X) :
    Indexed K X W :=
  { indexed with state := indexed.state.withApprovals o p }

def missing (state other : State K X W) : List (ProposalObject K X) :=
  state.proposals.filter fun p => other.proposals.all fun q => q.id ≠ p.id

/-- `undo_database::undo` of everything since `before`: the new proposals are
removed, as they are by now, and the removed ones are inserted, as they
were. -/
def undo (before after : Indexed K X W) : Indexed K X W where
  state := before.state.undo after.state
  accountToProposals :=
    (missing before.state after.state).foldl
      (fun index p => objectInserted p index)
      ((missing after.state before.state).foldl
        (fun index p => objectRemoved p index) after.accountToProposals)

/-- The index maps each account to exactly the ids of the stored proposals in
which it appears. -/
def Exact (indexed : Indexed K X W) : Prop :=
  ∀ account id,
    (account, id) ∈ indexed.accountToProposals ↔
      ∃ p ∈ indexed.state.proposals, p.id = id ∧ account ∈ p.approvers

variable {account : AccountId} {id : ProposalId}
  {proposals : List (ProposalObject K X)}

theorem mem_foldl_objectInserted {index : AccountToProposals} :
    (account, id) ∈
        proposals.foldl (fun index p => objectInserted p index) index ↔
      (account, id) ∈ index ∨
        ∃ p ∈ proposals, p.id = id ∧ account ∈ p.approvers := by
  induction proposals generalizing index with
  | nil => simp
  | cons p rest ih =>
      rw [List.foldl_cons, ih, mem_objectInserted,
        List.exists_mem_cons_iff, or_assoc, eq_comm]

theorem mem_foldl_objectRemoved {index : AccountToProposals} :
    (account, id) ∈
        proposals.foldl (fun index p => objectRemoved p index) index ↔
      (account, id) ∈ index ∧
        ¬ ∃ p ∈ proposals, p.id = id ∧ account ∈ p.approvers := by
  induction proposals generalizing index with
  | nil => simp
  | cons p rest ih =>
      rw [List.foldl_cons, ih, mem_objectRemoved,
        List.exists_mem_cons_iff, not_or, and_assoc, eq_comm]

theorem mem_missing {state other : State K X W} {p : ProposalObject K X} :
    p ∈ missing state other ↔
      p ∈ state.proposals ∧ ∀ q ∈ other.proposals, q.id ≠ p.id := by
  simp [missing]

end Indexed

end Indexed

section Calls

variable [DecidableEq K]

/-- The calls that the evaluators make on the proposals, with the updates that
are allowed, and the undo of any of them. -/
inductive Calls (rules : Rules K X W)
    (allows : ProposalObject K X → ProposalUpdateOperation K → Prop) :
    Indexed K X W → Indexed K X W → Prop
  | refl (first : Indexed K X W) : Calls rules allows first first
  | elsewhere {first indexed : Indexed K X W} (world : W) (time : Time)
      (reached : Calls rules allows first indexed) :
      Calls rules allows first
        { indexed with
          state :=
            { indexed.state with world := world, headBlockTime := time } }
  /-- `push_proposal` notes what it has executed. -/
  | executed {first indexed : Indexed K X W} (p : ProposalObject K X) (time : Time)
      (reached : Calls rules allows first indexed) :
      Calls rules allows first
        { indexed with state := indexed.state.note (.executed p time) }
  /-- `proposal_create_evaluator::do_apply` -/
  | created {first indexed : Indexed K X W} (period : UInt32)
      (proposedOps : List (Operation K X)) (expirationTime : Time)
      (review : Option UInt32)
      (reached : Calls rules allows first indexed)
      (evaluated :
        evaluateCreate rules indexed.state proposedOps expirationTime
          review = .ok ()) :
      Calls rules allows first
        { state :=
            applyCreate rules period proposedOps expirationTime review
              indexed.state
          accountToProposals :=
            objectInserted
              { proposalOf rules proposedOps expirationTime review with
                id := indexed.state.nextProposalId
                node := indexed.state.nextNode }
              indexed.accountToProposals }
  /-- `proposal_update_evaluator::do_apply`, before the execution -/
  | approved {first indexed : Indexed K X W} (o : ProposalUpdateOperation K)
      (p : ProposalObject K X) (reached : Calls rules allows first indexed)
      (evaluated : evaluateUpdate indexed.state o = .ok p)
      (allowed : allows p o) :
      Calls rules allows first (indexed.approved o p)
  /-- by a deletion, by the end of an execution or by expiry -/
  | removed {first indexed : Indexed K X W} (p : ProposalObject K X)
      (reached : Calls rules allows first indexed)
      (member : p ∈ indexed.state.proposals) :
      Calls rules allows first
        { state := indexed.state.without p.id
          accountToProposals := objectRemoved p indexed.accountToProposals }
  | undone {first before after : Indexed K X W}
      (reached : Calls rules allows first before)
      (since : Calls rules allows before after) :
      Calls rules allows first (before.undo after)

/-- The update adds active and owner approvals only of accounts whose approval
is required. -/
def AddsRequired (p : ProposalObject K X) (o : ProposalUpdateOperation K) :
    Prop :=
  ∀ account ∈ o.activeApprovalsToAdd ++ o.ownerApprovalsToAdd,
    account ∈ p.required

instance (p : ProposalObject K X) (o : ProposalUpdateOperation K) :
    Decidable (AddsRequired p o) :=
  inferInstanceAs (Decidable (∀ account ∈ _, account ∈ p.required))

end Calls

section Follows

/-- The proposals of the second state are those of the first, up to their
approvals, or have new ids. -/
structure Descends (before after : State K X W) : Prop where
  next : before.nextProposalId ≤ after.nextProposalId
  origin :
    ∀ q ∈ after.proposals,
      (∃ p ∈ before.proposals, q.bare = p.bare) ∨
        before.nextProposalId ≤ q.id

namespace Descends

variable {before middle after : State K X W}

theorem trans (first : Descends before middle)
    (second : Descends middle after) :
    Descends before after where
  next := Nat.le_trans first.next second.next
  origin r member := by
    rcases second.origin r member with ⟨q, inMiddle, same⟩ | new
    · rcases first.origin q inMiddle with ⟨p, inBefore, again⟩ | new
      · exact .inl ⟨p, inBefore, same.trans again⟩
      · exact .inr (ProposalObject.id_of_bare same ▸ new)
    · exact .inr (Nat.le_trans first.next new)

theorem of_evolves (evolves : Evolves before after) :
    Descends before after where
  next := evolves.next
  origin q member := (evolves.origin q member).imp_right And.left

/-- What is stored under the id of an earlier proposal is that proposal, up to
its approvals. -/
theorem bare_of_id (descends : Descends before after) (formed : Formed before)
    {p q : ProposalObject K X} (member : p ∈ before.proposals)
    (stored : q ∈ after.proposals) (same : q.id = p.id) : q.bare = p.bare := by
  rcases descends.origin q stored with ⟨r, inBefore, sameBare⟩ | new
  · exact formed.bare_of_origin member inBefore sameBare same
  · exact absurd (formed.earlier p member) (Nat.not_lt.mpr (same ▸ new))

end Descends

variable [DecidableEq K] {rules : Rules K X W}
  {allows : ProposalObject K X → ProposalUpdateOperation K → Prop}
  {first indexed : Indexed K X W}

theorem Calls.descends (calls : Calls rules allows first indexed) :
    Descends first.state indexed.state := by
  induction calls with
  | refl first => exact .of_evolves (Evolves.refl first.state)
  | elsewhere world time _ ih =>
      exact ⟨ih.next, ih.origin⟩
  | executed p time _ ih =>
      exact ⟨ih.next, ih.origin⟩
  | created period ops expirationTime review _ evaluated ih =>
      exact ih.trans (.of_evolves
        (Evolves.create _ period (evaluateCreate_noUpdates evaluated).1))
  | approved o p _ evaluated _ ih =>
      have member := (mem_of_find (evaluateUpdate_eq_ok evaluated).1).1
      refine ih.trans ⟨?_, ?_⟩
      · exact Nat.le_of_eq withApprovals_nextProposalId.symm
      · exact fun q stored => .inl (bare_of_withApprovals member stored)
  | removed p _ _ ih =>
      exact ih.trans
        (.of_evolves (Evolves.without _ p.id))
  | undone _ _ ih _ =>
      exact ih.trans (.of_evolves (Evolves.undo _ _))

theorem Calls.formed (calls : Calls rules allows first indexed)
    (formed : Formed first.state) : Formed indexed.state := by
  induction calls with
  | refl => exact formed
  | elsewhere world time _ ih =>
      have kept := ih formed
      exact ⟨kept.distinct, kept.earlier, kept.noUpdates, kept.removedOnce,
        kept.removedEarlier, kept.removedGone⟩
  | executed p time _ ih =>
      have kept := ih formed
      exact ⟨kept.distinct, kept.earlier, kept.noUpdates, kept.removedOnce,
        kept.removedEarlier, kept.removedGone⟩
  | created period ops expirationTime review _ evaluated ih =>
      exact (ih formed).create
        (evaluateCreate_noUpdates evaluated).2
  | approved o p _ evaluated _ ih =>
      exact (ih formed).withApprovals
        (mem_of_find (evaluateUpdate_eq_ok evaluated).1).1
  | removed p _ member ih =>
      exact (ih formed).without member
  | undone _ _ ih _ =>
      exact (ih formed).undo _

/-- The index is exact, and all available approvals are of accounts whose
approval is required. -/
structure Follows (indexed : Indexed K X W) : Prop where
  formed : Formed indexed.state
  approvers :
    ∀ p ∈ indexed.state.proposals, p.approvers = p.required
  exact : indexed.Exact

namespace Follows

omit [DecidableEq K] in
theorem start (time : Time) (world : W) :
    Follows (Indexed.start time world : Indexed K X W) where
  formed := by
    constructor <;> simp [Indexed.start, removedIds]
  approvers p member := absurd member (List.not_mem_nil)
  exact account id := by simp [Indexed.start]

theorem mem_approve {α : Type} [DecidableEq α] {available add remove : List α}
    {id : α} :
    id ∈ approve available add remove ↔
      (id ∈ available ∨ id ∈ add) ∧ id ∉ remove := by
  have added :
      ∀ set : List α,
        id ∈ add.foldl (fun set id => set.insert id) set ↔
          id ∈ set ∨ id ∈ add := by
    induction add with
    | nil => simp
    | cons head rest ih =>
        intro set
        rw [List.foldl_cons, ih, List.mem_insert_iff,
          List.mem_cons]
        grind
  rw [approve, List.mem_filter, added]
  simp

theorem mem_approvers_applyApprovals {o : ProposalUpdateOperation K}
    {p : ProposalObject K X} {account : AccountId} :
    account ∈ (applyApprovals o p).approvers ↔
      account ∈ p.required ∨
        account ∈
            approve p.availableActiveApprovals o.activeApprovalsToAdd
              o.activeApprovalsToRemove ∨
          account ∈
            approve p.availableOwnerApprovals o.ownerApprovalsToAdd
              o.ownerApprovalsToRemove := by
  simp [ProposalObject.approvers, ProposalObject.required, applyApprovals,
    or_assoc]

variable {p : ProposalObject K X} {o : ProposalUpdateOperation K}

omit [DecidableEq K] in
theorem active_mem_required (follows : Follows indexed)
    (member : p ∈ indexed.state.proposals) (account : AccountId)
    (available : account ∈ p.availableActiveApprovals) :
    account ∈ p.required := by
  rw [← follows.approvers p member]
  simp [ProposalObject.approvers, available]

omit [DecidableEq K] in
theorem owner_mem_required (follows : Follows indexed)
    (member : p ∈ indexed.state.proposals) (account : AccountId)
    (available : account ∈ p.availableOwnerApprovals) :
    account ∈ p.required := by
  rw [← follows.approvers p member]
  simp [ProposalObject.approvers, available]

theorem approvers_applyApprovals (follows : Follows indexed)
    (member : p ∈ indexed.state.proposals) (adds : AddsRequired p o) :
    (applyApprovals o p).approvers = p.required := by
  ext account
  rw [mem_approvers_applyApprovals, mem_approve, mem_approve]
  have active := follows.active_mem_required member account
  have owner := follows.owner_mem_required member account
  have added := adds account
  rw [List.mem_append] at added
  grind

theorem mem_approved
    (member : p ∈ indexed.state.proposals) {q : ProposalObject K X} :
    q ∈ (indexed.approved o p).state.proposals ↔
      q = applyApprovals o p ∨
        q ∈ indexed.state.proposals ∧ q.id ≠ p.id := by
  rw [Indexed.approved, withApprovals_proposals, List.mem_map]
  constructor
  · rintro ⟨r, inState, same⟩
    by_cases changed : r.id = p.id
    · exact .inl (by rw [← same, if_pos changed])
    · rw [if_neg changed] at same
      exact .inr ⟨same ▸ inState, same ▸ changed⟩
  · rintro (rfl | ⟨inState, other⟩)
    · exact ⟨p, member, if_pos rfl⟩
    · exact ⟨q, inState, if_neg other⟩

theorem approved (follows : Follows indexed)
    (evaluated : evaluateUpdate indexed.state o = .ok p)
    (adds : AddsRequired p o) : Follows (indexed.approved o p) := by
  have member := (mem_of_find (evaluateUpdate_eq_ok evaluated).1).1
  have same := follows.approvers_applyApprovals member adds
  refine ⟨follows.formed.withApprovals member, ?_, ?_⟩
  · intro q stored
    rcases (mem_approved member).mp stored with rfl | ⟨stays, _⟩
    · exact same
    · exact follows.approvers q stays
  · intro account id
    refine (follows.exact account id).trans ?_
    constructor
    · rintro ⟨q, stored, sameId, appears⟩
      by_cases changed : q.id = p.id
      · have isUpdated : q = p :=
          List.inj_on_of_nodup_map follows.formed.distinct stored member
            changed
        refine ⟨applyApprovals o p,
          (mem_approved member).mpr (.inl rfl), ?_, ?_⟩
        · exact changed.symm.trans sameId
        · rw [same, ← follows.approvers p member, ← isUpdated]
          exact appears
      · exact ⟨q, (mem_approved member).mpr (.inr ⟨stored, changed⟩),
          sameId, appears⟩
    · rintro ⟨q, stored, sameId, appears⟩
      rcases (mem_approved member).mp stored with rfl | ⟨stays, _⟩
      · refine ⟨p, member, sameId, ?_⟩
        rw [follows.approvers p member, ← same]
        exact appears
      · exact ⟨q, stays, sameId, appears⟩

/-- An update that adds the approval of another account leaves the index
inexact. -/
theorem adds_of_exact (follows : Follows indexed)
    (evaluated : evaluateUpdate indexed.state o = .ok p)
    (exact : (indexed.approved o p).Exact) : AddsRequired p o := by
  obtain ⟨found, _, activeThere, ownerThere⟩ :=
    evaluateUpdate_eq_ok evaluated
  have member := (mem_of_find found).1
  have appears :
      ∀ account ∈ (applyApprovals o p).approvers, account ∈ p.required := by
    intro account appears
    obtain ⟨q, stored, sameId, inQ⟩ :=
      (follows.exact account p.id).mp ((exact account p.id).mpr
        ⟨applyApprovals o p, (mem_approved member).mpr (.inl rfl),
          rfl, appears⟩)
    have isUpdated : q = p :=
      List.inj_on_of_nodup_map follows.formed.distinct stored member sameId
    rw [← follows.approvers p member, ← isUpdated]
    exact inQ
  intro account added
  by_cases taken :
      account ∈ o.activeApprovalsToRemove ∨
        account ∈ o.ownerApprovalsToRemove
  · -- What is removed was available before.
    rcases taken with active | owner
    · exact follows.active_mem_required member account
        (activeThere account active)
    · exact follows.owner_mem_required member account
        (ownerThere account owner)
  · refine appears account ?_
    rw [mem_approvers_applyApprovals, mem_approve, mem_approve]
    rw [List.mem_append] at added
    grind

omit [DecidableEq K] in
theorem without (follows : Follows indexed)
    (member : p ∈ indexed.state.proposals) :
    Follows
      { state := indexed.state.without p.id
        accountToProposals :=
          objectRemoved p indexed.accountToProposals } where
  formed := follows.formed.without member
  approvers q stays := follows.approvers q (List.mem_of_mem_filter stays)
  exact account id := by
    rw [mem_objectRemoved, follows.exact account id]
    constructor
    · rintro ⟨⟨q, stored, sameId, appears⟩, spared⟩
      refine ⟨q, List.mem_filter.mpr ⟨stored, ?_⟩, sameId, appears⟩
      refine decide_eq_true fun gone => spared ?_
      have isGone : q = p :=
        List.inj_on_of_nodup_map follows.formed.distinct stored member gone
      exact ⟨sameId ▸ gone, isGone ▸ appears⟩
    · rintro ⟨q, stays, sameId, appears⟩
      obtain ⟨stored, other⟩ := List.mem_filter.mp stays
      refine ⟨⟨q, stored, sameId, appears⟩, ?_⟩
      rintro ⟨gone, _⟩
      exact of_decide_eq_true other (sameId.trans gone)

theorem created (follows : Follows indexed) (period : UInt32)
    {proposedOps : List (Operation K X)} {expirationTime : Time}
    {review : Option UInt32}
    (evaluated :
      evaluateCreate rules indexed.state proposedOps expirationTime
        review = .ok ()) :
    Follows
      { state :=
          applyCreate rules period proposedOps expirationTime review
            indexed.state
        accountToProposals :=
          objectInserted
            { proposalOf rules proposedOps expirationTime review with
              id := indexed.state.nextProposalId
              node := indexed.state.nextNode }
            indexed.accountToProposals } where
  formed := follows.formed.create (evaluateCreate_noUpdates evaluated).2
  approvers := by
    refine forall_concat follows.approvers ?_
    simp [ProposalObject.approvers, proposalOf]
  exact account id := by
    rw [mem_objectInserted, follows.exact account id]
    change _ ↔ ∃ q ∈ _ ++ [_], _
    simp only [List.mem_append, List.mem_singleton, or_and_right, exists_or,
      exists_eq_left]
    rw [eq_comm]

omit [DecidableEq K] in
theorem undo {before after : Indexed K X W} (earlier : Follows before)
    (later : Follows after) (descends : Descends before.state after.state) :
    Follows (before.undo after) where
  formed := earlier.formed.undo after.state
  approvers q stored := by
    obtain ⟨p, inBefore, node, rfl⟩ := mem_undo stored
    exact earlier.approvers p inBefore
  exact account id := by
    have restored :
        (∃ q ∈ (before.undo after).state.proposals,
            q.id = id ∧ account ∈ q.approvers) ↔
          ∃ p ∈ before.state.proposals,
            p.id = id ∧ account ∈ p.approvers := by
      constructor
      · rintro ⟨q, stored, sameId, appears⟩
        obtain ⟨p, inBefore, node, rfl⟩ := mem_undo stored
        exact ⟨p, inBefore, sameId, appears⟩
      · rintro ⟨p, inBefore, sameId, appears⟩
        obtain ⟨node, stored⟩ := undo_mem after.state inBefore
        exact ⟨_, stored, sameId, appears⟩
    -- A proposal that is there before and after has the same approvers.
    have same :
        ∀ p ∈ before.state.proposals, ∀ q ∈ after.state.proposals,
          q.id = p.id → q.approvers = p.approvers := by
      intro p inBefore q inAfter sameId
      rw [earlier.approvers p inBefore, later.approvers q inAfter]
      exact ProposalObject.required_of_bare
        (descends.bare_of_id earlier.formed inBefore inAfter sameId)
    rw [restored, Indexed.undo, Indexed.mem_foldl_objectInserted,
      Indexed.mem_foldl_objectRemoved, later.exact account id]
    constructor
    · rintro (⟨⟨q, inAfter, sameId, appears⟩, spared⟩ |
        ⟨p, isMissing, sameId, appears⟩)
      · by_contra absent
        apply spared
        refine ⟨q, Indexed.mem_missing.mpr ⟨inAfter, ?_⟩, sameId, appears⟩
        intro p inBefore again
        exact absent ⟨p, inBefore, again.trans sameId,
          same p inBefore q inAfter again.symm ▸ appears⟩
      · exact ⟨p, (Indexed.mem_missing.mp isMissing).1, sameId, appears⟩
    · rintro ⟨p, inBefore, sameId, appears⟩
      by_cases stays : ∃ q ∈ after.state.proposals, q.id = p.id
      · obtain ⟨q, inAfter, again⟩ := stays
        refine .inl ⟨⟨q, inAfter, again.trans sameId,
          same p inBefore q inAfter again ▸ appears⟩, ?_⟩
        rintro ⟨r, isMissing, thisId, _⟩
        exact (Indexed.mem_missing.mp isMissing).2 p inBefore
          (sameId.trans thisId.symm)
      · refine .inr ⟨p, Indexed.mem_missing.mpr ⟨inBefore, ?_⟩, sameId,
          appears⟩
        intro q inAfter again
        exact stays ⟨q, inAfter, again⟩

end Follows

/-- Whatever is called, the index follows the proposals, if the updates add
required approvals. -/
theorem Calls.follows (calls : Calls rules AddsRequired first indexed)
    (follows : Follows first) : Follows indexed := by
  induction calls with
  | refl => exact follows
  | elsewhere world time reached ih =>
      have kept := ih follows
      exact ⟨(reached.elsewhere world time).formed follows.formed,
        kept.approvers, kept.exact⟩
  | executed p time reached ih =>
      have kept := ih follows
      exact ⟨(reached.executed p time).formed follows.formed,
        kept.approvers, kept.exact⟩
  | created period ops expirationTime review _ evaluated ih =>
      exact (ih follows).created period evaluated
  | approved o p _ evaluated allowed ih =>
      exact (ih follows).approved evaluated allowed
  | removed p _ member ih =>
      exact (ih follows).without member
  | undone _ since ih sinceHypothesis =>
      have earlier := ih follows
      exact earlier.undo (sinceHypothesis earlier) since.descends

end Follows

section Steps

variable [DecidableEq K] {rules : Rules K X W}
  {allows : ProposalObject K X → ProposalUpdateOperation K → Prop}
  {first indexed : Indexed K X W}

theorem Calls.trans {middle : Indexed K X W}
    (earlier : Calls rules allows first middle)
    (later : Calls rules allows middle indexed) :
    Calls rules allows first indexed := by
  induction later with
  | refl => exact earlier
  | elsewhere world time _ ih =>
      exact (ih earlier).elsewhere world time
  | executed p time _ ih =>
      exact (ih earlier).executed p time
  | created period ops expirationTime review _ evaluated ih =>
      exact (ih earlier).created period ops expirationTime
        review evaluated
  | approved o p _ evaluated allowed ih =>
      exact (ih earlier).approved o p evaluated allowed
  | removed p _ member ih =>
      exact (ih earlier).removed p member
  | undone _ since ih _ =>
      exact (ih earlier).undone since

variable (rules allows first) in
/-- The calls lead to this state, whatever the index is then. -/
def CallsTo (state : State K X W) : Prop :=
  ∃ index, Calls rules allows first ⟨state, index⟩

theorem keptByEffects_callsTo :
    KeptByEffects rules (CallsTo rules allows first) where
  world := by
    rintro state world ⟨index, calls⟩
    exact ⟨index, calls.elsewhere world state.headBlockTime⟩
  created := by
    rintro state ops expirationTime review ⟨index, calls⟩ evaluated
    exact ⟨_, calls.created _ ops expirationTime review evaluated⟩
  removed := by
    rintro state p member ⟨index, calls⟩
    exact ⟨_, calls.removed p member⟩

theorem carried_callsTo (formed : Formed first.state) :
    Carried rules (CallsTo rules allows first)
      (fun start state => ∀ index, CallsTo rules allows ⟨start, index⟩ state)
      fun _ _ => True where
  toKeptByEffects := keptByEffects_callsTo
  formed := by
    rintro state ⟨index, calls⟩
    exact calls.formed formed
  leadsRefl state index := ⟨index, .refl _⟩
  leadsEffects start :=
    { world := fun state world led index =>
        keptByEffects_callsTo.world state world (led index)
      created := fun state ops expirationTime review led evaluated index =>
        keptByEffects_callsTo.created state ops expirationTime review
          (led index) evaluated
      removed := fun state p member led index =>
        keptByEffects_callsTo.removed state p member (led index) }
  undone := by
    rintro before after ⟨index, calls⟩ led
    obtain ⟨later, since⟩ := led index
    exact ⟨_, calls.undone since⟩
  executed := by
    rintro start middle p member q stored ⟨index, calls⟩ _ led same _
    obtain ⟨later, since⟩ := led index
    have removed := (calls.trans since).removed q stored
    rw [ProposalObject.id_of_bare same] at removed
    exact ⟨_, removed.executed p middle.headBlockTime⟩

/-- An operation makes calls, whether it returns or throws. -/
theorem applyOperation_callsTo (formed : Formed first.state) (depth : Nat)
    (op : Operation K X)
    (allowed :
      ∀ o p, op = .proposalUpdate o →
        evaluateUpdate first.state o = .ok p → allows p o) :
    CallsTo rules allows first
      (applyOperation rules depth op first.state).state := by
  refine (carried_callsTo formed).applyOperation depth op
    ⟨_, .refl first⟩ ?_
  intro o p world isUpdate evaluated
  have paid : Calls rules allows first _ :=
    (Calls.refl first).elsewhere world first.state.headBlockTime
  exact ⟨⟨_, paid.approved o p evaluated (allowed o p isUpdate evaluated)⟩,
    fun _ => trivial⟩

theorem clearExpiredProposals_callsTo (formed : Formed first.state)
    (depth rounds : Nat) :
    CallsTo rules allows first
      (clearExpiredProposals rules depth rounds first.state).state :=
  (carried_callsTo formed).clearExpiredProposals depth rounds
    (fun _ _ _ _ _ => trivial) ⟨_, .refl first⟩

end Steps

section Exact

variable [DecidableEq K] {rules : Rules K X W}

/-- After any calls in which the updates add required approvals the index maps
each account to exactly the proposals in which it appears; and the next update
leaves it so exactly if it adds required approvals. -/
theorem approval_index_exact {time : Time} {world : W}
    {indexed : Indexed K X W}
    (reached : Calls rules AddsRequired (.start time world) indexed) :
    indexed.Exact ∧
      ∀ o p, evaluateUpdate indexed.state o = .ok p →
        ((indexed.approved o p).Exact ↔ AddsRequired p o) := by
  have follows := reached.follows (.start time world)
  refine ⟨follows.exact, ?_⟩
  intro o p evaluated
  exact ⟨follows.adds_of_exact evaluated,
    fun adds => (follows.approved evaluated adds).exact⟩

def indexedProposal (account : AccountId) : ProposalObject Nat AccountId :=
  { proposalOf plainRules [.other account] 2000 none with
    id := 0
    node := 0 }

/-- The chain after that proposal has been created. -/
def indexedChain (account : AccountId) : Indexed Nat AccountId Unit where
  state :=
    applyCreate plainRules 1209600 [.other account] 2000 none plainChain
  accountToProposals := objectInserted (indexedProposal account) ∅

theorem indexedChain_reached
    (allows :
      ProposalObject Nat AccountId → ProposalUpdateOperation Nat → Prop) :
    Calls plainRules allows (.start 1000 ()) (indexedChain 8) :=
  .created 1209600 [.other 8] 2000 none (.refl _) rfl

theorem approval_index_exact_required :
    ((indexedChain 8).approved (approvalBy 8 0) (indexedProposal 8)).Exact :=
  ((approval_index_exact (indexedChain_reached AddsRequired)).2
    (approvalBy 8 0) (indexedProposal 8) rfl).mpr (by decide)

/-- Account 7 approves a proposal that needs the approval of account 8: the
evaluator accepts it, and the index does not hear of it. -/
theorem approval_index_misses_approval :
    applyOperation plainRules 1 (.proposalUpdate (approvalBy 7 0))
        (indexedChain 8).state =
      .ok
        ((indexedChain 8).approved (approvalBy 7 0)
          (indexedProposal 8)).state ∧
    ¬ ∀ indexed : Indexed Nat AccountId Unit,
        Calls plainRules (fun _ _ => True) (.start 1000 ()) indexed →
          indexed.Exact := by
  refine ⟨rfl, ?_⟩
  intro exact
  have listed :=
    (exact _ ((indexedChain_reached fun _ _ => True).approved
      (approvalBy 7 0) (indexedProposal 8) rfl trivial) 7 0).mpr
      ⟨applyApprovals (approvalBy 7 0) (indexedProposal 8),
        List.mem_singleton.mpr rfl, rfl, by decide⟩
  exact absurd listed (by decide)

end Exact

end GxbCore.Proposal
