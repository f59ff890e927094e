import GxbCore.Lib.Rows
import GxbCore.Proposal.Effects

/-!
# The execution of a proposal

What creating, removing and undoing keep, the execution of a proposal keeps.
Every execution evolves the proposals: none is lost without being noted as
removed, and those that are new have not expired.  Where the proposal does not
delete itself, its execution comes to an end.
-/

namespace GxbCore.Proposal

open GxbCore.Protocol
open GxbCore.Ledger (Asset Time)

variable {K X W : Type}

section Kept

variable [DecidableEq K]

/-- What the operations of an execution keep. -/
structure KeptByEffects (rules : Rules K X W) (keeps : State K X W → Prop) :
    Prop where
  world : ∀ state world, keeps state → keeps { state with world := world }
  created :
    ∀ state proposedOps expirationTime review, keeps state →
      evaluateCreate rules state proposedOps expirationTime review =
        .ok () →
      keeps
        (applyCreate rules (rules.committeeProposalReviewPeriod state.world)
          proposedOps expirationTime review state)
  removed :
    ∀ (state : State K X W), ∀ p ∈ state.proposals, keeps state →
      keeps (state.without p.id)

namespace KeptByEffects

variable {rules : Rules K X W} {keeps : State K X W → Prop}
  {op : Operation K X} {state : State K X W} {p : ProposalObject K X}

theorem effect (kept : KeptByEffects rules keeps) {after : State K X W}
    (effects : Effect rules op state after) (holds : keeps state) :
    keeps after := by
  cases effects with
  | world world => exact kept.world state world holds
  | created world fee payer proposedOps expirationTime review _ evaluated =>
      exact kept.world _ world
        (kept.created state proposedOps expirationTime review holds evaluated)
  | removed world o p _ found =>
      exact kept.world _ world
        (kept.removed state p (mem_of_find found).1 holds)

theorem applyOperation (kept : KeptByEffects rules keeps)
    (notUpdate : op.isUpdate = false) (depth : Nat) (holds : keeps state) :
    keeps (applyOperation rules depth op state).state := by
  cases depth with
  | zero => exact holds
  | succ depth =>
      obtain ⟨after, effects, ends⟩ :=
        evaluate_effect rules (Proposal.applyOperation rules depth) notUpdate
          state
      have keptAfter := kept.effect effects holds
      rcases ends with returned | ⟨message, thrown⟩
      · rw [Proposal.applyOperation, returned]
        exact keptAfter
      · rw [Proposal.applyOperation, thrown]
        exact keptAfter

theorem session (kept : KeptByEffects rules keeps) (depth : Nat)
    (p : ProposalObject K X) {ops : List (Operation K X)}
    (notUpdates : ∀ op ∈ ops, op.isUpdate = false) (holds : keeps state) :
    keeps
      (forEach (pushOperation (Proposal.applyOperation rules depth) p) ops
        state).state := by
  apply forEach_state_keeps _ holds
  intro op member before keepsBefore
  unfold pushOperation
  split
  · exact kept.applyOperation (notUpdates op member) depth keepsBefore
  · exact keepsBefore

theorem and {also : State K X W → Prop} (kept : KeptByEffects rules keeps)
    (keptAlso : KeptByEffects rules also) :
    KeptByEffects rules fun state => keeps state ∧ also state where
  world state world both :=
    ⟨kept.world state world both.1, keptAlso.world state world both.2⟩
  created state ops expirationTime review both evaluated :=
    ⟨kept.created state ops expirationTime review both.1 evaluated,
      keptAlso.created state ops expirationTime review both.2 evaluated⟩
  removed state p member both :=
    ⟨kept.removed state p member both.1,
      keptAlso.removed state p member both.2⟩

end KeptByEffects

/-- What the steps of an execution keep. -/
structure Kept (rules : Rules K X W) (keeps : State K X W → Prop) : Prop where
  world : ∀ state world, keeps state → keeps { state with world := world }
  created :
    ∀ state proposedOps expirationTime review, keeps state →
      evaluateCreate rules state proposedOps expirationTime review =
        .ok () →
      keeps
        (applyCreate rules (rules.committeeProposalReviewPeriod state.world)
          proposedOps expirationTime review state)
  removed :
    ∀ (state : State K X W), ∀ p ∈ state.proposals, keeps state →
      keeps (state.without p.id)
  undone : ∀ before after, keeps before → keeps (before.undo after)

namespace Kept

variable {rules : Rules K X W} {keeps : State K X W → Prop}

theorem byEffects (kept : Kept rules keeps) : KeptByEffects rules keeps :=
  ⟨kept.world, kept.created, kept.removed⟩

theorem and {also : State K X W → Prop} (kept : Kept rules keeps)
    (keptAlso : Kept rules also) :
    Kept rules fun state => keeps state ∧ also state where
  world := (kept.byEffects.and keptAlso.byEffects).world
  created := (kept.byEffects.and keptAlso.byEffects).created
  removed := (kept.byEffects.and keptAlso.byEffects).removed
  undone before after both :=
    ⟨kept.undone before after both.1, keptAlso.undone before after both.2⟩

end Kept

end Kept

section Formed

def removedIds (log : List (Event K X)) : List ProposalId :=
  log.filterMap fun event =>
    match event with
    | .removed id => some id
    | _ => none

@[simp]
theorem removedIds_approved (id : ProposalId) (time : Time)
    (log : List (Event K X)) :
    removedIds (.approved id time :: log) = removedIds log :=
  rfl

/-- Ids are given once, no proposal contains an update, and a removed proposal
is gone for good. -/
structure Formed (state : State K X W) : Prop where
  distinct : (state.proposals.map (·.id)).Nodup
  earlier : ∀ p ∈ state.proposals, p.id < state.nextProposalId
  noUpdates :
    ∀ p ∈ state.proposals, ∀ op ∈ p.operations, op.isUpdate = false
  removedOnce : (removedIds state.log).Nodup
  removedEarlier : ∀ id ∈ removedIds state.log, id < state.nextProposalId
  removedGone : ∀ p ∈ state.proposals, p.id ∉ removedIds state.log

theorem mem_undo {before after : State K X W} {q : ProposalObject K X}
    (member : q ∈ (before.undo after).proposals) :
    ∃ p ∈ before.proposals, ∃ node, q = { p with node := node } := by
  rcases List.mem_append.mp member with stays | again
  · exact ⟨q, List.mem_of_mem_filter stays, q.node, rfl⟩
  · obtain ⟨p, inBefore, same⟩ := List.mem_map.mp again
    exact ⟨p, List.mem_of_mem_filter inBefore, after.nextNode, same.symm⟩

theorem undo_mem {before : State K X W} (after : State K X W)
    {p : ProposalObject K X} (member : p ∈ before.proposals) :
    ∃ node, { p with node := node } ∈ (before.undo after).proposals := by
  by_cases held : after.holds p = true
  · exact ⟨p.node, List.mem_append_left _
      (List.mem_filter.mpr ⟨member, held⟩)⟩
  · refine ⟨after.nextNode, List.mem_append_right _ ?_⟩
    exact List.mem_map.mpr
      ⟨p, List.mem_filter.mpr ⟨member, by simp [held]⟩, rfl⟩

theorem undo_ids (before after : State K X W) :
    ((before.undo after).proposals.map (·.id)).Perm
      (before.proposals.map (·.id)) := by
  have split :=
    List.filter_append_perm (fun p => after.holds p) before.proposals
  have ids := split.map (·.id)
  simpa [State.undo, List.map_append, Function.comp_def] using ids

namespace Formed

variable {state : State K X W} (formed : Formed state)
include formed

theorem without {p : ProposalObject K X} (member : p ∈ state.proposals) :
    Formed (state.without p.id) where
  distinct := formed.distinct.sublist (List.filter_sublist.map _)
  earlier q stays := formed.earlier q (List.mem_of_mem_filter stays)
  noUpdates q stays := formed.noUpdates q (List.mem_of_mem_filter stays)
  removedOnce :=
    List.nodup_cons.mpr ⟨formed.removedGone p member, formed.removedOnce⟩
  removedEarlier id removed := by
    rcases List.mem_cons.mp removed with same | removed
    · exact same ▸ formed.earlier p member
    · exact formed.removedEarlier id removed
  removedGone q stays := by
    obtain ⟨inState, other⟩ := List.mem_filter.mp stays
    refine List.not_mem_cons_of_ne_of_not_mem ?_
      (formed.removedGone q inState)
    simpa using other

theorem undo (after : State K X W) : Formed (state.undo after) where
  distinct := (undo_ids state after).nodup_iff.mpr formed.distinct
  earlier q member := by
    obtain ⟨p, inState, node, rfl⟩ := mem_undo member
    exact formed.earlier p inState
  noUpdates q member := by
    obtain ⟨p, inState, node, rfl⟩ := mem_undo member
    exact formed.noUpdates p inState
  removedOnce := formed.removedOnce
  removedEarlier := formed.removedEarlier
  removedGone q member := by
    obtain ⟨p, inState, node, rfl⟩ := mem_undo member
    exact formed.removedGone p inState

/-- The new proposal has an id that was never given, and no updates. -/
theorem create {p : ProposalObject K X} {period : UInt32}
    (noUpdates : ∀ op ∈ p.operations, op.isUpdate = false) :
    Formed
      ((state.create p).note (.created state.nextProposalId period)) where
  distinct := by
    refine nodup_map_concat formed.distinct ?_
    intro q member same
    exact absurd (formed.earlier q member) (by simp_all)
  earlier := by
    refine forall_concat ?_ (Nat.lt_succ_self _)
    exact fun q member => Nat.lt_succ_of_lt (formed.earlier q member)
  noUpdates := forall_concat formed.noUpdates noUpdates
  removedOnce := formed.removedOnce
  removedEarlier id removed :=
    Nat.lt_succ_of_lt (formed.removedEarlier id removed)
  removedGone := by
    refine forall_concat formed.removedGone ?_
    exact fun removed =>
      Nat.lt_irrefl _ (formed.removedEarlier _ removed)

end Formed

theorem evaluateCreate_noUpdates [DecidableEq K] {rules : Rules K X W}
    {state : State K X W} {proposedOps : List (Operation K X)}
    {expirationTime : Time} {review : Option UInt32}
    (evaluated :
      evaluateCreate rules state proposedOps expirationTime review =
        .ok ()) :
    state.headBlockTime < expirationTime ∧
      ∀ op ∈ proposedOps, op.isUpdate = false := by
  simp only [evaluateCreate, proposalAssert, bind_eq_ok, require_eq_ok]
    at evaluated
  obtain ⟨_, later, _, _, _, _, _, nothing, _⟩ := evaluated
  exact ⟨later, not_isUpdate_of_other nothing⟩

theorem kept_formed [DecidableEq K] (rules : Rules K X W) :
    Kept rules Formed where
  world _ _ formed := ⟨formed.distinct, formed.earlier, formed.noUpdates,
    formed.removedOnce, formed.removedEarlier, formed.removedGone⟩
  created _ _ _ _ formed evaluated :=
    formed.create (evaluateCreate_noUpdates evaluated).2
  removed _ _ member formed := formed.without member
  undone _ after formed := formed.undo after

end Formed

section Evolves

/-- The part of a proposal that no update changes. -/
def ProposalObject.bare (p : ProposalObject K X) : ProposalObject K X :=
  { p with
    node := 0
    availableActiveApprovals := []
    availableOwnerApprovals := []
    availableKeyApprovals := [] }

variable {p q : ProposalObject K X}

theorem ProposalObject.id_of_bare (same : q.bare = p.bare) : q.id = p.id := by
  have fields := congrArg ProposalObject.id same
  exact fields

/-- A proposal that comes from one of the same id is that proposal, up to its
approvals. -/
theorem Formed.bare_of_origin {state : State K X W} (formed : Formed state)
    {p q r : ProposalObject K X} (member : p ∈ state.proposals)
    (origin : r ∈ state.proposals) (sameBare : q.bare = r.bare)
    (same : q.id = p.id) : q.bare = p.bare := by
  have sameId : r.id = p.id :=
    (ProposalObject.id_of_bare sameBare).symm.trans same
  rw [sameBare, List.inj_on_of_nodup_map formed.distinct origin member sameId]

theorem ProposalObject.expirationTime_of_bare (same : q.bare = p.bare) :
    q.expirationTime = p.expirationTime := by
  have fields := congrArg ProposalObject.expirationTime same
  exact fields

theorem ProposalObject.operations_of_bare (same : q.bare = p.bare) :
    q.operations = p.operations := by
  have fields := congrArg ProposalObject.operations same
  exact fields

/-- No proposal is lost without a note, and those that are new have new ids and
have not expired. -/
structure Evolves (before after : State K X W) : Prop where
  time : after.headBlockTime = before.headBlockTime
  next : before.nextProposalId ≤ after.nextProposalId
  removed : removedIds before.log ⊆ removedIds after.log
  conserves :
    ∀ p ∈ before.proposals,
      (∃ q ∈ after.proposals, q.bare = p.bare) ∨
        p.id ∈ removedIds after.log
  origin :
    ∀ q ∈ after.proposals,
      (∃ p ∈ before.proposals, q.bare = p.bare) ∨
        before.nextProposalId ≤ q.id ∧
          after.headBlockTime < q.expirationTime

namespace Evolves

variable {before middle after : State K X W}

theorem refl (state : State K X W) : Evolves state state where
  time := rfl
  next := Nat.le_refl _
  removed := List.Subset.refl _
  conserves p member := .inl ⟨p, member, rfl⟩
  origin q member := .inl ⟨q, member, rfl⟩

theorem trans (first : Evolves before middle) (second : Evolves middle after) :
    Evolves before after where
  time := second.time.trans first.time
  next := Nat.le_trans first.next second.next
  removed := List.Subset.trans first.removed second.removed
  conserves p member := by
    rcases first.conserves p member with ⟨q, inMiddle, same⟩ | removed
    · rcases second.conserves q inMiddle with ⟨r, inAfter, again⟩ | removed
      · exact .inl ⟨r, inAfter, again.trans same⟩
      · exact .inr (ProposalObject.id_of_bare same ▸ removed)
    · exact .inr (second.removed removed)
  origin r member := by
    rcases second.origin r member with ⟨q, inMiddle, same⟩ | ⟨new, later⟩
    · rcases first.origin q inMiddle with ⟨p, inBefore, again⟩ | ⟨new, later⟩
      · exact .inl ⟨p, inBefore, same.trans again⟩
      · rw [second.time, ProposalObject.expirationTime_of_bare same,
          ProposalObject.id_of_bare same]
        exact .inr ⟨new, later⟩
    · exact .inr ⟨Nat.le_trans first.next new, later⟩

theorem without (state : State K X W) (id : ProposalId) :
    Evolves state (state.without id) where
  time := rfl
  next := Nat.le_refl _
  removed := List.subset_cons_self _ _
  conserves p member := by
    by_cases gone : p.id = id
    · exact .inr (gone ▸ List.mem_cons_self)
    · exact .inl ⟨p, List.mem_filter.mpr ⟨member, by simpa using gone⟩, rfl⟩
  origin q member := .inl ⟨q, List.mem_of_mem_filter member, rfl⟩

theorem undo (before after : State K X W) :
    Evolves before (before.undo after) where
  time := rfl
  next := Nat.le_refl _
  removed := List.Subset.refl _
  conserves p member := by
    obtain ⟨node, again⟩ := undo_mem after member
    exact .inl ⟨_, again, rfl⟩
  origin q member := by
    obtain ⟨p, inBefore, node, rfl⟩ := mem_undo member
    exact .inl ⟨p, inBefore, rfl⟩

theorem create (state : State K X W) (period : UInt32) {p : ProposalObject K X}
    (later : state.headBlockTime < p.expirationTime) :
    Evolves state
      ((state.create p).note (.created state.nextProposalId period)) where
  time := rfl
  next := Nat.le_succ _
  removed := List.Subset.refl _
  conserves q member := .inl ⟨q, List.mem_append_left _ member, rfl⟩
  origin :=
    forall_concat (fun q member => .inl ⟨q, member, rfl⟩)
      (.inr ⟨Nat.le_refl _, later⟩)

theorem kept [DecidableEq K] (rules : Rules K X W) (start : State K X W) :
    Kept rules (Evolves start) where
  world _ _ evolves :=
    ⟨evolves.time, evolves.next, evolves.removed, evolves.conserves,
      evolves.origin⟩
  created state _ _ _ evolves evaluated :=
    evolves.trans
      (create state _ (evaluateCreate_noUpdates evaluated).1)
  removed state p _ evolves := evolves.trans (without state p.id)
  undone before after evolves := evolves.trans (undo before after)

theorem bare_of_id (evolves : Evolves before after) (formed : Formed before)
    {p q : ProposalObject K X} (member : p ∈ before.proposals)
    (stored : q ∈ after.proposals) (same : q.id = p.id) : q.bare = p.bare := by
  rcases evolves.origin q stored with ⟨r, inBefore, sameBare⟩ | ⟨new, _⟩
  · exact formed.bare_of_origin member inBefore sameBare same
  · exact absurd (formed.earlier p member) (Nat.not_lt.mpr (same ▸ new))

end Evolves

end Evolves

section Ends

/-- The proposal does not delete itself. -/
def ProposalObject.Selfless (p : ProposalObject K X) : Prop :=
  ∀ op ∈ p.operations, op.deletes p.id = false

variable [DecidableEq K] {rules : Rules K X W} {p : ProposalObject K X}
  {state : State K X W}

omit [DecidableEq K] in
theorem holds_iff :
    state.holds p = true ↔
      ∃ q ∈ state.proposals, q.id = p.id ∧ q.node = p.node := by
  simp [State.holds]

/-- An operation that does not delete the proposal leaves it in place. -/
theorem Effect.holds {op : Operation K X} {state after : State K X W}
    (effects : Effect rules op state after)
    (spares : op.deletes p.id = false) (held : state.holds p = true) :
    after.holds p = true := by
  obtain ⟨q, member, sameId, sameNode⟩ := holds_iff.mp held
  refine holds_iff.mpr ⟨q, ?_, sameId, sameNode⟩
  cases effects with
  | world world => exact member
  | created => exact List.mem_append_left _ member
  | removed world o r isDelete found =>
      refine List.mem_filter.mpr ⟨member, ?_⟩
      subst isDelete
      have other : o.proposal ≠ p.id := by
        simpa [Operation.deletes] using spares
      rw [(mem_of_find found).2, sameId]
      simpa using other.symm

variable (rules) in
theorem session_ends (depth : Nat) {ops : List (Operation K X)}
    (notUpdates : ∀ op ∈ ops, op.isUpdate = false)
    (spare : ∀ op ∈ ops, op.deletes p.id = false)
    (held : state.holds p = true) :
    ∃ after, after.holds p = true ∧
      Ends
        (forEach (pushOperation (applyOperation rules (depth + 1)) p) ops
          state)
        after := by
  induction ops generalizing state with
  | nil => exact ⟨state, held, .inl rfl⟩
  | cons op rest ih =>
      rw [List.forall_mem_cons] at notUpdates spare
      obtain ⟨middle, effects, ends⟩ :=
        evaluate_effect rules (applyOperation rules depth) notUpdates.1 state
      have heldMiddle := effects.holds spare.1 held
      rw [forEach_cons, pushOperation, if_pos held, applyOperation]
      rcases ends with returned | ⟨message, thrown⟩
      · rw [returned, Outcome.bind_ok]
        exact ih notUpdates.2 spare.2 heldMiddle
      · rw [thrown, Outcome.bind_throw]
        exact ⟨middle, heldMiddle, .inr ⟨message, rfl⟩⟩

variable (rules) in
/-- A proposal that does not delete itself is executed and removed, or its
execution is undone and it is still there. -/
theorem pushProposal_ends (depth : Nat)
    (notUpdates : ∀ op ∈ p.operations, op.isUpdate = false)
    (selfless : p.Selfless) (member : p ∈ state.proposals) :
    (∃ middle : State K X W,
      pushProposal (applyOperation rules (depth + 1)) p state =
        .ok ((middle.without p.id).note
          (.executed p middle.headBlockTime))) ∨
      ∃ message failed,
        pushProposal (applyOperation rules (depth + 1)) p state =
            .throw (.exception message) failed ∧
          failed.holds p = true := by
  obtain ⟨middle, held, ends⟩ :=
    session_ends rules depth notUpdates selfless (holds_of_mem member)
  unfold pushProposal
  rcases ends with returned | ⟨message, thrown⟩
  · refine .inl ⟨middle, ?_⟩
    simp only [returned, Outcome.bind_ok, State.remove, held, if_true]
    rfl
  · refine .inr ⟨message, state.undo middle, ?_, ?_⟩
    · simp only [thrown, Outcome.bind_throw]
    · refine holds_of_mem (List.mem_append_left _ ?_)
      exact List.mem_filter.mpr ⟨member, held⟩

end Ends

end GxbCore.Proposal
