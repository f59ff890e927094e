import GxbCore.Proposal.Runs

/-!
# The end of executions

A proposal contains no update, so the recursion from `proposal_update` through
`push_proposal` is two levels deep.  Each round of `clear_expired_proposals`
removes one expired proposal and creates none, so their number bounds the
rounds.

A proposal that deletes itself is freed while `push_proposal` reads it, and
`push_proposal` removes it once more.  Without such proposals the executions
end, and every expired proposal is removed once.
-/

namespace GxbCore.Proposal

open GxbCore.Protocol
open GxbCore.Ledger (Asset Time)

variable {K X W : Type}

/-- What `clear_expired_proposals` is to remove. -/
def expiredProposals (state : State K X W) : List (ProposalObject K X) :=
  state.proposals.filter fun p => p.expirationTime ≤ state.headBlockTime

variable {p : ProposalObject K X}

theorem mem_expiredProposals {state : State K X W} :
    p ∈ expiredProposals state ↔
      p ∈ state.proposals ∧ p.expirationTime ≤ state.headBlockTime := by
  simp [expiredProposals]

theorem expiredProposals_eq_nil {state : State K X W}
    (first : firstExpiring state.proposals = some p)
    (later : ¬ p.expirationTime ≤ state.headBlockTime) :
    expiredProposals state = [] := by
  refine List.filter_eq_nil_iff.mpr ?_
  intro q member expired
  have earliest := List.le_of_mem_argmin member first
  have soon : q.expirationTime ≤ state.headBlockTime := by simpa using expired
  rw [UInt32.le_iff_toNat_le] at later soon
  omega

theorem expiredProposals_of_evolves {before after : State K X W}
    (evolves : Evolves before after) {q : ProposalObject K X}
    (expired : q ∈ expiredProposals after) :
    ∃ p ∈ expiredProposals before, q.bare = p.bare := by
  obtain ⟨stored, past⟩ := mem_expiredProposals.mp expired
  rcases evolves.origin q stored with ⟨p, member, same⟩ | ⟨_, later⟩
  · refine ⟨p, mem_expiredProposals.mpr ⟨member, ?_⟩, same⟩
    rw [← ProposalObject.expirationTime_of_bare same, ← evolves.time]
    exact past
  · exact absurd past (UInt32.not_le.mpr later)

/-- The expired proposals afterwards are those from before, less one. -/
theorem expiredProposals_length_lt {before after : State K X W}
    (formed : Formed after) (evolves : Evolves before after)
    (member : p ∈ expiredProposals before)
    (gone : ∀ q ∈ after.proposals, q.id ≠ p.id) :
    (expiredProposals after).length < (expiredProposals before).length := by
  have distinct : ((expiredProposals after).map (·.id)).Nodup :=
    formed.distinct.sublist (List.filter_sublist.map _)
  have absent : p.id ∉ (expiredProposals after).map (·.id) := by
    intro present
    obtain ⟨q, stored, same⟩ := List.mem_map.mp present
    exact gone q (mem_expiredProposals.mp stored).1 same
  have contained :
      p.id :: (expiredProposals after).map (·.id) ⊆
        (expiredProposals before).map (·.id) := by
    refine List.cons_subset.mpr ⟨List.mem_map_of_mem member, ?_⟩
    intro id present
    obtain ⟨q, stored, rfl⟩ := List.mem_map.mp present
    obtain ⟨r, wasExpired, same⟩ := expiredProposals_of_evolves evolves stored
    exact List.mem_map.mpr
      ⟨r, wasExpired, (ProposalObject.id_of_bare same).symm⟩
  have shorter :=
    (List.nodup_cons.mpr ⟨absent, distinct⟩).length_le_of_subset contained
  rw [List.length_cons, List.length_map, List.length_map] at shorter
  exact shorter

variable [DecidableEq K]

section Updates

variable {rules : Rules K X W} {p : ProposalObject K X}

theorem applyUpdate_returns (depth : Nat) (o : ProposalUpdateOperation K)
    {state : State K X W} (formed : Formed state)
    (member : p ∈ state.proposals) (selfless : p.Selfless) :
    ∃ after,
      applyUpdate rules (applyOperation rules (depth + 1)) o p state =
        .ok after := by
  rw [applyUpdate_eq]
  split
  · exact ⟨_, rfl⟩
  · split
    · rcases pushProposal_ends rules depth
        (show ∀ op ∈ (applyApprovals o p).operations, op.isUpdate = false
          from formed.noUpdates p member)
        (show (applyApprovals o p).Selfless from selfless)
        (mem_withApprovals member) with
        ⟨middle, returned⟩ | ⟨message, failed, thrown, _⟩
      · rw [returned]
        exact ⟨_, rfl⟩
      · rw [thrown]
        exact ⟨failed, rfl⟩
    · exact ⟨_, rfl⟩

theorem proposalUpdate_ends (depth : Nat) (o : ProposalUpdateOperation K)
    {state : State K X W} (formed : Formed state)
    (selfless : ∀ p ∈ state.proposals, p.id = o.proposal → p.Selfless) :
    ∃ after,
      Ends (applyOperation rules (depth + 2) (.proposalUpdate o) state)
        after := by
  rw [applyOperation, evaluate]
  rcases withFee_cases rules o.feePayingAccount o.fee (evaluateUpdate state o)
    (applyUpdate rules (applyOperation rules (depth + 1)) o) state with
    ⟨message, thrown⟩ | ⟨p, world, evaluated, applies⟩
  · exact ⟨state, .inr ⟨message, thrown⟩⟩
  obtain ⟨member, isProposal⟩ :=
    mem_of_find (evaluateUpdate_eq_ok evaluated).1
  obtain ⟨updated, returns⟩ :=
    applyUpdate_returns depth o
      ((formed_invariant rules).world state world formed) member
      (selfless p member isProposal)
  rcases applies with
    ⟨error, after, throws, _⟩ | ⟨middle, after, _, _, ends⟩
  · rw [returns] at throws
    cases throws
  · exact ⟨after, ends⟩

end Updates

section Expiry

variable {rules : Rules K X W} {p : ProposalObject K X} {state : State K X W}

omit [DecidableEq K] in
theorem remove_returns (held : state.holds p = true) :
    state.remove p = .ok (state.without p.id) := by
  unfold State.remove
  rw [if_pos held]
  rfl

variable (rules) in
theorem clearProposal_returns (depth : Nat) (formed : Formed state)
    (member : p ∈ state.proposals) (selfless : p.Selfless) :
    ∃ after, clearProposal rules (depth + 1) p state = .ok after ∧
      ∀ q ∈ after.proposals, q.id ≠ p.id := by
  have gone :
      ∀ left : State K X W, ∀ q ∈ (left.without p.id).proposals,
        q.id ≠ p.id := by
    intro left q stored
    simpa using (List.mem_filter.mp stored).2
  unfold clearProposal
  split
  · rcases pushProposal_ends rules depth (formed.noUpdates p member) selfless
      member with
      ⟨middle, returned⟩ | ⟨message, failed, thrown, held⟩
    · rw [returned]
      exact ⟨_, rfl, gone middle⟩
    · rw [thrown]
      exact ⟨_, remove_returns held, gone failed⟩
  · exact ⟨_, remove_returns (holds_of_mem member), gone state⟩

omit [DecidableEq K] in
theorem selfless_of_evolves {before after : State K X W}
    (evolves : Evolves before after)
    (selfless : ∀ p ∈ expiredProposals before, p.Selfless) :
    ∀ q ∈ expiredProposals after, q.Selfless := by
  intro q expired
  obtain ⟨p, wasExpired, same⟩ := expiredProposals_of_evolves evolves expired
  unfold ProposalObject.Selfless
  rw [ProposalObject.operations_of_bare same, ProposalObject.id_of_bare same]
  exact selfless p wasExpired

/-- With more rounds than expired proposals the loop returns, and leaves none
of them. -/
theorem clearExpiredProposals_returns (depth rounds : Nat)
    (formed : Formed state)
    (selfless : ∀ p ∈ expiredProposals state, p.Selfless)
    (enough : (expiredProposals state).length < rounds) :
    ∃ after,
      clearExpiredProposals rules (depth + 1) rounds state = .ok after ∧
        Formed after ∧ Evolves state after ∧ expiredProposals after = [] := by
  induction rounds generalizing state with
  | zero => exact absurd enough (Nat.not_lt_zero _)
  | succ rounds ih =>
      unfold clearExpiredProposals
      cases first : firstExpiring state.proposals with
      | none =>
          refine ⟨state, rfl, formed, Evolves.refl state, ?_⟩
          rw [expiredProposals, List.argmin_eq_none.mp first, List.filter_nil]
      | some p =>
          dsimp only
          split
          · next expired =>
              have member := Carried.mem_of_firstExpiring first
              have isExpired := mem_expiredProposals.mpr ⟨member, expired⟩
              obtain ⟨middle, returns, gone⟩ :=
                clearProposal_returns rules depth formed member
                  (selfless p isExpired)
              obtain ⟨formedMiddle, evolves⟩ :
                  Formed middle ∧ Evolves state middle := by
                have kept :=
                  ((formed_invariant rules).evolves state).carried.clearProposal
                    (depth + 1) member ⟨formed, Evolves.refl state⟩ trivial
                rw [returns] at kept
                exact kept
              have fewer :=
                expiredProposals_length_lt formedMiddle evolves isExpired gone
              obtain ⟨after, later, formedAfter, evolvesAfter, none⟩ :=
                ih formedMiddle
                  (selfless_of_evolves evolves selfless) (by omega)
              rw [returns]
              exact ⟨after, later, formedAfter, evolves.trans evolvesAfter,
                none⟩
          · next later =>
              exact ⟨state, rfl, formed, Evolves.refl state,
                expiredProposals_eq_nil first later⟩

end Expiry

/-- A proposal of account 7 with one operation of account 8, when it has
expired. -/
def waitingChain : State Nat AccountId Unit :=
  { (applyOperation plainRules 1
      (.proposalCreate ⟨0, 1⟩ 7 [.other 8] 2000 none) plainChain).state with
    headBlockTime := 2000 }

theorem waitingChain_reached : Run plainRules (fun _ _ => True) waitingChain :=
  .step
    (.step (.start 1000 ()) trivial
      (.apply 1 (.proposalCreate ⟨0, 1⟩ 7 [.other 8] 2000 none) rfl))
    trivial (.advance (by decide))

/-- A proposal of account 7 that deletes itself. -/
def selfDeletion (review : Option UInt32) : Operation Nat AccountId :=
  .proposalCreate ⟨0, 1⟩ 7 [.proposalDelete ⟨7, false, ⟨0, 1⟩, 0⟩] 2000 review

def selfDeletingChain : State Nat AccountId Unit :=
  (applyOperation plainRules 1 (selfDeletion none) plainChain).state

theorem selfDeletingChain_reached :
    Run plainRules (fun _ _ => True) selfDeletingChain :=
  .step (.start 1000 ()) trivial (.apply 1 (selfDeletion none) rfl)

/-- The same with a review period, approved, when it has expired. -/
def approvedSelfDeletion : State Nat AccountId Unit :=
  (applyOperation plainRules 1 (.proposalUpdate (approvalBy 7 0))
    (applyOperation plainRules 1 (selfDeletion (some 100))
      plainChain).state).state

theorem approvedSelfDeletion_reached :
    Run plainRules (fun _ _ => True)
      { approvedSelfDeletion with headBlockTime := 2000 } := by
  have created :
      Run plainRules (fun _ _ => True)
        (applyOperation plainRules 1 (selfDeletion (some 100))
          plainChain).state :=
    .step (.start 1000 ()) trivial (.apply 1 (selfDeletion (some 100)) rfl)
  have approved : Run plainRules (fun _ _ => True) approvedSelfDeletion :=
    .step created trivial
      (.apply 1 (.proposalUpdate (approvalBy 7 0)) rfl)
  exact .step approved trivial (.advance (by decide))

/-- `push_proposal` goes on with the freed object, whatever the depth. -/
theorem selfDeletingChain_faults (depth : Nat) :
    ∃ error state, error ∈ [Fault.outOfFuel, Fault.dangling] ∧
      applyOperation plainRules depth (.proposalUpdate (approvalBy 7 0))
        selfDeletingChain = .throw error state :=
  match depth with
  | 0 => ⟨_, _, List.mem_cons_self, rfl⟩
  | 1 => ⟨_, _, List.mem_cons_self, rfl⟩
  | _ + 2 => ⟨.dangling, _, by decide, rfl⟩

theorem approvedSelfDeletion_faults (depth rounds : Nat) :
    ∃ error state,
      clearExpiredProposals plainRules depth rounds
        { approvedSelfDeletion with headBlockTime := 2000 } =
        .throw error state :=
  match rounds, depth with
  | 0, _ => ⟨_, _, rfl⟩
  | _ + 1, 0 => ⟨_, _, rfl⟩
  | _ + 1, _ + 1 => ⟨_, _, rfl⟩

end GxbCore.Proposal
