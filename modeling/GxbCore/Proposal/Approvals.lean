import GxbCore.Proposal.Runs
import GxbCore.Protocol.SuggestedSignatures

/-!
# More approvals

More approvals meet whatever fewer of them meet.  But `verify_authority` refuses
a key that its search has not used, goes only to a fixed depth, and remembers
the accounts that it has found: where more approvals let it stop earlier, a key
is no longer asked for, or an account is not remembered for a deeper place.
-/

namespace GxbCore.Protocol

section Accepts

variable {K Op : Type} [DecidableEq K] {requires : Op → Required K}
  {ops : List Op} {signatures : Signatures K} {required : Required K}

theorem Signatures.Met.authorised {depth : Nat}
    (met : signatures.Met depth required) :
    signatures.Authorised required where
  other auth member := ⟨depth, met.other auth member⟩
  active id member := by
    refine (met.active id member).imp (fun approves => ⟨depth, approves⟩) ?_
    intro owner
    rw [Option.any_eq_true] at owner
    obtain ⟨auth, isOwner, isGrounded⟩ := owner
    exact ⟨auth, isOwner, depth, isGrounded⟩
  owner id member := by
    refine (met.owner id member).imp_right ?_
    intro owner
    rw [Option.any_eq_true] at owner
    obtain ⟨auth, isOwner, isGrounded⟩ := owner
    exact ⟨auth, isOwner, depth, isGrounded⟩

theorem tracked_signed {allowed : K → Prop} :
    Tracked signatures signatures.context allowed signatures.start := by
  refine ⟨?_, ?_, fun _ isApproved => isApproved,
    fun _ isApproved => ⟨0, .inl isApproved⟩, ?_⟩
  · intro key
    simp [Signatures.start, Signatures.context]
  · intro key used
    simp [SignState.Used, Signatures.start] at used
  · intro account isApproved notApproved
    exact absurd isApproved notApproved

/-- Where all required authorities are met, a key that was not asked for is the
only thing that `verify_authority` complains of. -/
theorem verifyAuthority_authorised
    (complete :
      Complete signatures (getRequiredAuthorities requires ops)
        signatures.maxRecursionDepth)
    (committee : signatures.allowCommittee = true)
    (authorised : signatures.Authorised (getRequiredAuthorities requires ops)) :
    ((verifyAuthority requires ops signatures).returned = true ↔
        ∀ key ∈ signatures.sigs,
          signatures.AskedFor (getRequiredAuthorities requires ops) key) ∧
      ∀ fault last,
        verifyAuthority requires ops signatures = .throw fault last →
          fault = .irrelevantSig := by
  unfold verifyAuthority
  generalize getRequiredAuthorities requires ops = required
    at complete authorised ⊢
  have allowed :
      ¬ (signatures.allowCommittee = false ∧
        GRAPHENE_COMMITTEE_ACCOUNT ∈ required.active) := by
    rintro ⟨notAllowed, _⟩
    rw [committee] at notAllowed
    cases notAllowed
  have decides :=
    loops_decide complete (fun _ _ asked => asked) tracked_signed
  simp only [if_neg allowed]
  rw [loops_bind]
  rcases decides with ⟨_, last, returns, goes⟩ | ⟨notMet, _⟩
  · rw [returns, Outcome.bind_ok]
    -- a key is used exactly if it was asked for
    have unused :
        signatures.hasUnused last = false ↔
          ∀ key ∈ signatures.sigs, signatures.AskedFor required key := by
      rw [Signatures.hasUnused, List.any_eq_false]
      constructor
      · intro none key isKey
        have provided := (goes.tracked.keys key).mpr isKey
        simp only [Signatures.context, List.not_mem_nil, or_false]
          at provided
        obtain ⟨used, isProvided⟩ := Option.isSome_iff_exists.mp provided
        cases used with
        | true => exact goes.tracked.permitted key isProvided
        | false =>
            exact absurd (by rw [isProvided]; rfl) (none key isKey)
      · intro asked key isKey isUnused
        have used : last.Used key := goes.asked key isKey (asked key isKey)
        rw [SignState.Used] at used
        rw [used] at isUnused
        cases isUnused
    rw [← unused]
    cases signatures.hasUnused last with
    | true => simp [Outcome.returned]
    | false => simp [Outcome.returned]
  · exact absurd authorised notMet

end Accepts

end GxbCore.Protocol

namespace GxbCore.Proposal

open GxbCore.Protocol

variable {K X W : Type} [DecidableEq K]

section Monotone

variable {rules : Rules K X W} {state : State K X W}
  {p q : ProposalObject K X} {o : ProposalUpdateOperation K}

/-- The arguments of `verify_authority` for a proposal. -/
def signaturesOf (rules : Rules K X W) (state : State K X W)
    (p : ProposalObject K X) : Signatures K where
  sigs := p.availableKeyApprovals
  getActive := rules.getActive state.world
  getOwner := rules.getOwner state.world
  maxRecursionDepth := rules.maxAuthorityDepth state.world
  allowCommittee := true
  activeApprovals := p.availableActiveApprovals
  ownerApprovals := p.availableOwnerApprovals

def requiredOf (rules : Rules K X W) (p : ProposalObject K X) : Required K :=
  getRequiredAuthorities (Operation.requires rules) p.operations

/-- The same operations with more approvals, of any kind. -/
structure MoreApprovals (p q : ProposalObject K X) : Prop where
  operations : q.operations = p.operations
  active : p.availableActiveApprovals ⊆ q.availableActiveApprovals
  owner : p.availableOwnerApprovals ⊆ q.availableOwnerApprovals
  keys : p.availableKeyApprovals ⊆ q.availableKeyApprovals

omit [DecidableEq K] in
theorem MoreApprovals.grows (more : MoreApprovals p q) :
    Signatures.Grows (signaturesOf rules state p)
      (signaturesOf rules state q) :=
  ⟨more.keys, rfl, rfl, more.active, more.owner⟩

theorem subset_foldl_insert {α : Type} [DecidableEq α] (set more : List α) :
    set ⊆ more.foldl (fun set id => set.insert id) set := by
  induction more generalizing set with
  | nil => exact fun _ member => member
  | cons id more ih =>
      intro other member
      exact ih _ (List.mem_insert_of_mem member)

theorem subset_approve {α : Type} [DecidableEq α] (available add : List α) :
    available ⊆ approve available add [] := by
  intro id member
  simp only [approve, List.not_mem_nil, not_false_eq_true, decide_true,
    List.filter_true]
  exact subset_foldl_insert _ _ member

structure ProposalUpdateOperation.OnlyAdds (o : ProposalUpdateOperation K) :
    Prop where
  active : o.activeApprovalsToRemove = []
  owner : o.ownerApprovalsToRemove = []
  keys : o.keyApprovalsToRemove = []

theorem ProposalUpdateOperation.OnlyAdds.more (onlyAdds : o.OnlyAdds)
    (p : ProposalObject K X) : MoreApprovals p (applyApprovals o p) where
  operations := rfl
  active := by
    rw [applyApprovals, onlyAdds.active]
    exact subset_approve _ _
  owner := by
    rw [applyApprovals, onlyAdds.owner]
    exact subset_approve _ _
  keys := by
    rw [applyApprovals, onlyAdds.keys]
    exact subset_approve _ _

theorem isAuthorized_withApprovals :
    isAuthorizedToExecute rules (state.withApprovals o p) q =
      isAuthorizedToExecute rules state q := by
  have world : (state.withApprovals o p).world = state.world := by
    unfold State.withApprovals
    dsimp only
    split
    · rfl
    · rfl
  rw [isAuthorizedToExecute, isAuthorizedToExecute, world]

/-- A proposal that is authorised stays so with more approvals, where no
authority is nested too deep and no sum of weights jumps, if the search asks for
every key approval; it is refused for a key that was not used, and for nothing
else.  So is it after an update that only adds approvals. -/
theorem approvals_monotone (more : MoreApprovals p q)
    (complete :
      Complete (signaturesOf rules state q) (requiredOf rules p)
        (rules.maxAuthorityDepth state.world))
    (accepted : isAuthorizedToExecute rules state p = true) :
    (isAuthorizedToExecute rules state q = true ↔
        ∀ key ∈ q.availableKeyApprovals,
          (signaturesOf rules state q).AskedFor (requiredOf rules p) key) ∧
      (∀ fault last,
        verifyAuthority (Operation.requires rules) q.operations
            (signaturesOf rules state q) = .throw fault last →
          fault = .irrelevantSig) ∧
      ∀ o : ProposalUpdateOperation K, o.OnlyAdds →
        MoreApprovals p (applyApprovals o p) ∧
          isAuthorizedToExecute rules (state.withApprovals o p)
              (applyApprovals o p) =
            isAuthorizedToExecute rules state (applyApprovals o p) := by
  have returns :
      (verifyAuthority (Operation.requires rules) p.operations
        (signaturesOf rules state p)).returned = true := accepted
  obtain ⟨depth, met⟩ :=
    verifyAuthority_sound (Outcome.eq_ok_of_returned returns)
  have authorised := (more.grows.met met).authorised
  have spec :=
    @verifyAuthority_authorised _ _ _ (Operation.requires rules)
      p.operations (signaturesOf rules state q) complete rfl authorised
  rw [← more.operations] at spec
  refine ⟨?_, spec.2, fun o onlyAdds =>
    ⟨onlyAdds.more p, isAuthorized_withApprovals⟩⟩
  rw [requiredOf, ← more.operations]
  exact spec.1

end Monotone

def namedRules (getActive : AccountId → Option (Authority Nat))
    (maxDepth : Nat) : Rules Nat (List AccountId) Unit where
  requires accounts := ⟨accounts, [], []⟩
  validate _ := .ok ()
  apply _ _ world := .ok world
  prepareFee _ _ _ _ := .ok ()
  payFee _ _ _ world := .ok world
  takeFee _ _ world := .ok world
  getActive _ := getActive
  getOwner _ _ := none
  maxAuthorityDepth _ := maxDepth
  maximumProposalLifetime _ := 86400
  committeeProposalReviewPeriod _ := 3600

/-- Accounts 10 and 12; one key of 10 and one of 11, which 10 names itself and
12 through 13. -/
def sharedActive (account : AccountId) : Option (Authority Nat) :=
  if account = 10 then some ⟨1, [(11, 1)], [(1, 1)]⟩
  else if account = 11 then some ⟨1, [], [(2, 1)]⟩
  else if account = 12 then some ⟨1, [(13, 1)], []⟩
  else if account = 13 then some ⟨1, [(11, 1)], []⟩
  else none

def namedProposal (accounts approvals : List AccountId) (keys : List Nat) :
    ProposalObject Nat (List AccountId) where
  id := 0
  node := 0
  expirationTime := 1000
  reviewPeriodTime := none
  operations := [.other accounts]
  requiredActiveApprovals := accounts
  availableActiveApprovals := approvals
  requiredOwnerApprovals := []
  availableOwnerApprovals := []
  availableKeyApprovals := keys

def namedState (p : ProposalObject Nat (List AccountId)) :
    State Nat (List AccountId) Unit where
  proposals := [p]
  nextProposalId := 1
  nextNode := 1
  headBlockTime := 0
  world := ()
  log := []

def authorisedNamed (maxDepth : Nat) (p : ProposalObject Nat (List AccountId)) :
    Bool :=
  isAuthorizedToExecute (namedRules sharedActive maxDepth) (namedState p) p

theorem sharedActive_cases {account : AccountId} {auth : Authority Nat}
    (isActive : sharedActive account = some auth) :
    auth = ⟨1, [(11, 1)], [(1, 1)]⟩ ∨ auth = ⟨1, [], [(2, 1)]⟩ ∨
      auth = ⟨1, [(13, 1)], []⟩ ∨ auth = ⟨1, [(11, 1)], []⟩ := by
  unfold sharedActive at isActive
  split at isActive
  · exact .inl (by simpa using isActive.symm)
  · split at isActive
    · exact .inr (.inl (by simpa using isActive.symm))
    · split at isActive
      · exact .inr (.inr (.inl (by simpa using isActive.symm)))
      · split at isActive
        · exact .inr (.inr (.inr (by simpa using isActive.symm)))
        · cases isActive

/-- Account 10 is authorised by its key, and stays so with an approval by
account 11. -/
theorem approvals_monotone_shared :
    authorisedNamed 2 (namedProposal [10] [] [1]) = true ∧
      (authorisedNamed 2 (namedProposal [10] [11] [1]) = true ↔
        ∀ key ∈ [1],
          (signaturesOf (namedRules sharedActive 2)
              (namedState (namedProposal [10] [11] [1]))
              (namedProposal [10] [11] [1])).AskedFor
            (requiredOf (namedRules sharedActive 2)
              (namedProposal [10] [] [1])) key) := by
  have accepted : authorisedNamed 2 (namedProposal [10] [] [1]) = true := by
    decide
  have more :
      MoreApprovals (namedProposal [10] [] [1])
        (namedProposal [10] [11] [1]) :=
    ⟨rfl, by simp [namedProposal], by simp [namedProposal],
      by simp [namedProposal]⟩
  have complete :
      Complete
        (signaturesOf (namedRules sharedActive 2)
          (namedState (namedProposal [10] [11] [1]))
          (namedProposal [10] [11] [1]))
        (requiredOf (namedRules sharedActive 2)
          (namedProposal [10] [] [1])) 2 := by
    constructor
    · intro auth involved
      have cases :
          auth = ⟨1, [(11, 1)], [(1, 1)]⟩ ∨ auth = ⟨1, [], [(2, 1)]⟩ ∨
            auth = ⟨1, [(13, 1)], []⟩ ∨ auth = ⟨1, [(11, 1)], []⟩ := by
        cases involved with
        | other isOther => cases isOther
        | active _ isActive => exact sharedActive_cases isActive
        | activeOwner _ isOwner => cases isOwner
        | owner _ isOwner => cases isOwner
        | nested _ _ isActive => exact sharedActive_cases isActive
      apply noJump_of_light
      rcases cases with rfl | rfl | rfl | rfl
      · decide
      · decide
      · decide
      · decide
    · intro auth topLevel
      cases topLevel with
      | other isOther => cases isOther
      | activeOwner _ isOwner => cases isOwner
      | owner _ isOwner => cases isOwner
      | active isRequired isActive =>
          -- account 10 names account 11 only, which has approved
          obtain rfl := List.mem_singleton.mp isRequired
          cases isActive
          intro entry member notApproved
          obtain rfl := List.mem_singleton.mp member
          exact absurd (by decide) notApproved
  exact ⟨accepted, (approvals_monotone more complete accepted).1⟩

/-- An approval by a key that is not needed, an approval by an account whose key
has approved, and an approval by a key with which account 11 is no longer found
before account 12 needs it: each makes an authorised proposal unauthorised. -/
theorem approvals_not_monotone :
    (authorisedNamed 2 (namedProposal [10] [10] []) = true ∧
        authorisedNamed 2 (namedProposal [10] [10] [7]) = false) ∧
      (authorisedNamed 2 (namedProposal [10] [] [1]) = true ∧
        authorisedNamed 2 (namedProposal [10] [10] [1]) = false) ∧
      (authorisedNamed 1 (namedProposal [12, 10] [] [2]) = true ∧
        authorisedNamed 1 (namedProposal [12, 10] [] [2, 1]) = false) := by
  decide

end GxbCore.Proposal
