import GxbCore.Voting.Maintenance

/-!
# Maintenance after maintenance

Two nodes with the same objects come to the same result if their buffers are
empty and agree on the validity of the vote ids that the votes are for.  The
buffers are empty as long as no maintenance is aborted between the construction
of the helper and that of the guards: what such a one has counted is found by
the next, in the staking mode under the vote ids of the witnesses that are not
available any more, in the classic mode under all of them.
-/

namespace GxbCore.Voting

open GxbCore.Ledger (Fault)

section Agree

variable {X : Type} {rules : Rules X} {left right : Node X}

structure SameCount (left right : Node X) : Prop where
  objects : left.objects = right.objects
  voteTally : left.buffers.voteTally = right.buffers.voteTally
  witnessCountHistogram :
    left.buffers.witnessCountHistogram = right.buffers.witnessCountHistogram
  committeeCountHistogram :
    left.buffers.committeeCountHistogram =
      right.buffers.committeeCountHistogram
  totalVotingStake :
    left.buffers.totalVotingStake = right.buffers.totalVotingStake

/-- The vote ids of witnesses and committee members. -/
def Objects.RoleId (o : Objects X) (id : Nat) : Prop :=
  ∃ role ∈ o.roles, role.1 = id

/-- Every vote for a witness or a committee member is for one that there is, if
its number was given out at all. -/
def Objects.VotesForRoles (o : Objects X) : Prop :=
  ∀ a ∈ o.accounts, ∀ vote ∈ a.votes,
    vote.type ≠ .worker → vote.num < o.nextAvailableVoteId →
      o.RoleId vote.num

/-- The nodes have counted the same, and agree on what the votes can be for. -/
structure SameVotes (left right : Node X) : Prop
    extends SameCount left right where
  valid :
    ∀ id, left.objects.RoleId id →
      left.buffers.voteIdValid id = right.buffers.voteIdValid id
  size :
    left.buffers.voteTally.length = left.objects.nextAvailableVoteId
  votesForRoles : left.objects.VotesForRoles

structure Buffers.Empty (b : Buffers) : Prop where
  voteTally : b.voteTally = []
  witnessCountHistogram : b.witnessCountHistogram = []
  committeeCountHistogram : b.committeeCountHistogram = []

theorem resize_length (size : Nat) (buffer : List UInt64) :
    (resize size buffer).length = size := by
  simp only [resize, List.length_take, List.length_append,
    List.length_replicate]
  omega

/-- The map is overwritten at the vote ids of the roles. -/
theorem markValid_agree {roles : List (Nat × Bool)} {first second : Nat → Bool}
    {id : Nat} (agree : first id = second id ∨ ∃ role ∈ roles, role.1 = id) :
    markValid roles first id = markValid roles second id := by
  unfold markValid
  induction roles generalizing first second with
  | nil =>
      rcases agree with same | ⟨_, member, _⟩
      · exact same
      · cases member
  | cons role rest ih =>
      simp only [List.foldl_cons]
      apply ih
      by_cases here : role.1 = id
      · left
        simp [← here]
      · rcases agree with same | ⟨other, member, isId⟩
        · left
          rw [Function.update_of_ne (Ne.symm here),
            Function.update_of_ne (Ne.symm here), same]
        · rcases List.mem_cons.mp member with isRole | later
          · exact absurd (isRole ▸ isId) here
          · exact .inr ⟨other, later, isId⟩

theorem startTally_sameCount (objects : left.objects = right.objects)
    (leftEmpty : left.buffers.Empty) (rightEmpty : right.buffers.Empty) :
    SameCount (startTally left) (startTally right) := by
  refine ⟨objects, ?_, ?_, ?_, rfl⟩
  · simp only [startTally, leftEmpty.voteTally, rightEmpty.voteTally, objects]
  · simp only [startTally, leftEmpty.witnessCountHistogram,
      rightEmpty.witnessCountHistogram, objects]
  · simp only [startTally, leftEmpty.committeeCountHistogram,
      rightEmpty.committeeCountHistogram, objects]

theorem startTally_sameVotes (objects : left.objects = right.objects)
    (leftEmpty : left.buffers.Empty) (rightEmpty : right.buffers.Empty)
    (votesForRoles : left.objects.VotesForRoles) :
    SameVotes (startTally left) (startTally right) where
  toSameCount := startTally_sameCount objects leftEmpty rightEmpty
  valid id isRole := by
    simp only [startTally, ← objects]
    exact markValid_agree (.inr isRole)
  size := resize_length _ _
  votesForRoles := votesForRoles

end Agree

section Classic

variable {X : Type} {rules : Rules X} {left right : Node X}

/-- One vote leaves the numbers of the buffers alone. -/
theorem addVote_length (stake : UInt64) (b : Buffers) (vote : VoteId) :
    (addVote stake b vote).voteTally.length = b.voteTally.length := by
  unfold addVote
  split
  · exact List.length_modify _ _ _
  · rfl

theorem addVote_valid (stake : UInt64) (b : Buffers) (vote : VoteId) :
    (addVote stake b vote).voteIdValid = b.voteIdValid := by
  unfold addVote
  split
  · rfl
  · rfl

def AgreeOn (first second : Buffers) (vote : VoteId) : Prop :=
  vote.type ≠ .worker → vote.num < first.voteTally.length →
    first.voteIdValid vote.num = second.voteIdValid vote.num

theorem addVote_same {stake : UInt64} {first second : Buffers} {vote : VoteId}
    (same :
      ({ first with voteIdValid := fun _ => false } : Buffers) =
        { second with voteIdValid := fun _ => false })
    (agree : AgreeOn first second vote) :
    ({ addVote stake first vote with voteIdValid := fun _ => false } :
        Buffers) =
      { addVote stake second vote with voteIdValid := fun _ => false } := by
  obtain ⟨tally, witnesses, members, total, firstValid⟩ := first
  obtain ⟨otherTally, otherWitnesses, otherMembers, otherTotal, secondValid⟩ :=
    second
  simp only [Buffers.mk.injEq, and_true] at same
  obtain ⟨rfl, rfl, rfl, rfl⟩ := same
  unfold addVote
  simp only
  by_cases inside : vote.num < tally.length
  · by_cases isWorker : vote.type = .worker
    · simp [inside, isWorker]
    · have sameValid := agree isWorker inside
      simp only at sameValid
      rw [sameValid]
      split
      · rfl
      · rfl
  · simp [inside]

theorem addVotes_same {stake : UInt64} {votes : List VoteId}
    {first second : Buffers}
    (same :
      ({ first with voteIdValid := fun _ => false } : Buffers) =
        { second with voteIdValid := fun _ => false })
    (agree : ∀ vote ∈ votes, AgreeOn first second vote) :
    ({ votes.foldl (addVote stake) first with
        voteIdValid := fun _ => false } : Buffers) =
      { votes.foldl (addVote stake) second with
        voteIdValid := fun _ => false } := by
  induction votes generalizing first second with
  | nil => exact same
  | cons vote rest ih =>
      simp only [List.foldl_cons]
      apply ih
      · exact addVote_same same (agree vote List.mem_cons_self)
      · intro other member
        have agreed := agree other (List.mem_cons_of_mem vote member)
        unfold AgreeOn at agreed ⊢
        rw [addVote_length, addVote_valid, addVote_valid]
        exact agreed

theorem addVotes_frame (stake : UInt64) (votes : List VoteId) (b : Buffers) :
    (votes.foldl (addVote stake) b).voteTally.length =
        b.voteTally.length ∧
      (votes.foldl (addVote stake) b).voteIdValid = b.voteIdValid := by
  induction votes generalizing b with
  | nil => exact ⟨rfl, rfl⟩
  | cons vote rest ih =>
      obtain ⟨length, valid⟩ := ih (addVote stake b vote)
      rw [List.foldl_cons]
      exact ⟨length.trans (addVote_length stake b vote),
        valid.trans (addVote_valid stake b vote)⟩

theorem opinionAccount_votes {o : Objects X} {a opinion : VotingAccount}
    (member : a ∈ o.accounts) (isOpinion : o.opinionAccount a = some opinion) :
    opinion ∈ o.accounts := by
  unfold Objects.opinionAccount at isOpinion
  split at isOpinion
  · cases isOpinion
    exact member
  · exact List.mem_of_find?_eq_some isOpinion

variable {a : VotingAccount} {after : Node X}

/-- An account is counted the same by nodes that agree. -/
theorem tallyAccount_related (same : SameVotes left right)
    (member : a ∈ left.objects.accounts) :
    Outcome.Related SameVotes (tallyAccount rules a left)
      (tallyAccount rules a right) := by
  obtain ⟨objects, leftBuffers⟩ := left
  obtain ⟨others, rightBuffers⟩ := right
  have sameObjects : objects = others := same.objects
  subst sameObjects
  unfold tallyAccount
  simp only
  split
  · cases isOpinion : objects.opinionAccount a with
    | none => exact .throw _ _ _
    | some opinion =>
        cases staked : rules.votingStake objects a.id with
        | error fault => exact .throw _ _ _
        | ok stake =>
            simp only
            have isAccount := opinionAccount_votes member isOpinion
            have counted :=
              @addVotes_same stake opinion.votes leftBuffers rightBuffers
                (by
                  have first := same.voteTally
                  have second := same.witnessCountHistogram
                  have third := same.committeeCountHistogram
                  have fourth := same.totalVotingStake
                  simp only at first second third fourth
                  simp only [first, second, third, fourth])
                (by
                  intro vote isVote notWorker inside
                  have size := same.size
                  simp only at size
                  rw [size] at inside
                  exact same.valid vote.num
                    (same.votesForRoles opinion isAccount vote isVote
                      notWorker inside))
            simp only [Buffers.mk.injEq, and_true] at counted
            obtain ⟨tally, witnesses, members, total⟩ := counted
            obtain ⟨leftLength, leftValid⟩ :=
              addVotes_frame stake opinion.votes leftBuffers
            obtain ⟨_, rightValid⟩ :=
              addVotes_frame stake opinion.votes rightBuffers
            refine .ok ⟨⟨rfl, tally, ?_, ?_, ?_⟩, ?_, ?_, ?_⟩
            · simp only [addOpinion, witnesses]
            · simp only [addOpinion, members]
            · simp only [addOpinion, total]
            · intro id isRole
              simp only [addOpinion, leftValid, rightValid]
              exact same.valid id isRole
            · simp only [addOpinion, leftLength]
              exact same.size
            · exact same.votesForRoles
  · exact .ok same

theorem tallyAccount_objects (returns : tallyAccount rules a left = .ok after) :
    after.objects = left.objects := by
  unfold tallyAccount at returns
  split at returns
  · split at returns
    · cases returns
    · split at returns
      · cases returns
      · cases returns
        rfl
  · cases returns
    rfl

theorem tallyAccount_accounts
    (returns : tallyAccount rules a left = .ok after) :
    after.objects.accounts = left.objects.accounts := by
  rw [tallyAccount_objects returns]

theorem processFeesOf_accounts
    (returns : processFeesOf rules a left = .ok after) :
    after.objects.accounts = left.objects.accounts := by
  unfold processFeesOf at returns
  split at returns
  · cases returns
  · cases returns
    rfl

theorem setRest_objects (objects : left.objects = right.objects) (rest : X) :
    (left.setRest rest).objects = (right.setRest rest).objects := by
  unfold Node.setRest
  simp only [objects]

theorem processFeesOf_related (same : SameVotes left right) :
    Outcome.Related SameVotes (processFeesOf rules a left)
      (processFeesOf rules a right) := by
  unfold processFeesOf
  rw [same.objects]
  cases rules.processFees a.id right.objects with
  | error fault => exact .throw _ _ _
  | ok rest =>
      exact .ok ⟨⟨setRest_objects same.objects rest, same.voteTally,
        same.witnessCountHistogram, same.committeeCountHistogram,
        same.totalVotingStake⟩, same.valid, same.size, same.votesForRoles⟩

theorem tallyClassic_related (same : SameVotes left right) :
    Outcome.Related SameCount (tallyClassic rules left)
      (tallyClassic rules right) := by
  have loop :
      Outcome.Related
        (fun first second =>
          SameVotes first second ∧
            first.objects.accounts = left.objects.accounts)
        (tallyClassic rules left) (tallyClassic rules right) := by
    unfold tallyClassic
    rw [← same.objects]
    refine forEach_related ?_ ⟨same, rfl⟩
    intro a member first second states
    have isAccount : a ∈ first.objects.accounts := states.2 ▸ member
    refine Outcome.Related.bind
      ((tallyAccount_related states.1 isAccount).and_left
        (fun after returns => tallyAccount_accounts returns)) ?_
    intro firstMiddle secondMiddle middles
    refine (processFeesOf_related middles.1).and_left ?_
    intro after returns
    rw [processFeesOf_accounts returns, middles.2, states.2]
  exact loop.mono fun _ _ states => states.1.toSameCount

end Classic

section Staking

variable {X : Type} {rules : Rules X} {left right : Node X}

/-- The weights of witnesses are written the same into buffers that agree. -/
theorem weighWitnesses_same {limit : Nat} {witnesses : List Witness}
    {first second : Buffers} {objects : Objects X}
    (same : SameCount ⟨objects, first⟩ ⟨objects, second⟩) :
    (weighWitnesses limit witnesses first).2 =
        (weighWitnesses limit witnesses second).2 ∧
      SameCount ⟨objects, (weighWitnesses limit witnesses first).1⟩
        ⟨objects, (weighWitnesses limit witnesses second).1⟩ := by
  induction witnesses generalizing first second with
  | nil => exact ⟨rfl, same⟩
  | cons w rest ih =>
      have one :
          (weighWitness limit first w).2 = (weighWitness limit second w).2 ∧
            SameCount ⟨objects, (weighWitness limit first w).1⟩
              ⟨objects, (weighWitness limit second w).1⟩ := by
        unfold weighWitness
        split
        · have tally : first.voteTally = second.voteTally := same.voteTally
          have total : first.totalVotingStake = second.totalVotingStake :=
            same.totalVotingStake
          refine ⟨rfl, rfl, ?_, same.witnessCountHistogram,
            same.committeeCountHistogram, ?_⟩
          · simp only [tally]
          · simp only [total]
        · exact ⟨rfl, same⟩
      obtain ⟨witnesses, counts⟩ := ih one.2
      simp only [weighWitnesses]
      exact ⟨by rw [one.1, witnesses], counts⟩

theorem statisticalVoteWeight_same (same : SameCount left right) :
    SameCount (statisticalVoteWeight left) (statisticalVoteWeight right) := by
  obtain ⟨objects, first⟩ := left
  obtain ⟨others, second⟩ := right
  have sameObjects : objects = others := same.objects
  subst sameObjects
  obtain ⟨witnesses, counts⟩ :=
    @weighWitnesses_same X objects.missedBlockLimit objects.witnesses first
      second objects same
  have total := counts.totalVotingStake
  have witnessHistogram := counts.witnessCountHistogram
  have memberHistogram := counts.committeeCountHistogram
  simp only at total witnessHistogram memberHistogram
  refine ⟨?_, counts.voteTally, ?_, ?_, total⟩
  · simp only [statisticalVoteWeight, witnesses]
  · simp only [statisticalVoteWeight, total, witnessHistogram]
  · simp only [statisticalVoteWeight, total, memberHistogram]

theorem processFeesOf_sameCount {a : VotingAccount}
    (same : SameCount left right) :
    Outcome.Related SameCount (processFeesOf rules a left)
      (processFeesOf rules a right) := by
  unfold processFeesOf
  rw [same.objects]
  cases rules.processFees a.id right.objects with
  | error fault => exact .throw _ _ _
  | ok rest =>
      exact .ok ⟨setRest_objects same.objects rest, same.voteTally,
        same.witnessCountHistogram, same.committeeCountHistogram,
        same.totalVotingStake⟩

theorem tallyStaking_related (same : SameCount left right) :
    Outcome.Related SameCount (tallyStaking rules left)
      (tallyStaking rules right) := by
  have weighed := statisticalVoteWeight_same same
  unfold tallyStaking
  simp only
  rw [weighed.objects]
  refine Outcome.Related.bind
    (forEach_related (fun a _ _ _ states => processFeesOf_sameCount states)
      weighed) ?_
  intro first second states
  rw [states.objects, states.voteTally]
  cases rules.distributeRewards _ second.objects with
  | error fault => exact .throw _ _ _
  | ok o =>
      exact .ok ⟨rfl, states.voteTally, states.witnessCountHistogram,
        states.committeeCountHistogram, states.totalVotingStake⟩

end Staking

section Maintenance

variable {X : Type} {rules : Rules X} {left right : Node X}

/-- What is read from the buffers does not depend on the validity of vote
ids. -/
theorem updateActive_same {first second : Buffers} (o : Objects X)
    (voteTally : first.voteTally = second.voteTally)
    (witnesses : first.witnessCountHistogram = second.witnessCountHistogram)
    (members : first.committeeCountHistogram = second.committeeCountHistogram)
    (total : first.totalVotingStake = second.totalVotingStake) :
    updateActive first o = updateActive second o := by
  obtain ⟨tally, witnessHistogram, memberHistogram, stake, valid⟩ := first
  obtain ⟨_, _, _, _, otherValid⟩ := second
  simp only at voteTally witnesses members total
  subst voteTally witnesses members total
  have picks : ∀ (wits : List (Nat × Witness)) (count : Nat) (o : Objects X),
      pickMembers ⟨tally, witnessHistogram, memberHistogram, stake, valid⟩ wits
          count o =
        pickMembers
          ⟨tally, witnessHistogram, memberHistogram, stake, otherValid⟩ wits
          count o := by
    intro wits
    induction wits with
    | nil =>
        intro count o
        rfl
    | cons w later ih =>
        intro count o
        simp only [pickMembers, ih]
  unfold updateActive
  by_cases late : o.headBlockTime > HARDFORK_1012_TIME
  · rw [if_pos late, if_pos late]
    unfold updateActiveTrustnodes
    simp only [picks]
    rfl
  · rw [if_neg late, if_neg late]
    rfl

theorem settle_same (same : SameCount left right) :
    settle rules left = settle rules right := by
  have updates : ∀ o : Objects X,
      updateActive left.buffers o = updateActive right.buffers o :=
    fun o =>
      updateActive_same o same.voteTally same.witnessCountHistogram
        same.committeeCountHistogram same.totalVotingStake
  unfold settle
  simp only [same.objects, updates]

theorem resultOf_same {first second : Outcome Fault (Node X)}
    (counted : Outcome.Related SameCount first second) :
    resultOf (first.bind (finishMaintenance rules)) =
      resultOf (second.bind (finishMaintenance rules)) := by
  cases counted with
  | throw fault left right => rfl
  | ok states =>
      simp only [Outcome.bind_ok, finishMaintenance]
      rw [settle_same states]
      cases settle rules _ with
      | error fault => rfl
      | ok o => rfl

theorem tally_related (objects : left.objects = right.objects)
    (leftEmpty : left.buffers.Empty) (rightEmpty : right.buffers.Empty)
    (votesForRoles :
      left.objects.inStakingMode = false → left.objects.VotesForRoles) :
    Outcome.Related SameCount (tally rules (startTally left))
      (tally rules (startTally right)) := by
  have leftMode : (startTally left).objects.inStakingMode =
      left.objects.inStakingMode := rfl
  have rightMode : (startTally right).objects.inStakingMode =
      left.objects.inStakingMode := by
    rw [objects]
    rfl
  unfold tally
  rw [leftMode, rightMode]
  cases mode : left.objects.inStakingMode with
  | true =>
      exact tallyStaking_related
        (startTally_sameCount objects leftEmpty rightEmpty)
  | false =>
      exact tallyClassic_related
        (startTally_sameVotes objects leftEmpty rightEmpty
          (votesForRoles mode))

theorem performChainMaintenance_same (objects : left.objects = right.objects)
    (leftEmpty : left.buffers.Empty) (rightEmpty : right.buffers.Empty)
    (votesForRoles :
      left.objects.inStakingMode = false → left.objects.VotesForRoles) :
    resultOf (performChainMaintenance rules left) =
      resultOf (performChainMaintenance rules right) := by
  unfold performChainMaintenance
  rw [← objects]
  cases rules.distributeFbaBalances left.objects with
  | error fault => rfl
  | ok rest =>
      refine resultOf_same (tally_related ?_ leftEmpty rightEmpty
        votesForRoles)
      exact setRest_objects objects rest

end Maintenance

section Runs

variable {X : Type} {rules : Rules X} {b first second : Buffers}

/-- Is the maintenance aborted while it counts?  That is after the helper is
made and before the guards are. -/
def AbortsCount (rules : Rules X) (node : Node X) : Prop :=
  ∃ rest, rules.distributeFbaBalances node.objects = .ok rest ∧
    (tally rules (startTally (node.setRest rest))).returned = false

/-- The buffers of a node after maintenances, each on whatever objects it found:
of a block that was applied, that failed, or that was undone later.  None of
them was aborted while it counted. -/
inductive BufferRun (rules : Rules X) : Buffers → Prop
  | start : BufferRun rules .fresh
  | maintenance {b : Buffers} (before : BufferRun rules b) (o : Objects X)
      (counts : ¬ AbortsCount rules ⟨o, b⟩) :
      BufferRun rules (performChainMaintenance rules ⟨o, b⟩).state.buffers

theorem cleared_empty (b : Buffers) : b.cleared.Empty :=
  ⟨rfl, rfl, rfl⟩

theorem finishMaintenance_empty (node : Node X) :
    (finishMaintenance rules node).state.buffers.Empty := by
  unfold finishMaintenance
  cases settle rules node with
  | error fault => exact cleared_empty node.buffers
  | ok o => exact cleared_empty node.buffers

theorem performChainMaintenance_empty {node : Node X}
    (empty : node.buffers.Empty) (counts : ¬ AbortsCount rules node) :
    (performChainMaintenance rules node).state.buffers.Empty := by
  unfold performChainMaintenance
  cases paid : rules.distributeFbaBalances node.objects with
  | error fault => exact empty
  | ok rest =>
      simp only
      cases counted : tally rules (startTally (node.setRest rest)) with
      | ok after => exact finishMaintenance_empty after
      | throw fault left =>
          refine absurd ⟨rest, paid, ?_⟩ counts
          rw [counted]
          rfl

theorem BufferRun.empty (run : BufferRun rules b) : b.Empty := by
  induction run with
  | start => exact ⟨rfl, rfl, rfl⟩
  | maintenance before o counts ih =>
      exact performChainMaintenance_empty ih counts

/-- The maintenance depends on the objects only, whatever maintenances the two
nodes have been through, if none of them was aborted while it counted.  In the
classic mode the votes must be for witnesses and committee members there are. -/
theorem maintenance_depends_on_objects (left : BufferRun rules first)
    (right : BufferRun rules second) (o : Objects X)
    (votesForRoles : o.inStakingMode = false → o.VotesForRoles) :
    resultOf (performChainMaintenance rules ⟨o, first⟩) =
      resultOf (performChainMaintenance rules ⟨o, second⟩) :=
  performChainMaintenance_same rfl left.empty right.empty votesForRoles

end Runs

section Sample

/-- Rules for objects whose rest says whether a reward overflows. -/
def sampleRules : Rules Bool where
  countsVotes _ _ := true
  votingStake _ _ := .ok 0
  distributeFbaBalances o := .ok o.rest
  processFees _ o := .ok o.rest
  distributeRewards _ o := if o.rest then .error .overflow else .ok o
  updateTopNAuthorities o := .ok o
  finish o := .ok o

/-- Two witnesses in the staking mode; the first has missed the blocks. -/
def sampleObjects (overflows : Bool) (missed : Int) : Objects Bool where
  headBlockTime := 1610000000
  witnesses :=
    [⟨7, 0, true, false, missed, 1, 50, 0⟩, ⟨8, 1, true, false, 1, 1, 10, 0⟩]
  committeeMembers := []
  accounts := []
  nextAvailableVoteId := 2
  maximumWitnessCount := 1
  maximumCommitteeCount := 1
  minWitnessCount := 1
  minCommitteeMemberCount := 1
  missedBlockLimit := 100
  validNodesNumber := 2
  stakingModeOn := true
  activeWitnesses := []
  activeCommitteeMembers := []
  witnessAuthority := ⟨0, []⟩
  committeeAuthority := ⟨0, []⟩
  relaxedCommitteeAuthority := ⟨0, []⟩
  rest := overflows

/-- A node that has been through a maintenance before and one that has not. -/
theorem maintenance_depends_on_objects_twice :
    resultOf
        (performChainMaintenance sampleRules
          ⟨sampleObjects false 500,
            (performChainMaintenance sampleRules
              ⟨sampleObjects false 1, .fresh⟩).state.buffers⟩) =
      resultOf
        (performChainMaintenance sampleRules
          ⟨sampleObjects false 500, .fresh⟩) := by
  refine maintenance_depends_on_objects
    (.maintenance .start (sampleObjects false 1) ?_) .start _ ?_
  · rintro ⟨rest, paid, aborted⟩
    cases paid
    exact absurd aborted (by decide)
  · intro classic
    exact absurd classic (by decide)

/-- The rewards of a block overflow, and the node counts the votes of the first
witness in the next maintenance, in which that witness is banned. -/
theorem aborted_count_leaks :
    resultOf
        (performChainMaintenance sampleRules
          ⟨sampleObjects false 500,
            (performChainMaintenance sampleRules
              ⟨sampleObjects true 1, .fresh⟩).state.buffers⟩) ≠
      resultOf
        (performChainMaintenance sampleRules
          ⟨sampleObjects false 500, .fresh⟩) := by
  decide

end Sample

end GxbCore.Voting
