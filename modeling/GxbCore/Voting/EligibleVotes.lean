import GxbCore.Voting.ActiveSet
import GxbCore.Voting.BufferRuns

/-!
# Votes of witnesses that are not eligible

A witness without a pledge is not valid, and one that misses too many blocks is
banned in the staking mode.  The classic count asks for the validity of a vote
id, but not when the vote is for a worker; the count in the staking mode asks for
missed blocks and bans, and not for the validity.

Vote ids are given out one after the other, so that no two witnesses or
committee members share one.
-/

namespace GxbCore.Voting

open GxbCore.Ledger (Fault int64 WitnessId)

variable {X : Type}

def maximumVoteIds : Nat :=
  2 ^ 24

/-- `get_next_vote_id`, its instance -/
def Objects.nextVoteId (o : Objects X) : Nat :=
  o.nextAvailableVoteId % maximumVoteIds

/-- The vote ids of witnesses and committee members. -/
def Objects.roleIds (o : Objects X) : List Nat :=
  o.witnesses.map (·.voteId) ++ o.committeeMembers.map (·.voteId)

structure Objects.VoteIdsGiven (o : Objects X) : Prop where
  distinct : o.roleIds.Nodup
  given : ∀ id ∈ o.roleIds, id < o.nextAvailableVoteId

structure SameVoteIds (before after : Objects X) : Prop where
  roles : after.roleIds = before.roleIds
  nextId : after.nextAvailableVoteId = before.nextAvailableVoteId

/-- What makes a witness eligible, and its vote id. -/
def Witness.standing (w : Witness) : Nat × Bool × Bool :=
  (w.voteId, w.isValid, w.isBanned)

/-- The vote ids stay as they are, and so does the standing of witnesses. -/
structure SameRoles (before after : Objects X) : Prop where
  witnesses :
    after.witnesses.map Witness.standing =
      before.witnesses.map Witness.standing
  members :
    after.committeeMembers.map (·.voteId) =
      before.committeeMembers.map (·.voteId)
  nextId : after.nextAvailableVoteId = before.nextAvailableVoteId

/-- The active witnesses stay as they are, too. -/
structure SameActive (before after : Objects X) : Prop
    extends SameRoles before after where
  active : after.activeWitnesses = before.activeWitnesses

section VoteIds

variable {before middle after : Objects X}

theorem Objects.VoteIdsGiven.same
    (is : before.VoteIdsGiven) (same : SameVoteIds before after) :
    after.VoteIdsGiven := by
  refine ⟨?_, ?_⟩
  · rw [same.roles]
    exact is.distinct
  · intro id member
    rw [same.nextId]
    rw [same.roles] at member
    exact is.given id member

theorem SameVoteIds.trans
    (first : SameVoteIds before middle) (second : SameVoteIds middle after) :
    SameVoteIds before after :=
  ⟨second.roles.trans first.roles, second.nextId.trans first.nextId⟩

theorem SameRoles.trans
    (first : SameRoles before middle) (second : SameRoles middle after) :
    SameRoles before after :=
  ⟨second.witnesses.trans first.witnesses, second.members.trans first.members,
    second.nextId.trans first.nextId⟩

theorem SameActive.trans
    (first : SameActive before middle) (second : SameActive middle after) :
    SameActive before after :=
  ⟨first.toSameRoles.trans second.toSameRoles,
    second.active.trans first.active⟩

theorem map_voteId_eq (witnesses : List Witness) :
    witnesses.map (·.voteId) = (witnesses.map Witness.standing).map (·.1) := by
  rw [List.map_map]
  rfl

theorem SameRoles.sameVoteIds (same : SameRoles before after) :
    SameVoteIds before after := by
  refine ⟨?_, same.nextId⟩
  rw [Objects.roleIds, Objects.roleIds, map_voteId_eq, same.witnesses,
    same.members, ← map_voteId_eq]

theorem SameRoles.getElem? (same : SameRoles before after) {id : Nat}
    {w : Witness} (found : before.witnesses[id]? = some w) :
    ∃ other, after.witnesses[id]? = some other ∧
      other.standing = w.standing := by
  have standings :=
    congrArg (fun standings => standings[id]?) same.witnesses
  simp only [List.getElem?_map, found, Option.map_some] at standings
  exact Option.map_eq_some_iff.mp standings

theorem Objects.VoteIdsGiven.witnesses {o : Objects X} (is : o.VoteIdsGiven) :
    (o.witnesses.map (·.voteId)).Nodup ∧
      ∀ w ∈ o.witnesses, w.voteId < o.nextAvailableVoteId := by
  refine ⟨(List.nodup_append.mp is.distinct).1, ?_⟩
  intro w member
  exact is.given _
    (List.mem_append_left _ (List.mem_map_of_mem member))

end VoteIds

/-- What the maintenance does beside counting votes leaves the standing of
witnesses alone, the rewards included; fees do not make an account a member. -/
structure Rules.KeepsRoles (rules : Rules X) : Prop where
  rewards :
    ∀ {ids : List WitnessId} {o after : Objects X},
      rules.distributeRewards ids o = .ok after → SameRoles o after
  authorities :
    ∀ {o after : Objects X},
      rules.updateTopNAuthorities o = .ok after → SameRoles o after
  finish :
    ∀ {o after : Objects X},
      rules.finish o = .ok after → SameActive o after
  balances :
    ∀ {o : Objects X} {rest : X},
      rules.distributeFbaBalances o = .ok rest →
        rules.countsVotes { o with rest := rest } = rules.countsVotes o
  fees :
    ∀ {o : Objects X} {id : Nat} {rest : X},
      rules.processFees id o = .ok rest →
        rules.countsVotes { o with rest := rest } = rules.countsVotes o

/-- The count of a maintenance that gets so far. -/
def CountsTo (rules : Rules X) (node counted : Node X) : Prop :=
  ∃ rest, rules.distributeFbaBalances node.objects = .ok rest ∧
    tally rules (startTally (node.setRest rest)) = .ok counted

section Frame

variable {rules : Rules X} {node after counted : Node X}

theorem performChainMaintenance_eq_ok :
    performChainMaintenance rules node = .ok after ↔
      ∃ counted, CountsTo rules node counted ∧
        finishMaintenance rules counted = .ok after := by
  unfold performChainMaintenance CountsTo
  cases rules.distributeFbaBalances node.objects with
  | error fault =>
      constructor
      · intro returned
        cases returned
      · rintro ⟨_, ⟨_, none, _⟩, _⟩
        cases none
  | ok rest =>
      simp only [Outcome.bind_eq_ok]
      constructor
      · rintro ⟨counted, isCount, finished⟩
        exact ⟨counted, ⟨rest, rfl, isCount⟩, finished⟩
      · rintro ⟨counted, ⟨_, same, isCount⟩, finished⟩
        cases same
        exact ⟨counted, isCount, finished⟩

theorem processFeesOf_setRest {a : VotingAccount}
    (returned : processFeesOf rules a node = .ok after) :
    ∃ rest, rules.processFees a.id node.objects = .ok rest ∧
      after = node.setRest rest := by
  unfold processFeesOf at returned
  split at returned
  · cases returned
  · next rest paid =>
      cases returned
      exact ⟨rest, paid, rfl⟩

theorem forEach_processFees {accounts : List VotingAccount}
    (returned : forEach (processFeesOf rules) accounts node = .ok after) :
    ∃ rest, after = node.setRest rest := by
  induction accounts generalizing node with
  | nil =>
      cases returned
      exact ⟨after.objects.rest, rfl⟩
  | cons a rest ih =>
      obtain ⟨middle, first, later⟩ := Outcome.bind_eq_ok.mp returned
      obtain ⟨paid, _, rfl⟩ := processFeesOf_setRest first
      obtain ⟨last, rfl⟩ := ih later
      exact ⟨last, rfl⟩

end Frame

section Staking

variable {rules : Rules X} {limit : Nat} {b : Buffers}
  {witnesses : List Witness}

/-- A witness after the count. -/
def Witness.weighed (limit : Nat) (w : Witness) : Witness :=
  if checkWitnessAvailable limit w then
    { w with previousMissed := w.totalMissed }
  else
    { w with isBanned := true, previousMissed := w.totalMissed }

def Witness.weight (limit : Nat) (w : Witness) : UInt64 :=
  if checkWitnessAvailable limit w then UInt64.ofInt w.totalVoteWeights else 0

theorem weighWitness_witness (limit : Nat) (b : Buffers) (w : Witness) :
    (weighWitness limit b w).2 = w.weighed limit := by
  unfold weighWitness Witness.weighed
  split
  · rfl
  · rfl

theorem weighed_voteId (limit : Nat) (w : Witness) :
    (w.weighed limit).voteId = w.voteId := by
  unfold Witness.weighed
  split
  · rfl
  · rfl

theorem weighed_isValid (limit : Nat) (w : Witness) :
    (w.weighed limit).isValid = w.isValid := by
  unfold Witness.weighed
  split
  · rfl
  · rfl

/-- A witness that is banned after the count was not available. -/
theorem weight_eq_zero_of_banned {w : Witness}
    (banned : (w.weighed limit).isBanned = true) : w.weight limit = 0 := by
  unfold Witness.weight
  unfold Witness.weighed at banned
  by_cases available : checkWitnessAvailable limit w = true
  · rw [if_pos available] at banned
    have isBanned : w.isBanned = true := banned
    rw [checkWitnessAvailable, if_pos isBanned] at available
    cases available
  · exact if_neg available

theorem weighWitnesses_witnesses :
    (weighWitnesses limit witnesses b).2 =
      witnesses.map (Witness.weighed limit) := by
  induction witnesses generalizing b with
  | nil => rfl
  | cons w rest ih =>
      rw [weighWitnesses, List.map_cons]
      simp only
      rw [weighWitness_witness, ih]

theorem weighWitness_length (limit : Nat) (b : Buffers) (w : Witness) :
    (weighWitness limit b w).1.voteTally.length = b.voteTally.length := by
  unfold weighWitness
  split
  · exact List.length_set
  · rfl

theorem weighWitness_other {id : Nat} {w : Witness} (other : w.voteId ≠ id) :
    (weighWitness limit b w).1.voteTally.getD id 0 =
      b.voteTally.getD id 0 := by
  unfold weighWitness
  split
  · simp only [List.getD_eq_getElem?_getD]
    rw [List.getElem?_set_ne other]
  · rfl

theorem weighWitness_self {w : Witness} (inside : w.voteId < b.voteTally.length)
    (zero : b.voteTally.getD w.voteId 0 = 0) :
    (weighWitness limit b w).1.voteTally.getD w.voteId 0 = w.weight limit := by
  unfold weighWitness Witness.weight
  split
  · simp only [List.getD_eq_getElem?_getD]
    rw [List.getElem?_set_self inside]
    rfl
  · exact zero

theorem weighWitnesses_other {id : Nat}
    (others : ∀ w ∈ witnesses, w.voteId ≠ id) :
    (weighWitnesses limit witnesses b).1.voteTally.getD id 0 =
      b.voteTally.getD id 0 := by
  induction witnesses generalizing b with
  | nil => rfl
  | cons w rest ih =>
      rw [weighWitnesses]
      simp only
      rw [ih
          (fun other member => others other (List.mem_cons_of_mem w member)),
        weighWitness_other (others w List.mem_cons_self)]

theorem weighWitnesses_tally (distinct : (witnesses.map (·.voteId)).Nodup)
    (inside : ∀ w ∈ witnesses, w.voteId < b.voteTally.length)
    (zero : ∀ w ∈ witnesses, b.voteTally.getD w.voteId 0 = 0) :
    ∀ w ∈ witnesses,
      (weighWitnesses limit witnesses b).1.voteTally.getD w.voteId 0 =
        w.weight limit := by
  induction witnesses generalizing b with
  | nil =>
      intro w member
      cases member
  | cons first rest ih =>
      rw [List.map_cons, List.nodup_cons] at distinct
      have apart : ∀ w ∈ rest, w.voteId ≠ first.voteId := by
        intro w member same
        exact distinct.1 (same ▸ List.mem_map_of_mem member)
      intro w member
      rw [weighWitnesses]
      simp only
      rcases List.mem_cons.mp member with rfl | later
      · rw [weighWitnesses_other apart]
        exact weighWitness_self (inside w List.mem_cons_self)
          (zero w List.mem_cons_self)
      · refine ih distinct.2 ?_ ?_ w later
        · intro other isLater
          rw [weighWitness_length]
          exact inside other (List.mem_cons_of_mem first isLater)
        · intro other isLater
          rw [weighWitness_other (apart other isLater).symm]
          exact zero other (List.mem_cons_of_mem first isLater)

end Staking

section Count

variable {rules : Rules X} {node counted : Node X} {rest : X}

theorem getD_resize_nil (size id : Nat) : (resize size []).getD id 0 = 0 := by
  rw [resize, List.nil_append, List.length_nil, Nat.sub_zero,
    List.getD_eq_getElem?_getD, List.getElem?_take, List.getElem?_replicate]
  split
  · rfl
  · rfl

theorem startTally_zero (empty : node.buffers.Empty) (id : Nat) :
    (startTally node).buffers.voteTally.getD id 0 = 0 := by
  simp only [startTally, empty.voteTally]
  exact getD_resize_nil _ _

theorem tallyStaking_eq_ok (returned : tallyStaking rules node = .ok counted) :
    ∃ ids rest o,
      rules.distributeRewards ids
          ((statisticalVoteWeight node).setRest rest).objects = .ok o ∧
      counted = ⟨o, (statisticalVoteWeight node).buffers⟩ := by
  unfold tallyStaking at returned
  simp only at returned
  obtain ⟨paid, fees, rewarded⟩ := Outcome.bind_eq_ok.mp returned
  obtain ⟨rest, rfl⟩ := forEach_processFees fees
  split at rewarded
  · cases rewarded
  · next o distributed =>
      cases rewarded
      exact ⟨_, rest, o, distributed, rfl⟩

theorem statisticalVoteWeight_objects :
    (statisticalVoteWeight node).objects =
      { node.objects with
        witnesses :=
          node.objects.witnesses.map
            (Witness.weighed node.objects.missedBlockLimit) } := by
  simp only [statisticalVoteWeight, weighWitnesses_witnesses]

theorem tallyStaking_spec (keeps : rules.KeepsRoles)
    (empty : node.buffers.Empty) (given : node.objects.VoteIdsGiven)
    (returned : tallyStaking rules (startTally node) = .ok counted) :
    (∃ o,
      o.witnesses =
        node.objects.witnesses.map
          (Witness.weighed node.objects.missedBlockLimit) ∧
      o.committeeMembers = node.objects.committeeMembers ∧
      o.nextAvailableVoteId = node.objects.nextAvailableVoteId ∧
      SameRoles o counted.objects) ∧
    ∀ w ∈ node.objects.witnesses,
      counted.buffers.voteTally.getD w.voteId 0 =
        w.weight node.objects.missedBlockLimit := by
  obtain ⟨ids, rest, o, distributed, rfl⟩ := tallyStaking_eq_ok returned
  obtain ⟨distinct, inside⟩ := given.witnesses
  have same := keeps.rewards distributed
  refine ⟨⟨_, ?_, ?_, ?_, same⟩, ?_⟩
  · simp only [Node.setRest, statisticalVoteWeight_objects]
    rfl
  · simp only [Node.setRest, statisticalVoteWeight_objects]
    rfl
  · simp only [Node.setRest, statisticalVoteWeight_objects]
    rfl
  · intro w member
    refine weighWitnesses_tally distinct ?_ ?_ w member
    · intro other isWitness
      show other.voteId < (resize _ node.buffers.voteTally).length
      rw [resize_length]
      exact inside other isWitness
    · intro other _
      exact startTally_zero empty other.voteId

end Count

section Classic

variable {rules : Rules X} {node after counted : Node X} {id : Nat}

theorem markValid_other {roles : List (Nat × Bool)}
    (valid : Nat → Bool) (others : ∀ role ∈ roles, role.1 ≠ id) :
    markValid roles valid id = valid id := by
  unfold markValid
  induction roles generalizing valid with
  | nil => rfl
  | cons role rest ih =>
      rw [List.foldl_cons,
        ih _
          (fun other member => others other (List.mem_cons_of_mem role member)),
        Function.update_of_ne (others role List.mem_cons_self).symm]

/-- With different vote ids the map is that of the roles. -/
theorem markValid_role {roles : List (Nat × Bool)} {role : Nat × Bool}
    (valid : Nat → Bool) (distinct : (roles.map (·.1)).Nodup)
    (member : role ∈ roles) : markValid roles valid role.1 = role.2 := by
  induction roles generalizing valid with
  | nil => cases member
  | cons first rest ih =>
      rw [List.map_cons, List.nodup_cons] at distinct
      have step :
          markValid (first :: rest) valid =
            markValid rest (Function.update valid first.1 first.2) := rfl
      rw [step]
      rcases List.mem_cons.mp member with rfl | later
      · rw [markValid_other]
        · exact Function.update_self _ _ _
        · intro other isLater same
          exact distinct.1 (same ▸ List.mem_map_of_mem isLater)
      · exact ih _ distinct.2 later

theorem roles_map_fst (o : Objects X) : o.roles.map (·.1) = o.roleIds := by
  rw [Objects.roles, Objects.roleIds, List.map_append, List.map_map,
    List.map_map]
  rfl

theorem startTally_valid (given : node.objects.VoteIdsGiven) {w : Witness}
    (member : w ∈ node.objects.witnesses) :
    (startTally node).buffers.voteIdValid w.voteId = w.isValid := by
  have isRole : (w.voteId, w.isValid) ∈ node.objects.roles := by
    rw [Objects.roles]
    exact List.mem_append_left _
      (List.mem_map.mpr ⟨w, member, rfl⟩)
  refine markValid_role node.buffers.voteIdValid ?_ isRole
  rw [roles_map_fst]
  exact given.distinct

/-- A vote id that is not valid and has no votes. -/
structure Buffers.Without (b : Buffers) (id : Nat) : Prop where
  zero : b.voteTally.getD id 0 = 0
  invalid : b.voteIdValid id = false

theorem Buffers.Without.addVote {b : Buffers} {stake : UInt64} {vote : VoteId}
    (without : b.Without id) (notFor : vote.type = .worker → vote.num ≠ id) :
    (addVote stake b vote).Without id := by
  refine ⟨?_, ?_⟩
  · unfold Voting.addVote
    split
    · next counted =>
        have other : vote.num ≠ id := by
          rcases counted.2 with isWorker | valid
          · exact notFor isWorker
          · intro same
            rw [same, without.invalid] at valid
            cases valid
        show (b.voteTally.modify vote.num (· + stake)).getD id 0 = 0
        rw [List.getD_eq_getElem?_getD, List.getElem?_modify_ne _ _ other,
          ← List.getD_eq_getElem?_getD]
        exact without.zero
    · exact without.zero
  · rw [addVote_valid]
    exact without.invalid

theorem Buffers.Without.addVotes {b : Buffers} (stake : UInt64)
    {votes : List VoteId} (without : b.Without id)
    (notFor : ∀ vote ∈ votes, vote.type = .worker → vote.num ≠ id) :
    (votes.foldl (Voting.addVote stake) b).Without id := by
  induction votes generalizing b with
  | nil => exact without
  | cons vote rest ih =>
      rw [List.foldl_cons]
      exact ih
        (without.addVote (notFor vote List.mem_cons_self))
        (fun other member => notFor other (List.mem_cons_of_mem vote member))

def NoWorkerVotes (rules : Rules X) (o : Objects X) (id : Nat) : Prop :=
  ∀ a ∈ o.accounts, rules.countsVotes o a.id = true →
    ∀ opinion, o.opinionAccount a = some opinion →
      ∀ vote ∈ opinion.votes, vote.type = .worker → vote.num ≠ id

/-- Between two accounts: the objects are those from the start, but for
balances. -/
structure Counting (rules : Rules X) (o : Objects X) (id : Nat)
    (node : Node X) : Prop where
  objects : ∃ rest, node.objects = { o with rest := rest }
  members : rules.countsVotes node.objects = rules.countsVotes o
  without : node.buffers.Without id

theorem Counting.tallyAccount {o : Objects X} {a : VotingAccount}
    (counting : Counting rules o id node) (noVotes : NoWorkerVotes rules o id)
    (member : a ∈ o.accounts)
    (returned : tallyAccount rules a node = .ok after) :
    Counting rules o id after := by
  obtain ⟨rest, same⟩ := counting.objects
  unfold Voting.tallyAccount at returned
  split at returned
  · next counts =>
      split at returned
      · cases returned
      · next opinion isOpinion =>
          split at returned
          · cases returned
          · next stake staked =>
              cases returned
              rw [counting.members] at counts
              rw [same] at isOpinion
              have votes :=
                counting.without.addVotes stake
                  (noVotes a member counts opinion isOpinion)
              exact ⟨counting.objects, counting.members, votes.zero,
                votes.invalid⟩
  · cases returned
    exact counting

theorem Counting.processFeesOf {o : Objects X} {a : VotingAccount}
    (keeps : rules.KeepsRoles) (counting : Counting rules o id node)
    (returned : processFeesOf rules a node = .ok after) :
    Counting rules o id after := by
  obtain ⟨before, same⟩ := counting.objects
  obtain ⟨rest, paid, rfl⟩ := processFeesOf_setRest returned
  refine ⟨⟨rest, ?_⟩, ?_, counting.without⟩
  · simp only [Node.setRest, same]
  · exact (keeps.fees paid).trans counting.members

theorem Counting.tallyClassic {o : Objects X} (keeps : rules.KeepsRoles)
    (counting : Counting rules o id node) (noVotes : NoWorkerVotes rules o id)
    (returned : tallyClassic rules node = .ok after) :
    Counting rules o id after := by
  obtain ⟨_, same⟩ := counting.objects
  have sameAccounts : node.objects.accounts = o.accounts := by rw [same]
  unfold Voting.tallyClassic at returned
  rw [sameAccounts] at returned
  refine (@forEach_ok_all _ _ _ _ (Counting rules o id) (fun _ => True)
    _ _ _ ?_ counting returned).1
  intro a member before next isCounting round
  obtain ⟨middle, tallied, paid⟩ := Outcome.bind_eq_ok.mp round
  exact ⟨(isCounting.tallyAccount noVotes member tallied).processFeesOf keeps
    paid, trivial⟩

theorem tallyClassic_objects (returned : tallyClassic rules node = .ok after) :
    ∃ rest, after.objects = { node.objects with rest := rest } := by
  unfold Voting.tallyClassic at returned
  refine (@forEach_ok_all _ _ _ _
    (fun state : Node X =>
      ∃ rest, state.objects = { node.objects with rest := rest })
    (fun _ => True) _ _ _ ?_ ⟨node.objects.rest, rfl⟩ returned).1
  rintro a _ before next ⟨_, same⟩ round
  obtain ⟨middle, tallied, paid⟩ := Outcome.bind_eq_ok.mp round
  obtain ⟨rest, _, rfl⟩ := processFeesOf_setRest paid
  refine ⟨⟨rest, ?_⟩, trivial⟩
  simp only [Node.setRest, tallyAccount_objects tallied, same]

end Classic

section Selection

variable {b : Buffers} {o after : Objects X}

theorem setMemberVotes_sameActive (id : Nat) (votes : UInt64) (o : Objects X) :
    SameActive o (setMemberVotes id votes o) := by
  refine ⟨⟨rfl, ?_, rfl⟩, rfl⟩
  refine List.ext_getElem? fun place => ?_
  simp only [setMemberVotes, List.getElem?_map, List.getElem?_modify]
  cases o.committeeMembers[place]? with
  | none => rfl
  | some m =>
      split
      · rfl
      · rfl

theorem pickMembers_sameActive (b : Buffers) (wits : List (WitnessId × Witness))
    (left : Nat) (o : Objects X) :
    SameActive o (pickMembers b wits left o).2 := by
  induction wits generalizing left o with
  | nil => exact ⟨⟨rfl, rfl, rfl⟩, rfl⟩
  | cons w later ih =>
      rw [pickMembers]
      split
      · exact ih left o
      · next m id _ =>
          have first :=
            setMemberVotes_sameActive id (b.voteTally.getD w.2.voteId 0) o
          by_cases last : left ≤ 1
          · simp only [last, if_true]
            exact first
          · simp only [last, if_false]
            exact first.trans (ih (left - 1) _)

theorem setCommittee_sameActive (members : List (Nat × CommitteeMember))
    (o : Objects X) : SameActive o (setCommittee members o) :=
  ⟨⟨rfl, rfl, rfl⟩, rfl⟩

theorem foldl_setMemberVotes_sameActive
    (members : List (Nat × CommitteeMember)) (o : Objects X) :
    SameActive o
      (members.foldl (fun o m => setMemberVotes m.1 m.2.totalVotes o) o) := by
  induction members generalizing o with
  | nil => exact ⟨⟨rfl, rfl, rfl⟩, rfl⟩
  | cons m later ih =>
      rw [List.foldl_cons]
      exact (setMemberVotes_sameActive m.1 m.2.totalVotes o).trans
        (ih _)

/-- The witnesses are the first of the ranking, whatever comes after. -/
theorem updateWitnesses_eq_ok {wits : List (WitnessId × Witness)}
    (updated : updateWitnesses b o = .ok (wits, after)) :
    SameRoles o after ∧
      ∃ count,
        after.activeWitnesses =
          ((chosenWitnesses b o count).map (·.1)).insertionSort (· ≤ ·) := by
  simp only [updateWitnesses, bind_eq_ok] at updated
  obtain ⟨count, counted, made⟩ := updated
  rw [sortVotableObjects_withIds] at made
  cases made
  refine ⟨⟨?_, rfl, rfl⟩, count, rfl⟩
  show (o.witnesses.map _).map Witness.standing = _
  rw [List.map_map]
  rfl

theorem updateActive_eq_ok (updated : updateActive b o = .ok after) :
    SameRoles o after ∧
      ∃ count,
        after.activeWitnesses =
          ((chosenWitnesses b o count).map (·.1)).insertionSort (· ≤ ·) := by
  unfold updateActive at updated
  split at updated
  · simp only [updateActiveTrustnodes, bind_eq_ok] at updated
    obtain ⟨⟨wits, middle⟩, chosen, returned⟩ := updated
    obtain ⟨same, count, active⟩ := updateWitnesses_eq_ok chosen
    cases returned
    have picked :=
      (pickMembers_sameActive b wits
        (middle.maximumCommitteeCount / 2 * 2 + 1) middle).trans
        (setCommittee_sameActive
          (pickMembers b wits (middle.maximumCommitteeCount / 2 * 2 + 1)
            middle).1 _)
    exact ⟨same.trans picked.toSameRoles, count, picked.active.trans active⟩
  · simp only [bind_eq_ok] at updated
    obtain ⟨⟨wits, middle⟩, chosen, returned⟩ := updated
    obtain ⟨same, count, active⟩ := updateWitnesses_eq_ok chosen
    cases returned
    have members : SameActive middle (updateActiveCommitteeMembers b middle) :=
      (foldl_setMemberVotes_sameActive _ middle).trans
        (setCommittee_sameActive _ _)
    exact ⟨same.trans members.toSameRoles, count, members.active.trans active⟩

theorem mem_withIds {witnesses : List Witness} {id : WitnessId} {w : Witness} :
    (id, w) ∈ withIds witnesses ↔ witnesses[id]? = some w := by
  rw [withIds, List.mem_map]
  constructor
  · rintro ⟨⟨other, place⟩, member, same⟩
    cases same
    exact List.mem_zipIdx_iff_getElem?.mp member
  · intro found
    exact ⟨(w, id), List.mem_zipIdx_iff_getElem?.mpr found, rfl⟩

theorem mem_take_of_not_after {α : Type} {relation : α → α → Prop}
    {all : List α} {count : Nat} {first second : α}
    (ordered : all.Pairwise relation) (inFront : first ∈ all.take count)
    (member : second ∈ all) (notAfter : ¬ relation first second) :
    second ∈ all.take count := by
  rw [← List.take_append_drop count all] at ordered member
  rcases List.mem_append.mp member with front | back
  · exact front
  · exact absurd
      ((List.pairwise_append.mp ordered).2.2 first inFront second back) notAfter

theorem updateActive_ordered {id other : WitnessId} {w v : Witness}
    (updated : updateActive b o = .ok after)
    (distinct : (o.witnesses.map (·.voteId)).Nodup)
    (isWitness : o.witnesses[id]? = some w)
    (isOther : o.witnesses[other]? = some v)
    (more : signedVotes b.voteTally w.voteId < signedVotes b.voteTally v.voteId)
    (active : id ∈ after.activeWitnesses) : other ∈ after.activeWitnesses := by
  obtain ⟨_, count, isActive⟩ := updateActive_eq_ok updated
  have isRanking := @ranking_isRanking b.voteTally _ distinct
  rw [isActive] at active ⊢
  obtain ⟨entry, chosen, rfl⟩ :=
    List.mem_map.mp ((List.mem_insertionSort (· ≤ ·)).mp active)
  have ranked : entry ∈ ranking b.voteTally o.witnesses :=
    List.mem_of_mem_take chosen
  have isEntry : entry.2 = w := by
    have found := mem_withIds.mp (isRanking.all.mem_iff.mp ranked)
    rw [found] at isWitness
    exact Option.some.inj isWitness
  have alsoRanked : (other, v) ∈ ranking b.voteTally o.witnesses :=
    isRanking.all.mem_iff.mpr (mem_withIds.mpr isOther)
  have before : ¬ RanksBefore b.voteTally entry.2 v := by
    rw [isEntry]
    simp only [RanksBefore]
    omega
  have alsoChosen :=
    mem_take_of_not_after isRanking.ordered chosen alsoRanked before
  exact (List.mem_insertionSort (· ≤ ·)).mpr
    (List.mem_map.mpr ⟨(other, v), alsoChosen, rfl⟩)

end Selection

section Runs

variable {rules : Rules X} {node after counted : Node X}

/-- `witness_create_evaluator`, as far as the vote id is concerned -/
def createWitness (w : Witness) (o : Objects X) : Objects X :=
  { o with
    witnesses := o.witnesses ++ [{ w with voteId := o.nextVoteId }]
    nextAvailableVoteId := o.nextAvailableVoteId + 1 }

/-- `committee_member_create_evaluator` -/
def createCommitteeMember (m : CommitteeMember) (o : Objects X) : Objects X :=
  { o with
    committeeMembers :=
      o.committeeMembers ++ [{ m with voteId := o.nextVoteId }]
    nextAvailableVoteId := o.nextAvailableVoteId + 1 }

/-- `worker_create_evaluator`: a vote id for it and one against it -/
def createWorker (o : Objects X) : Objects X :=
  { o with nextAvailableVoteId := o.nextAvailableVoteId + 2 }

/-- Runs of a node: whatever leaves the vote ids alone, the operations that give
out vote ids, while there are any, blocks that are undone, and maintenances.
The objects of a maintenance that throws are restored.  None of them was aborted
while it counted. -/
inductive VoteRun (rules : Rules X) : Node X → Prop
  | start {o : Objects X} (noWitnesses : o.witnesses = [])
      (noMembers : o.committeeMembers = []) : VoteRun rules ⟨o, .fresh⟩
  | elsewhere {node : Node X} {o : Objects X} (run : VoteRun rules node)
      (same : SameVoteIds node.objects o) : VoteRun rules ⟨o, node.buffers⟩
  | createWitness {node : Node X} (run : VoteRun rules node) (w : Witness)
      (room : node.objects.nextAvailableVoteId < maximumVoteIds) :
      VoteRun rules ⟨Voting.createWitness w node.objects, node.buffers⟩
  | createCommitteeMember {node : Node X} (run : VoteRun rules node)
      (m : CommitteeMember)
      (room : node.objects.nextAvailableVoteId < maximumVoteIds) :
      VoteRun rules ⟨Voting.createCommitteeMember m node.objects, node.buffers⟩
  | createWorker {node : Node X} (run : VoteRun rules node) :
      VoteRun rules ⟨Voting.createWorker node.objects, node.buffers⟩
  | undo {node earlier : Node X} (run : VoteRun rules node)
      (restored : VoteRun rules earlier) :
      VoteRun rules ⟨earlier.objects, node.buffers⟩
  | maintenance {node after : Node X} (run : VoteRun rules node)
      (counts : ¬ AbortsCount rules node)
      (returned : performChainMaintenance rules node = .ok after) :
      VoteRun rules after
  | failed {node left : Node X} {fault : Fault} (run : VoteRun rules node)
      (counts : ¬ AbortsCount rules node)
      (thrown : performChainMaintenance rules node = .throw fault left) :
      VoteRun rules ⟨node.objects, left.buffers⟩

theorem Objects.VoteIdsGiven.setRest {o : Objects X} (given : o.VoteIdsGiven)
    (rest : X) : Objects.VoteIdsGiven { o with rest := rest } :=
  ⟨given.distinct, given.given⟩

theorem CountsTo.sameVoteIds
    (keeps : rules.KeepsRoles) (empty : node.buffers.Empty)
    (given : node.objects.VoteIdsGiven) (counts : CountsTo rules node counted) :
    SameVoteIds node.objects counted.objects := by
  obtain ⟨rest, _, tallied⟩ := counts
  unfold tally at tallied
  split at tallied
  · obtain ⟨⟨o, witnesses, members, nextId, same⟩, _⟩ :=
      @tallyStaking_spec X rules (node.setRest rest) counted keeps empty
        (given.setRest rest) tallied
    refine SameVoteIds.trans ⟨?_, nextId⟩ same.sameVoteIds
    rw [Objects.roleIds, witnesses, members, List.map_map]
    have ids :
        (fun w : Witness => w.voteId) ∘
            Witness.weighed (node.setRest rest).objects.missedBlockLimit =
          fun w => w.voteId :=
      funext fun w => weighed_voteId _ w
    rw [ids]
    rfl
  · obtain ⟨last, same⟩ := tallyClassic_objects tallied
    rw [same]
    exact ⟨rfl, rfl⟩

theorem finishMaintenance_eq_ok
    (finished : finishMaintenance rules counted = .ok after) :
    ∃ first second,
      rules.updateTopNAuthorities counted.objects = .ok first ∧
      updateActive counted.buffers first = .ok second ∧
      rules.finish second = .ok after.objects := by
  unfold finishMaintenance at finished
  split at finished
  · cases finished
  · next o settled =>
      simp only [settle, bind_eq_ok] at settled
      obtain ⟨first, authorities, second, updated, last⟩ := settled
      cases finished
      exact ⟨first, second, authorities, updated, last⟩

theorem finishMaintenance_sameRoles (keeps : rules.KeepsRoles)
    (finished : finishMaintenance rules counted = .ok after) :
    SameRoles counted.objects after.objects := by
  obtain ⟨first, second, authorities, updated, last⟩ :=
    finishMaintenance_eq_ok finished
  exact ((keeps.authorities authorities).trans
    (updateActive_eq_ok updated).1).trans (keeps.finish last).toSameRoles

theorem Objects.VoteIdsGiven.add {o : Objects X} (given : o.VoteIdsGiven)
    (room : o.nextAvailableVoteId < maximumVoteIds) {ids : List Nat}
    (perm : ids.Perm (o.nextVoteId :: o.roleIds)) :
    ids.Nodup ∧ ∀ id ∈ ids, id < o.nextAvailableVoteId + 1 := by
  have next : o.nextVoteId = o.nextAvailableVoteId := Nat.mod_eq_of_lt room
  refine ⟨?_, ?_⟩
  · rw [perm.nodup_iff, List.nodup_cons]
    refine ⟨?_, given.distinct⟩
    intro member
    have below := given.given _ member
    omega
  · intro id member
    rcases List.mem_cons.mp (perm.mem_iff.mp member) with rfl | old
    · omega
    · exact Nat.lt_succ_of_lt (given.given id old)

theorem VoteRun.invariant (keeps : rules.KeepsRoles)
    (run : VoteRun rules node) :
    node.objects.VoteIdsGiven ∧ node.buffers.Empty := by
  induction run with
  | @start o noWitnesses noMembers =>
      have none : o.roleIds = [] := by
        rw [Objects.roleIds, noWitnesses, noMembers]
        rfl
      refine ⟨⟨?_, ?_⟩, ⟨rfl, rfl, rfl⟩⟩
      · show o.roleIds.Nodup
        rw [none]
        exact List.nodup_nil
      · intro id member
        have isIn : id ∈ o.roleIds := member
        rw [none] at isIn
        cases isIn
  | elsewhere _ same ih =>
      exact ⟨ih.1.same same, ih.2⟩
  | @createWitness node _ w room ih =>
      obtain ⟨given, empty⟩ := ih
      have perm :
          (Voting.createWitness w node.objects).roleIds.Perm
            (node.objects.nextVoteId :: node.objects.roleIds) := by
        simp only [Objects.roleIds, Voting.createWitness, List.map_append,
          List.map_cons, List.map_nil, List.append_assoc, List.cons_append,
          List.nil_append]
        exact List.perm_middle
      obtain ⟨distinct, inside⟩ := given.add room perm
      exact ⟨⟨distinct, inside⟩, empty⟩
  | @createCommitteeMember node _ m room ih =>
      obtain ⟨given, empty⟩ := ih
      have perm :
          (Voting.createCommitteeMember m node.objects).roleIds.Perm
            (node.objects.nextVoteId :: node.objects.roleIds) := by
        simp only [Objects.roleIds, Voting.createCommitteeMember,
          List.map_append, List.map_cons, List.map_nil, ← List.append_assoc]
        exact List.perm_append_singleton _ _
      obtain ⟨distinct, inside⟩ := given.add room perm
      exact ⟨⟨distinct, inside⟩, empty⟩
  | createWorker _ ih =>
      obtain ⟨given, empty⟩ := ih
      refine ⟨⟨given.distinct, ?_⟩, empty⟩
      intro id member
      exact Nat.lt_add_right 2 (given.given id member)
  | undo _ _ first second => exact ⟨second.1, first.2⟩
  | maintenance _ counts returned ih =>
      obtain ⟨given, empty⟩ := ih
      have cleared := performChainMaintenance_empty empty counts
      rw [returned] at cleared
      obtain ⟨counted, isCount, finished⟩ :=
        performChainMaintenance_eq_ok.mp returned
      have same :=
        (isCount.sameVoteIds keeps empty given).trans
          (finishMaintenance_sameRoles keeps finished).sameVoteIds
      exact ⟨given.same same, cleared⟩
  | failed _ counts thrown ih =>
      obtain ⟨given, empty⟩ := ih
      have cleared := performChainMaintenance_empty empty counts
      rw [thrown] at cleared
      exact ⟨given, cleared⟩

end Runs

section Eligible

variable {rules : Rules X} {node after counted : Node X}

def Ineligible (staking : Bool) (w : Witness) : Prop :=
  w.isValid = false ∨ staking = true ∧ w.isBanned = true

/-- The tally is zero for every witness that is not eligible. -/
def NoVotes (staking : Bool) (counted : Node X) : Prop :=
  ∀ w ∈ counted.objects.witnesses, Ineligible staking w →
    counted.buffers.voteTally.getD w.voteId 0 = 0

/-- In the staking mode no available witness that is not valid has a weight; in
the classic mode no account that counts votes for a worker under the vote id of
such a witness. -/
def VotesForEligible (rules : Rules X) (o : Objects X) : Prop :=
  if o.inStakingMode then
    ∀ w ∈ o.witnesses, w.isValid = false →
      checkWitnessAvailable o.missedBlockLimit w = true →
        UInt64.ofInt w.totalVoteWeights = 0
  else
    ∀ w ∈ o.witnesses, w.isValid = false → NoWorkerVotes rules o w.voteId

/-- A valid witness without a ban that has votes ranks before every witness that
is not eligible, and is active if that one is.  Votes are positive as the
ranking compares them. -/
def NotInPlace (staking : Bool) (counted : Node X) (after : Objects X) : Prop :=
  ∀ (id other : WitnessId) (w v : Witness),
    counted.objects.witnesses[id]? = some w → Ineligible staking w →
    counted.objects.witnesses[other]? = some v →
    v.isValid = true → v.isBanned = false →
    0 < signedVotes counted.buffers.voteTally v.voteId →
      RanksBefore counted.buffers.voteTally v w ∧
        (id ∈ after.activeWitnesses → other ∈ after.activeWitnesses)

theorem mem_weighed {o before : Objects X} {limit : Nat} {w : Witness}
    (witnesses : before.witnesses = o.witnesses.map (Witness.weighed limit))
    {final : Objects X} (same : SameRoles before final)
    (member : w ∈ final.witnesses) :
    ∃ old ∈ o.witnesses, w.standing = (old.weighed limit).standing := by
  have isIn : w.standing ∈ final.witnesses.map Witness.standing :=
    List.mem_map_of_mem member
  rw [same.witnesses, witnesses, List.map_map] at isIn
  obtain ⟨old, isOld, standing⟩ := List.mem_map.mp isIn
  exact ⟨old, isOld, standing.symm⟩

theorem weighed_mem {o before : Objects X} {limit : Nat} {old : Witness}
    (witnesses : before.witnesses = o.witnesses.map (Witness.weighed limit))
    {final : Objects X} (same : SameRoles before final)
    (member : old ∈ o.witnesses) :
    ∃ w ∈ final.witnesses, w.standing = (old.weighed limit).standing := by
  have isIn :
      (old.weighed limit).standing ∈
        final.witnesses.map Witness.standing := by
    rw [same.witnesses, witnesses, List.map_map]
    exact List.mem_map.mpr ⟨old, member, rfl⟩
  exact List.mem_map.mp isIn

theorem noVotes_staking_iff
    (keeps : rules.KeepsRoles) (empty : node.buffers.Empty)
    (given : node.objects.VoteIdsGiven) (counts : CountsTo rules node counted)
    (staking : node.objects.inStakingMode = true) :
    NoVotes true counted ↔ VotesForEligible rules node.objects := by
  obtain ⟨rest, _, tallied⟩ := counts
  have mode :
      (startTally (node.setRest rest)).objects.inStakingMode = true := staking
  rw [tally, if_pos mode] at tallied
  obtain ⟨⟨o, witnesses, _, _, same⟩, weights⟩ :=
    @tallyStaking_spec X rules (node.setRest rest) counted keeps empty
      (given.setRest rest) tallied
  have isLimit :
      (node.setRest rest).objects.missedBlockLimit =
        node.objects.missedBlockLimit := rfl
  have isWitnesses :
      (node.setRest rest).objects.witnesses = node.objects.witnesses := rfl
  rw [isLimit, isWitnesses] at witnesses
  rw [isLimit, isWitnesses] at weights
  rw [VotesForEligible, if_pos staking]
  constructor
  · intro noVotes old isOld invalid available
    obtain ⟨w, member, standing⟩ := weighed_mem witnesses same isOld
    have sameId : w.voteId = old.voteId :=
      (congrArg (·.1) standing).trans (weighed_voteId _ old)
    have sameValid : w.isValid = old.isValid :=
      (congrArg (·.2.1) standing).trans (weighed_isValid _ old)
    have none := noVotes w member (.inl (sameValid.trans invalid))
    rw [sameId, weights old isOld, Witness.weight, if_pos available] at none
    exact none
  · intro eligible w member ineligible
    obtain ⟨old, isOld, standing⟩ := mem_weighed witnesses same member
    have sameId : w.voteId = old.voteId :=
      (congrArg (·.1) standing).trans (weighed_voteId _ old)
    rw [sameId, weights old isOld]
    rcases ineligible with invalid | ⟨_, banned⟩
    · have sameValid : w.isValid = old.isValid :=
        (congrArg (·.2.1) standing).trans (weighed_isValid _ old)
      rw [Witness.weight]
      split
      · next available =>
          exact eligible old isOld (sameValid.symm.trans invalid) available
      · rfl
    · exact weight_eq_zero_of_banned
        ((congrArg (·.2.2) standing).symm.trans banned)

theorem noVotes_classic (keeps : rules.KeepsRoles) (empty : node.buffers.Empty)
    (given : node.objects.VoteIdsGiven) (counts : CountsTo rules node counted)
    (classic : node.objects.inStakingMode = false)
    (eligible : VotesForEligible rules node.objects) :
    NoVotes false counted := by
  obtain ⟨rest, paid, tallied⟩ := counts
  have notStaking : ¬ node.objects.inStakingMode = true := by
    rw [classic]
    exact Bool.false_ne_true
  have mode : ¬ (startTally (node.setRest rest)).objects.inStakingMode = true :=
    notStaking
  rw [tally, if_neg mode] at tallied
  rw [VotesForEligible, if_neg notStaking] at eligible
  obtain ⟨last, same⟩ := tallyClassic_objects tallied
  intro w member ineligible
  rw [same] at member
  have isWitness : w ∈ node.objects.witnesses := member
  rcases ineligible with invalid | ⟨staking, _⟩
  · have start :
        Counting rules node.objects w.voteId
          (startTally (node.setRest rest)) := by
      refine ⟨⟨rest, rfl⟩, keeps.balances paid, ?_, ?_⟩
      · exact @startTally_zero X (node.setRest rest) empty w.voteId
      · exact
          (@startTally_valid X (node.setRest rest) (given.setRest rest) w
            isWitness).trans invalid
    exact (start.tallyClassic keeps (eligible w isWitness invalid)
      tallied).without.zero
  · cases staking

theorem NoVotes.notInPlace {staking : Bool} (keeps : rules.KeepsRoles)
    (given : counted.objects.VoteIdsGiven) (noVotes : NoVotes staking counted)
    (finished : finishMaintenance rules counted = .ok after) :
    NotInPlace staking counted after.objects := by
  intro id other w v isWitness ineligible isOther _ _ positive
  have zero : signedVotes counted.buffers.voteTally w.voteId = 0 := by
    rw [signedVotes,
      noVotes w (List.mem_of_getElem? isWitness) ineligible]
    decide
  refine ⟨.inl (by rw [zero]; exact positive), ?_⟩
  obtain ⟨first, second, authorities, updated, last⟩ :=
    finishMaintenance_eq_ok finished
  have same := keeps.authorities authorities
  obtain ⟨newWitness, atId, standing⟩ := same.getElem? isWitness
  obtain ⟨newOther, atOther, otherStanding⟩ := same.getElem? isOther
  have sameId : newWitness.voteId = w.voteId := congrArg (·.1) standing
  have sameOther : newOther.voteId = v.voteId := congrArg (·.1) otherStanding
  intro active
  rw [(keeps.finish last).active] at active ⊢
  refine updateActive_ordered updated
    (given.same same.sameVoteIds).witnesses.1 atId atOther ?_ active
  rw [sameId, sameOther, zero]
  exact positive

end Eligible

/-- Rules under which every account has a stake of 5. -/
def evenRules : Rules Unit where
  countsVotes _ _ := true
  votingStake _ _ := .ok 5
  distributeFbaBalances _ := .ok ()
  processFees _ _ := .ok ()
  distributeRewards _ o := .ok o
  updateTopNAuthorities o := .ok o
  finish o := .ok o

theorem evenRules_keepsRoles : evenRules.KeepsRoles where
  rewards := by
    intro ids o after distributed
    cases distributed
    exact ⟨rfl, rfl, rfl⟩
  authorities := by
    intro o after updated
    cases updated
    exact ⟨rfl, rfl, rfl⟩
  finish := by
    intro o after finished
    cases finished
    exact ⟨⟨rfl, rfl, rfl⟩, rfl⟩
  balances _ := rfl
  fees _ := rfl

/-- No witness yet, and an account with these votes. -/
def oneVoter (staking : Bool) (votes : List VoteId) : Objects Unit where
  headBlockTime := 1610000000
  witnesses := []
  committeeMembers := []
  accounts := [⟨9, GRAPHENE_PROXY_TO_SELF_ACCOUNT, votes, 1, 1⟩]
  nextAvailableVoteId := 0
  maximumWitnessCount := 1
  maximumCommitteeCount := 1
  minWitnessCount := 1
  minCommitteeMemberCount := 1
  missedBlockLimit := 100
  validNodesNumber := 2
  stakingModeOn := staking
  activeWitnesses := []
  activeCommitteeMembers := []
  witnessAuthority := ⟨0, []⟩
  committeeAuthority := ⟨0, []⟩
  relaxedCommitteeAuthority := ⟨0, []⟩
  rest := ()

/-- Two witnesses; the second has taken its pledge back, and has this weight. -/
def withdrawnNode (staking : Bool) (weight : Int) (votes : List VoteId) :
    Node Unit :=
  ⟨createWitness ⟨8, 0, false, false, 0, 0, weight, 0⟩
      (createWitness ⟨7, 0, true, false, 0, 0, 50, 0⟩ (oneVoter staking votes)),
    .fresh⟩

theorem withdrawnNode_run (staking : Bool) (weight : Int)
    (votes : List VoteId) :
    VoteRun evenRules (withdrawnNode staking weight votes) :=
  .createWitness
    (.createWitness (.start rfl rfl) _
      (show 0 < maximumVoteIds by decide)) _
    (show 1 < maximumVoteIds by decide)

def countedNode (node : Node Unit) : Node Unit :=
  (tally evenRules (startTally node)).state

theorem countedNode_counts {node : Node Unit}
    (returned : (tally evenRules (startTally node)).returned = true) :
    CountsTo evenRules node (countedNode node) :=
  ⟨(), rfl, Outcome.eq_ok_of_returned returned⟩

end GxbCore.Voting
