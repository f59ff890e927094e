import Mathlib.Algebra.BigOperators.Group.List.Basic
import Mathlib.Algebra.Group.Nat.Defs
import Mathlib.Data.List.Sort
import GxbCore.Voting.Maintenance

/-!
# The active witnesses and committee members

`update_active_trustnodes` ranks the witnesses by their votes and takes the
first of them; how many is found by a walk through the histogram of the wishes.
The committee are the members among the active witnesses, best first.

Votes are counted in unsigned and compared in signed 64 bits.
-/

namespace GxbCore.Voting

open GxbCore.Ledger (Fault share int64 AccountId WitnessId share_eq_ok)

variable {X : Type}

/-- Votes as the comparison reads them. -/
def signedVotes (tally : List UInt64) (voteId : Nat) : Int :=
  int64 (tally.getD voteId 0).toNat

/-- The first witness has more votes, or as many and the smaller vote id. -/
def RanksBefore (tally : List UInt64) (first second : Witness) : Prop :=
  signedVotes tally second.voteId < signedVotes tally first.voteId ∨
    signedVotes tally first.voteId = signedVotes tally second.voteId ∧
      first.voteId < second.voteId

/-- The witnesses with their ids, in the order of their rank. -/
structure Ranking (tally : List UInt64) (witnesses : List Witness)
    (ranked : List (WitnessId × Witness)) : Prop where
  all : ranked.Perm (withIds witnesses)
  ordered :
    ranked.Pairwise fun first second => RanksBefore tally first.2 second.2

/-- The ranking that `sort_votable_objects` makes. -/
def ranking (tally : List UInt64) (witnesses : List Witness) :
    List (WitnessId × Witness) :=
  (withIds witnesses).insertionSort fun first second =>
    votedBefore tally first.2.voteId second.2.voteId

section Rank

variable {tally : List UInt64} {witnesses : List Witness}
  {ranked other : List (WitnessId × Witness)}

theorem votedBefore_total (tally : List UInt64) (first second : Nat) :
    votedBefore tally first second ∨ votedBefore tally second first := by
  simp only [votedBefore]
  omega

theorem votedBefore_trans {first second third : Nat}
    (left : votedBefore tally first second)
    (right : votedBefore tally second third) :
    votedBefore tally first third := by
  simp only [votedBefore] at left right ⊢
  omega

theorem withIds_map_snd (witnesses : List Witness) :
    (withIds witnesses).map (·.2) = witnesses := by
  simp [withIds, List.map_map, Function.comp_def]

theorem withIds_map_fst (witnesses : List Witness) :
    (withIds witnesses).map (·.1) = List.range witnesses.length := by
  simp [withIds, List.map_map, Function.comp_def, List.range_eq_range']

theorem withIds_length (witnesses : List Witness) :
    (withIds witnesses).length = witnesses.length := by
  simp [withIds]

/-- With different vote ids the ranking leaves no choice. -/
theorem ranking_isRanking (distinct : (witnesses.map (·.voteId)).Nodup) :
    Ranking tally witnesses (ranking tally witnesses) := by
  have total :
      Std.Total fun first second : WitnessId × Witness =>
        votedBefore tally first.2.voteId second.2.voteId :=
    ⟨fun first second => votedBefore_total tally _ _⟩
  have transitive :
      IsTrans (WitnessId × Witness) fun first second =>
        votedBefore tally first.2.voteId second.2.voteId :=
    ⟨fun _ _ _ left right => votedBefore_trans left right⟩
  have perm : (ranking tally witnesses).Perm (withIds witnesses) :=
    List.perm_insertionSort _ _
  have sorted :
      (ranking tally witnesses).Pairwise fun first second =>
        votedBefore tally first.2.voteId second.2.voteId :=
    List.pairwise_insertionSort _ _
  have apart :
      (ranking tally witnesses).Pairwise fun first second =>
        first.2.voteId ≠ second.2.voteId := by
    have ids :
        ((ranking tally witnesses).map fun entry => entry.2.voteId).Nodup := by
      rw [(perm.map _).nodup_iff]
      rw [← withIds_map_snd witnesses, List.map_map] at distinct
      exact distinct
    exact List.pairwise_map.mp ids
  refine ⟨perm, (sorted.and apart).imp ?_⟩
  rintro first second ⟨before, differs⟩
  simp only [votedBefore] at before
  rw [RanksBefore, signedVotes, signedVotes]
  omega

theorem Ranking.unique (left : Ranking tally witnesses ranked)
    (right : Ranking tally witnesses other) : other = ranked := by
  refine List.Perm.eq_of_pairwise ?_ right.ordered left.ordered
    (right.all.trans left.all.symm)
  intro first second _ _ before after
  simp only [RanksBefore] at before after
  omega

theorem Ranking.nodup (is : Ranking tally witnesses ranked) :
    (ranked.map (·.1)).Nodup := by
  rw [(is.all.map _).nodup_iff, withIds_map_fst]
  exact List.nodup_range

theorem Ranking.length (is : Ranking tally witnesses ranked) :
    ranked.length = witnesses.length := by
  rw [is.all.length_eq, withIds_length]

end Rank

/-- What the first `count` wishes for more than the minimum add up to, in
signed 64 bits; the first entry of the histogram is of no wish. -/
def wishedStake (histogram : List UInt64) (count : Nat) : Int :=
  ((histogram.tail.take count).map fun entry => int64 entry.toNat).sum

/-- The value is in the range of `share_type`. -/
def FitsShare (value : Int) : Prop :=
  -2 ^ 63 ≤ value ∧ value < 2 ^ 63

instance (value : Int) : Decidable (FitsShare value) :=
  inferInstanceAs (Decidable (_ ∧ _))

/-- The number of wishes after which more than half of the stake with an opinion
is reached; all of them when it is not, none without any stake. -/
structure Median (target : Int) (histogram : List UInt64) (count : Nat) :
    Prop where
  within : count ≤ histogram.tail.length
  before : ∀ less < count, wishedStake histogram less ≤ target
  reached :
    target ≤ 0 ∧ count = 0 ∨
      0 < target ∧
        (count = histogram.tail.length ∨ target < wishedStake histogram count)

theorem share_of_fits {value : Int} (fits : FitsShare value) :
    share value = .ok value :=
  if_pos fits

theorem countWanted_cons (target tally : Int) (entry : UInt64)
    (later : List UInt64) (count : Nat) :
    countWanted target (entry :: later) tally count =
      if tally ≤ target then
        share (tally + int64 entry.toNat) >>= fun tally =>
          countWanted target later tally (count + 1)
      else .ok count :=
  rfl

theorem countWanted_spec
    {target tally : Int} {later : List UInt64} {count final : Nat}
    (returned : countWanted target later tally count = .ok final) :
    ∃ more, final = count + more ∧ more ≤ later.length ∧
      (∀ less < more,
        tally + ((later.take less).map fun entry => int64 entry.toNat).sum ≤
          target) ∧
      (more = later.length ∨
        target <
          tally +
            ((later.take more).map fun entry => int64 entry.toNat).sum) := by
  induction later generalizing tally count with
  | nil =>
      cases returned
      exact ⟨0, rfl, Nat.le_refl _,
        fun less none => absurd none (Nat.not_lt_zero less), .inl rfl⟩
  | cons entry later ih =>
      rw [countWanted_cons] at returned
      by_cases low : tally ≤ target
      · rw [if_pos low] at returned
        obtain ⟨next, added, continued⟩ := bind_eq_ok.mp returned
        obtain ⟨rfl, _⟩ := share_eq_ok added
        obtain ⟨more, rfl, within, before, reached⟩ :=
          ih continued
        refine ⟨more + 1, Nat.add_right_comm count 1 more,
          Nat.succ_le_succ within, ?_, ?_⟩
        · intro less smaller
          cases less with
          | zero =>
              rw [List.take_zero, List.map_nil, List.sum_nil, Int.add_zero]
              exact low
          | succ less =>
              rw [List.take_succ_cons, List.map_cons, List.sum_cons,
                ← Int.add_assoc]
              exact before less (Nat.lt_of_succ_lt_succ smaller)
        · rcases reached with all | above
          · exact .inl (congrArg Nat.succ all)
          · right
            rw [List.take_succ_cons, List.map_cons, List.sum_cons,
              ← Int.add_assoc]
            exact above
      · rw [if_neg low] at returned
        cases returned
        refine ⟨0, rfl, Nat.zero_le _,
          fun less none => absurd none (Nat.not_lt_zero less), .inr ?_⟩
        rw [List.take_zero, List.map_nil, List.sum_nil, Int.add_zero]
        exact Int.not_le.mp low

/-- The loop throws only when a sum leaves the range. -/
theorem countWanted_returns
    {target tally : Int} {later : List UInt64} (count : Nat)
    (fits :
      ∀ some ≤ later.length,
        FitsShare
          (tally +
            ((later.take some).map fun entry => int64 entry.toNat).sum)) :
    ∃ final, countWanted target later tally count = .ok final := by
  induction later generalizing tally count with
  | nil => exact ⟨count, rfl⟩
  | cons entry later ih =>
      rw [countWanted_cons]
      by_cases low : tally ≤ target
      · rw [if_pos low]
        have first := fits 1 (Nat.succ_le_succ (Nat.zero_le _))
        rw [List.take_succ_cons, List.take_zero, List.map_cons, List.map_nil,
          List.sum_cons, List.sum_nil, Int.add_zero] at first
        have rest :
            ∀ some ≤ later.length,
              FitsShare
                (tally + int64 entry.toNat +
                  ((later.take some).map
                    fun entry => int64 entry.toNat).sum) := by
          intro some within
          have sum := fits (some + 1) (Nat.succ_le_succ within)
          rw [List.take_succ_cons, List.map_cons, List.sum_cons,
            ← Int.add_assoc] at sum
          exact sum
        obtain ⟨final, returned⟩ := ih (count + 1) rest
        refine ⟨final, ?_⟩
        exact bind_eq_ok.mpr ⟨_, share_of_fits first, returned⟩
      · rw [if_neg low]
        exact ⟨count, rfl⟩

/-- The minimum that is configured. -/
def leastWitnessCount (o : Objects X) : Nat :=
  if o.headBlockTime > HARDFORK_1010_TIME then
    max GRAPHENE_MIN_WITNESS_COUNT o.minWitnessCount
  else
    o.minWitnessCount

/-- The sizes of the parameters and of the histogram that is made for them. -/
structure Sized (b : Buffers) (o : Objects X) : Prop where
  maximum : o.maximumWitnessCount < 2 ^ 16
  minimum : o.minWitnessCount < 2 ^ 16
  histogram :
    b.witnessCountHistogram.length = o.maximumWitnessCount / 2 + 1

theorem leastWitnessCount_lt {o : Objects X}
    (minimum : o.minWitnessCount < 2 ^ 16) : leastWitnessCount o < 2 ^ 16 := by
  rw [leastWitnessCount, GRAPHENE_MIN_WITNESS_COUNT]
  split
  · omega
  · exact minimum

/-- The target that the walk has to exceed. -/
def Buffers.witnessTarget (b : Buffers) : Int :=
  stakeTarget b.totalVotingStake b.witnessCountHistogram

variable {b : Buffers}

theorem numWitness_of_pos (o : Objects X) (positive : 0 < b.witnessTarget) :
    numWitness o b =
      countWanted b.witnessTarget b.witnessCountHistogram.tail 0 0 >>=
        fun wished =>
          .ok (max (wished * 2 + 1) (leastWitnessCount o) % 2 ^ 16) := by
  rw [Buffers.witnessTarget] at positive ⊢
  simp only [numWitness, positive, if_true]
  rfl

theorem numWitness_of_not_pos (o : Objects X) (none : ¬ 0 < b.witnessTarget) :
    numWitness o b =
      .ok (max (0 * 2 + 1) (leastWitnessCount o) % 2 ^ 16) := by
  rw [Buffers.witnessTarget] at none
  simp only [numWitness, none, if_false]
  rfl

/-- The number of witnesses is odd and from the wishes, or the minimum. -/
theorem numWitness_spec {o : Objects X} {count : Nat} (sized : Sized b o)
    (returned : numWitness o b = .ok count) :
    ∃ wished,
      Median b.witnessTarget b.witnessCountHistogram wished ∧
      count = max (wished * 2 + 1) (leastWitnessCount o) := by
  have least := leastWitnessCount_lt sized.minimum
  have maximum := sized.maximum
  have tailLength :
      b.witnessCountHistogram.tail.length = o.maximumWitnessCount / 2 := by
    rw [List.length_tail, sized.histogram]
    rfl
  by_cases positive : 0 < b.witnessTarget
  · rw [numWitness_of_pos o positive] at returned
    obtain ⟨wished, counted, isCount⟩ := bind_eq_ok.mp returned
    obtain ⟨more, isMore, within, before, reached⟩ := countWanted_spec counted
    rw [Nat.zero_add] at isMore
    subst isMore
    simp only [Int.zero_add] at before reached
    refine ⟨wished, ⟨within, before, .inr ⟨positive, reached⟩⟩, ?_⟩
    cases isCount
    apply Nat.mod_eq_of_lt
    omega
  · rw [numWitness_of_not_pos o positive] at returned
    refine ⟨0, ⟨Nat.zero_le _, ?_, ?_⟩, ?_⟩
    · intro less none
      exact absurd none (Nat.not_lt_zero less)
    · exact .inl ⟨Int.not_lt.mp positive, rfl⟩
    · cases returned
      apply Nat.mod_eq_of_lt
      omega

/-- It is found unless a sum on the way leaves the range of `share_type`. -/
theorem numWitness_returns (o : Objects X)
    (fits :
      ∀ wished ≤ b.witnessCountHistogram.tail.length,
        FitsShare (wishedStake b.witnessCountHistogram wished)) :
    ∃ count, numWitness o b = .ok count := by
  by_cases positive : 0 < b.witnessTarget
  · have sums :
        ∀ some ≤ b.witnessCountHistogram.tail.length,
          FitsShare
            (0 +
              ((b.witnessCountHistogram.tail.take some).map
                fun entry => int64 entry.toNat).sum) := by
      intro some within
      rw [Int.zero_add]
      exact fits some within
    obtain ⟨wished, counted⟩ :=
      @countWanted_returns b.witnessTarget _ _ 0 sums
    refine ⟨max (wished * 2 + 1) (leastWitnessCount o) % 2 ^ 16, ?_⟩
    rw [numWitness_of_pos o positive]
    exact bind_eq_ok.mpr ⟨wished, counted, rfl⟩
  · exact ⟨_, numWitness_of_not_pos o positive⟩

def Objects.memberOf (o : Objects X) (w : WitnessId × Witness) :
    Option Nat :=
  (o.committeeMembers.zipIdx.find? fun m =>
    m.1.committeeMemberAccount == w.2.witnessAccount).map (·.2)

theorem setMemberVotes_memberOf (o : Objects X) (id : Nat) (votes : UInt64)
    (w : WitnessId × Witness) :
    (setMemberVotes id votes o).memberOf w = o.memberOf w := by
  have rows :
      ∀ (members : List CommitteeMember) (index start : Nat),
        (((members.modify index fun m => { m with totalVotes := votes }).zipIdx
            start).find? fun m =>
          m.1.committeeMemberAccount == w.2.witnessAccount).map (·.2) =
        ((members.zipIdx start).find? fun m =>
          m.1.committeeMemberAccount == w.2.witnessAccount).map (·.2) := by
    intro members
    induction members with
    | nil =>
        intro index start
        rw [List.modify_nil]
    | cons member members ih =>
        intro index start
        cases index with
        | zero =>
            rw [List.modify_zero_cons, List.zipIdx_cons, List.zipIdx_cons,
              List.find?_cons, List.find?_cons]
            cases member.committeeMemberAccount == w.2.witnessAccount with
            | true => rfl
            | false => rfl
        | succ index =>
            rw [List.modify_succ_cons, List.zipIdx_cons, List.zipIdx_cons,
              List.find?_cons, List.find?_cons]
            cases member.committeeMemberAccount == w.2.witnessAccount with
            | true => rfl
            | false => exact ih index (start + 1)
  exact rows o.committeeMembers id 0

/-- What picking members leaves as it is. -/
structure SameWitnesses (before after : Objects X) : Prop where
  witnesses : after.witnesses = before.witnesses
  active : after.activeWitnesses = before.activeWitnesses
  authority : after.witnessAuthority = before.witnessAuthority

theorem pickMembers_spec (b : Buffers) (wits : List (WitnessId × Witness))
    {left : Nat} (some : 1 ≤ left) (o : Objects X) :
    (pickMembers b wits left o).1.map (·.1) =
        (wits.filterMap o.memberOf).take left ∧
      SameWitnesses o (pickMembers b wits left o).2 := by
  induction wits generalizing left o with
  | nil => exact ⟨by simp [pickMembers], ⟨rfl, rfl, rfl⟩⟩
  | cons w later ih =>
      rw [pickMembers]
      split
      · next none =>
          have without : o.memberOf w = .none := by
            rw [Objects.memberOf, none]
            rfl
          rw [List.filterMap_cons_none without]
          exact ih some o
      · next m id found =>
          have isMember : o.memberOf w = .some id := by
            rw [Objects.memberOf, found]
            rfl
          rw [List.filterMap_cons_some isMember]
          by_cases last : left ≤ 1
          · have one : left = 1 := by omega
            subst one
            simp only [Nat.le_refl, if_true]
            exact ⟨by simp, ⟨rfl, rfl, rfl⟩⟩
          · have rest :=
              ih (by omega : 1 ≤ left - 1)
                (setMemberVotes id (b.voteTally.getD w.2.voteId 0) o)
            have sameMembers :
                (setMemberVotes id (b.voteTally.getD w.2.voteId 0) o).memberOf =
                  o.memberOf :=
              funext (setMemberVotes_memberOf o id _)
            rw [sameMembers] at rest
            obtain ⟨less, rfl⟩ := Nat.exists_eq_add_of_le' some
            simp only [last, if_false, List.map_cons, List.take_succ_cons]
            refine ⟨congrArg (id :: ·) rest.1, ?_⟩
            exact ⟨rest.2.witnesses, rest.2.active, rest.2.authority⟩

theorem pairwise_lt_insertionSort {ids : List Nat} (distinct : ids.Nodup) :
    (ids.insertionSort (· ≤ ·)).Pairwise (· < ·) := by
  have sorted := List.pairwise_insertionSort (· ≤ ·) ids
  have apart : (ids.insertionSort (· ≤ ·)).Nodup :=
    (List.perm_insertionSort (· ≤ ·) ids).nodup_iff.mpr distinct
  refine (sorted.and apart).imp ?_
  rintro first second ⟨le, ne⟩
  omega

/-- The witnesses that become active, best first. -/
def chosenWitnesses (b : Buffers) (o : Objects X) (count : Nat) :
    List (WitnessId × Witness) :=
  (ranking b.voteTally o.witnesses).take (min count o.witnesses.length)

theorem sortVotableObjects_withIds (b : Buffers) (o : Objects X) (count : Nat) :
    sortVotableObjects b.voteTally (fun w : WitnessId × Witness => w.2.voteId)
      count (withIds o.witnesses) = chosenWitnesses b o count := by
  rw [sortVotableObjects, withIds_length]
  rfl

/-- What `update_active_trustnodes` returns. -/
theorem updateActiveTrustnodes_eq_ok {o after : Objects X}
    (updated : updateActiveTrustnodes b o = .ok after) :
    ∃ count,
      numWitness o b = .ok count ∧
      after.activeWitnesses =
        ((chosenWitnesses b o count).map (·.1)).insertionSort (· ≤ ·) ∧
      after.witnesses =
        o.witnesses.map (fun w =>
          { w with totalVotes := b.voteTally.getD w.voteId 0 }) ∧
      after.activeCommitteeMembers =
        ((chosenWitnesses b o count).filterMap o.memberOf).take
          (o.maximumCommitteeCount / 2 * 2 + 1) := by
  simp only [updateActiveTrustnodes, updateWitnesses, bind_eq_ok] at updated
  obtain ⟨⟨wits, middle⟩, ⟨count, counted, made⟩, returned⟩ := updated
  rw [sortVotableObjects_withIds] at made
  cases made
  obtain ⟨picked, same⟩ :=
    pickMembers_spec b (chosenWitnesses b o count)
      (Nat.le_add_left 1 (o.maximumCommitteeCount / 2 * 2))
      { o with
        witnesses :=
          o.witnesses.map fun w =>
            { w with totalVotes := b.voteTally.getD w.voteId 0 }
        witnessAuthority :=
          countVotes
            ((chosenWitnesses b o count).map fun w =>
              (w.2.witnessAccount, b.voteTally.getD w.2.voteId 0))
            o.witnessAuthority
        activeWitnesses :=
          ((chosenWitnesses b o count).map (·.1)).insertionSort (· ≤ ·) }
  cases returned
  exact ⟨count, counted, same.active, same.witnesses, picked⟩

/-- The selection, whenever the number of witnesses is found. -/
theorem updateActiveTrustnodes_returns {o : Objects X} {count : Nat}
    (counted : numWitness o b = .ok count) :
    ∃ after, updateActiveTrustnodes b o = .ok after := by
  simp only [updateActiveTrustnodes, updateWitnesses, counted]
  exact ⟨_, rfl⟩

/-- `update_active_trustnodes` makes the first witnesses in the order of their
votes active, as many as are wished for or the minimum, and the committee the
members of the first of these; it records the votes of all witnesses.  Votes are
compared in signed 64 bits, and the function throws only when the stake of the
wishes leaves that range. -/
theorem active_set_selected
    (b : Buffers) (o : Objects X) (sized : Sized b o)
    (distinct : (o.witnesses.map (·.voteId)).Nodup) :
    (∃ ranked,
      Ranking b.voteTally o.witnesses ranked ∧
      (∀ other, Ranking b.voteTally o.witnesses other → other = ranked) ∧
      ∀ after, updateActiveTrustnodes b o = .ok after →
        ∃ wished count,
          Median b.witnessTarget b.witnessCountHistogram wished ∧
          count = max (wished * 2 + 1) (leastWitnessCount o) ∧
          after.activeWitnesses.Perm
            ((ranked.take (min count o.witnesses.length)).map (·.1)) ∧
          after.activeWitnesses.Pairwise (· < ·) ∧
          after.activeWitnesses.length = min count o.witnesses.length ∧
          after.witnesses =
            o.witnesses.map (fun w =>
              { w with totalVotes := b.voteTally.getD w.voteId 0 }) ∧
          after.activeCommitteeMembers =
            ((ranked.take (min count o.witnesses.length)).filterMap
              o.memberOf).take (o.maximumCommitteeCount / 2 * 2 + 1)) ∧
    ((∀ wished ≤ b.witnessCountHistogram.tail.length,
        FitsShare (wishedStake b.witnessCountHistogram wished)) →
      ∃ after, updateActiveTrustnodes b o = .ok after) := by
  have isRanking :
      Ranking b.voteTally o.witnesses (ranking b.voteTally o.witnesses) :=
    ranking_isRanking distinct
  refine ⟨⟨_, isRanking, fun other also => isRanking.unique also, ?_⟩, ?_⟩
  · intro after updated
    obtain ⟨count, counted, active, witnesses, members⟩ :=
      updateActiveTrustnodes_eq_ok updated
    obtain ⟨wished, median, isCount⟩ := numWitness_spec sized counted
    have perm := List.perm_insertionSort (· ≤ ·)
      ((chosenWitnesses b o count).map (·.1))
    have chosenDistinct : ((chosenWitnesses b o count).map (·.1)).Nodup := by
      rw [chosenWitnesses, List.map_take]
      exact isRanking.nodup.take
    refine ⟨wished, count, median, isCount, ?_, ?_, ?_, witnesses, members⟩
    · rw [active]
      exact perm
    · rw [active]
      exact pairwise_lt_insertionSort chosenDistinct
    · rw [active, perm.length_eq, List.length_map, chosenWitnesses,
        List.length_take, isRanking.length]
      omega
  · intro fits
    obtain ⟨count, counted⟩ := numWitness_returns o fits
    exact updateActiveTrustnodes_returns counted

/-- Two witnesses for one place; the second is on the committee. -/
def twoCandidates : Objects Unit where
  headBlockTime := 0
  witnesses := [⟨20, 0, true, false, 0, 0, 0, 0⟩,
    ⟨21, 1, true, false, 0, 0, 0, 0⟩]
  committeeMembers := [⟨21, 2, true, 0⟩]
  accounts := []
  nextAvailableVoteId := 3
  maximumWitnessCount := 3
  maximumCommitteeCount := 1
  minWitnessCount := 1
  minCommitteeMemberCount := 1
  missedBlockLimit := 0
  validNodesNumber := 0
  stakingModeOn := false
  activeWitnesses := []
  activeCommitteeMembers := []
  witnessAuthority := ⟨1, []⟩
  committeeAuthority := ⟨1, []⟩
  relaxedCommitteeAuthority := ⟨1, []⟩
  rest := ()

def plainTally (votes : List UInt64) : Buffers where
  voteTally := votes
  witnessCountHistogram := [0, 0]
  committeeCountHistogram := [0]
  totalVotingStake := 0
  voteIdValid := fun _ => true

theorem active_set_selected_second :
    ∃ after, updateActiveTrustnodes (plainTally [4, 9, 0]) twoCandidates =
        .ok after ∧
      after.activeWitnesses.length = 1 ∧
      after.witnesses.map (·.totalVotes) = [4, 9] := by
  have selected :=
    active_set_selected (plainTally [4, 9, 0]) twoCandidates
      ⟨by decide, by decide, by decide⟩ (by decide)
  obtain ⟨after, updated⟩ := selected.2 (by decide)
  obtain ⟨ranked, _, _, made⟩ := selected.1
  obtain ⟨wished, count, median, isCount, _, _, length, witnesses, _⟩ :=
    made after updated
  refine ⟨after, updated, ?_, ?_⟩
  · -- nobody has a wish, so the minimum of one is taken
    rcases median.reached with none | some
    · rw [length, isCount, none.2]
      rfl
    · exact absurd some.1 (by decide)
  · rw [witnesses]
    decide

/-- A witness with `2 ^ 63` votes is ranked behind one with a single vote. -/
theorem huge_votes_rank_last :
    ∃ after,
      updateActiveTrustnodes (plainTally [9223372036854775808, 1, 0])
          twoCandidates = .ok after ∧
        after.activeWitnesses = [1] ∧
        after.witnesses.map (·.totalVotes) = [9223372036854775808, 1] := by
  refine ⟨{ twoCandidates with
    witnesses := [⟨20, 0, true, false, 0, 0, 0, 9223372036854775808⟩,
      ⟨21, 1, true, false, 0, 0, 0, 1⟩]
    committeeMembers := [⟨21, 2, true, 1⟩]
    activeWitnesses := [1]
    activeCommitteeMembers := [0]
    witnessAuthority := ⟨1, [(21, 1)]⟩
    committeeAuthority := ⟨1, [(21, 1)]⟩
    relaxedCommitteeAuthority := ⟨1, [(21, 1)]⟩ }, ?_, rfl, rfl⟩
  decide +kernel

end GxbCore.Voting
