import Mathlib.Algebra.Group.Nat.Defs
import Mathlib.Algebra.Order.BigOperators.Group.List
import Mathlib.Algebra.Group.Action.Defs
import Mathlib.Order.Lattice
import GxbCore.Protocol.Accounts

/-!
# Authorities from votes

`vote_counter` turns votes into the weights of an authority.  The first vote,
the largest one, decides how many bits are shifted out so that it fits 16 bits;
what is left of a smaller vote is at least one.  The threshold is half of the
weights and one more.
-/

namespace GxbCore.Protocol

variable {K : Type}

/-- The bits that are shifted out when the first vote is `largest`. -/
def voteShift (largest : UInt64) : Nat :=
  largest.toNat.log2 - 15

def scaledVotes (shift : Nat) (votes : UInt64) : Nat :=
  max (votes.toNat / 2 ^ shift) 1

theorem one_le_scaledVotes (shift : Nat) (votes : UInt64) :
    1 ≤ scaledVotes shift votes :=
  Nat.le_max_right _ _

theorem scaledVotes_mono (shift : Nat) {votes largest : UInt64}
    (le : votes ≤ largest) :
    scaledVotes shift votes ≤ scaledVotes shift largest := by
  have quotient : votes.toNat / 2 ^ shift ≤ largest.toNat / 2 ^ shift :=
    Nat.div_le_div_right (UInt64.le_iff_toNat_le.mp le)
  apply Nat.max_le.mpr
  exact ⟨Nat.le_trans quotient (Nat.le_max_left _ _), Nat.le_max_right _ _⟩

/-- No vote up to the first one is left with more than 16 bits. -/
theorem scaledVotes_lt {votes largest : UInt64} (le : votes ≤ largest) :
    scaledVotes (voteShift largest) votes < 2 ^ 16 := by
  have below : largest.toNat < 2 ^ (largest.toNat.log2 + 1) := Nat.lt_log2_self
  have split :
      2 ^ (largest.toNat.log2 + 1) ≤ 2 ^ 16 * 2 ^ voteShift largest := by
    rw [← Nat.pow_add]
    apply Nat.pow_le_pow_right (by decide)
    rw [voteShift]
    omega
  have quotient : votes.toNat / 2 ^ voteShift largest < 2 ^ 16 := by
    rw [Nat.div_lt_iff_lt_mul (Nat.two_pow_pos _)]
    have bounded := UInt64.le_iff_toNat_le.mp le
    omega
  exact Nat.max_lt.mpr ⟨quotient, by decide⟩

def castVotes (votes : List (AccountId × UInt64)) :
    List (AccountId × UInt64) :=
  votes.filter fun vote => vote.2 ≠ 0

def voteEntry (shift : Nat) (vote : AccountId × UInt64) :
    AccountId × UInt16 :=
  (vote.1, UInt16.ofNat (scaledVotes shift vote.2))

def scaledTotal (shift : Nat) (votes : List (AccountId × UInt64)) : Nat :=
  ((castVotes votes).map fun vote => scaledVotes shift vote.2).sum

variable {vote : AccountId × UInt64} {votes : List (AccountId × UInt64)}

theorem castVotes_cons_zero (zero : vote.2 = 0) :
    castVotes (vote :: votes) = castVotes votes := by
  simp [castVotes, zero]

theorem castVotes_cons_pos (nonzero : vote.2 ≠ 0) :
    castVotes (vote :: votes) = vote :: castVotes votes := by
  simp [castVotes, nonzero]

theorem addAuthority_new {auth : Authority K} {who : AccountId}
    (weight : UInt16) (new : who ∉ auth.accountAuths.map (·.1)) :
    auth.addAuthority who weight =
      { auth with accountAuths := (who, weight) :: auth.accountAuths } := by
  have all :
      auth.accountAuths.filter (fun entry => entry.1 ≠ who) =
        auth.accountAuths := by
    rw [List.filter_eq_self]
    intro entry member
    apply decide_eq_true
    intro same
    exact new (List.mem_map.mpr ⟨entry, member, same⟩)
  rw [Authority.addAuthority, all]

/-- With the shift known, the loop adds one entry for every vote that is
cast. -/
theorem foldl_add {shift : Nat} {vc : VoteCounter K}
    (known : vc.bitshift = some shift) (distinct : (votes.map (·.1)).Nodup)
    (new : ∀ vote ∈ votes, vote.1 ∉ vc.auth.accountAuths.map (·.1)) :
    votes.foldl (fun vc vote => vc.add vote.1 vote.2) vc =
      { totalVotes := vc.totalVotes + UInt64.ofNat (scaledTotal shift votes)
        bitshift := some shift
        auth := { vc.auth with
          accountAuths :=
            ((castVotes votes).map (voteEntry shift)).reverse ++
              vc.auth.accountAuths } } := by
  induction votes generalizing vc with
  | nil =>
      cases vc
      simp_all [scaledTotal, castVotes]
  | cons vote votes ih =>
      rw [List.map_cons, List.nodup_cons] at distinct
      rw [List.foldl_cons]
      by_cases zero : vote.2 = 0
      · have skipped : vc.add vote.1 vote.2 = vc := by
          rw [VoteCounter.add, if_pos zero]
        rw [skipped, ih known distinct.2
          (fun other member => new other (List.mem_cons_of_mem vote member)),
          scaledTotal, scaledTotal, castVotes_cons_zero zero]
      · have added :
            vc.add vote.1 vote.2 =
              { totalVotes :=
                  vc.totalVotes + UInt64.ofNat (scaledVotes shift vote.2)
                bitshift := some shift
                auth := { vc.auth with
                  accountAuths :=
                    voteEntry shift vote :: vc.auth.accountAuths } } := by
          simp only [VoteCounter.add, zero, if_false, known,
            Option.getD_some,
            addAuthority_new _ (new vote List.mem_cons_self)]
          rfl
        rw [added, ih rfl distinct.2]
        · simp only [scaledTotal, castVotes_cons_pos zero, List.map_cons,
            List.sum_cons, UInt64.ofNat_add, List.reverse_cons,
            List.append_assoc, List.singleton_append, UInt64.add_assoc]
        · intro other member
          simp only [List.map_cons, List.mem_cons, not_or]
          refine ⟨?_, new other (List.mem_cons_of_mem vote member)⟩
          intro same
          exact distinct.1 (List.mem_map.mpr ⟨other, member, same⟩)

theorem count_cons (nonzero : vote.2 ≠ 0)
    (distinct : ((vote :: votes).map (·.1)).Nodup) :
    (VoteCounter.count (vote :: votes) : VoteCounter K) =
      { totalVotes :=
          UInt64.ofNat (scaledTotal (voteShift vote.2) (vote :: votes))
        bitshift := some (voteShift vote.2)
        auth := { Authority.unset with
          accountAuths :=
            ((castVotes (vote :: votes)).map
              (voteEntry (voteShift vote.2))).reverse } } := by
  have first :
      (VoteCounter.empty : VoteCounter K).add vote.1 vote.2 =
        VoteCounter.add
          { VoteCounter.empty with bitshift := some (voteShift vote.2) }
          vote.1 vote.2 := by
    rw [VoteCounter.add, VoteCounter.add, if_neg nonzero, if_neg nonzero]
    rfl
  have start :
      (VoteCounter.count (vote :: votes) : VoteCounter K) =
        (vote :: votes).foldl (fun vc vote => vc.add vote.1 vote.2)
          { VoteCounter.empty with bitshift := some (voteShift vote.2) } := by
    rw [VoteCounter.count, List.foldl_cons, List.foldl_cons, first]
  rw [start,
    foldl_add rfl distinct (by simp [VoteCounter.empty, Authority.unset])]
  simp [VoteCounter.empty, Authority.unset]

section Ordered

variable {vote : AccountId × UInt64} {votes : List (AccountId × UInt64)}

def NonIncreasing (votes : List (AccountId × UInt64)) : Prop :=
  votes.Pairwise fun earlier later => later.2 ≤ earlier.2

variable {other : AccountId × UInt64}

theorem NonIncreasing.le_head (ordered : NonIncreasing (vote :: votes))
    (member : other ∈ vote :: votes) : other.2 ≤ vote.2 := by
  rcases List.mem_cons.mp member with rfl | later
  · exact UInt64.le_refl _
  · exact (List.pairwise_cons.mp ordered).1 other later

theorem mem_of_mem_castVotes (cast : other ∈ castVotes votes) : other ∈ votes :=
  List.mem_of_mem_filter cast

theorem toNat_voteEntry (ordered : NonIncreasing (vote :: votes))
    (member : other ∈ vote :: votes) :
    (voteEntry (voteShift vote.2) other).2.toNat =
      scaledVotes (voteShift vote.2) other.2 :=
  UInt16.toNat_ofNat_of_lt' (scaledVotes_lt (ordered.le_head member))

theorem sum_voteEntry (ordered : NonIncreasing (vote :: votes)) :
    (((castVotes (vote :: votes)).map (voteEntry (voteShift vote.2))).map
        (·.2.toNat)).sum =
      scaledTotal (voteShift vote.2) (vote :: votes) := by
  rw [scaledTotal, List.map_map]
  congr 1
  apply List.map_congr_left
  intro other cast
  exact toNat_voteEntry ordered (mem_of_mem_castVotes cast)

theorem scaledTotal_lt (few : (vote :: votes).length ≤ 65536)
    (ordered : NonIncreasing (vote :: votes)) :
    scaledTotal (voteShift vote.2) (vote :: votes) < 2 ^ 32 := by
  have short : (castVotes (vote :: votes)).length ≤ 65536 :=
    Nat.le_trans (List.length_filter_le _ _) few
  have bounded :
      scaledTotal (voteShift vote.2) (vote :: votes) ≤
        (castVotes (vote :: votes)).length * 65535 := by
    rw [scaledTotal, ← List.length_map
      (fun other : AccountId × UInt64 => scaledVotes (voteShift vote.2) other.2),
      ← smul_eq_mul]
    apply List.sum_le_card_nsmul
    intro value member
    obtain ⟨other, cast, rfl⟩ := List.mem_map.mp member
    have small :=
      scaledVotes_lt (ordered.le_head (mem_of_mem_castVotes cast))
    omega
  omega

theorem scaledTotal_pos (nonzero : vote.2 ≠ 0) (shift : Nat) :
    0 < scaledTotal shift (vote :: votes) := by
  rw [scaledTotal, castVotes_cons_pos nonzero, List.map_cons, List.sum_cons]
  exact Nat.add_pos_left (one_le_scaledVotes shift vote.2) _

theorem finish_count (nonzero : vote.2 ≠ 0)
    (few : (vote :: votes).length ≤ 65536)
    (distinct : ((vote :: votes).map (·.1)).Nodup)
    (ordered : NonIncreasing (vote :: votes)) (outAuth : Authority K) :
    (VoteCounter.count (vote :: votes)).finish outAuth =
      { weightThreshold :=
          UInt32.ofNat
            (scaledTotal (voteShift vote.2) (vote :: votes) / 2 + 1)
        accountAuths :=
          ((castVotes (vote :: votes)).map
            (voteEntry (voteShift vote.2))).reverse
        keyAuths := [] } := by
  have small := scaledTotal_lt few ordered
  have positive : 0 < scaledTotal (voteShift vote.2) (vote :: votes) :=
    scaledTotal_pos nonzero _
  rw [count_cons nonzero distinct, VoteCounter.finish]
  generalize scaledTotal (voteShift vote.2) (vote :: votes) = total
    at small positive
  have wide : (UInt64.ofNat total).toNat = total :=
    UInt64.toNat_ofNat_of_lt' (Nat.lt_trans small (by decide))
  have present : UInt64.ofNat total ≠ 0 := by
    intro zero
    rw [zero] at wide
    exact absurd wide (Nat.ne_of_lt positive)
  have threshold :
      ((UInt64.ofNat total).toUInt32 >>> 1) + 1 =
        UInt32.ofNat (total / 2 + 1) := by
    apply UInt32.toNat_inj.mp
    rw [UInt32.toNat_add, UInt32.toNat_shiftRight, UInt64.toNat_toUInt32, wide,
      UInt32.toNat_ofNat_of_lt' (show total / 2 + 1 < 2 ^ 32 by omega)]
    show ((total % 2 ^ 32) >>> 1 + 1) % 2 ^ 32 = total / 2 + 1
    rw [Nat.shiftRight_eq_div_pow]
    omega
  simp only [present, if_false, threshold, Authority.unset]

theorem count_of_zero (none : ∀ vote ∈ votes, vote.2 = 0) :
    (VoteCounter.count votes : VoteCounter K) = VoteCounter.empty := by
  have loop :
      ∀ votes : List (AccountId × UInt64), (∀ vote ∈ votes, vote.2 = 0) →
        votes.foldl (fun vc vote => vc.add vote.1 vote.2)
          (VoteCounter.empty : VoteCounter K) = VoteCounter.empty := by
    intro votes
    induction votes with
    | nil =>
        intro _
        rfl
    | cons vote votes ih =>
        intro none
        rw [List.foldl_cons, VoteCounter.add,
          if_pos (none vote List.mem_cons_self)]
        apply ih
        intro other member
        exact none other (List.mem_cons_of_mem vote member)
  exact loop votes none

end Ordered

/-- The weights that an authority gives to its accounts, in the order in which
they were added. -/
def Authority.addedWeights (auth : Authority K) : List UInt16 :=
  auth.accountAuths.reverse.map (·.2)

def Authority.totalWeight (auth : Authority K) : Nat :=
  (auth.accountAuths.map (·.2.toNat)).sum

/-- The accounts of an authority with their weights: one entry for each vote
that is cast, in the order of the votes. -/
theorem finish_count_majority {vote : AccountId × UInt64}
    {votes : List (AccountId × UInt64)} (nonzero : vote.2 ≠ 0)
    (few : (vote :: votes).length ≤ 65536)
    (distinct : ((vote :: votes).map (·.1)).Nodup)
    (ordered : NonIncreasing (vote :: votes)) {outAuth auth : Authority K}
    (made : (VoteCounter.count (vote :: votes)).finish outAuth = auth) :
    auth.addedWeights.Pairwise (fun earlier later => later ≤ earlier) ∧
      (∀ entry ∈ auth.accountAuths, 1 ≤ entry.2) ∧
      auth.totalWeight < 2 * auth.weightThreshold.toNat ∧
      auth.weightThreshold.toNat ≤ auth.totalWeight := by
  have isAuth := finish_count nonzero few distinct ordered outAuth
  rw [made] at isAuth
  subst isAuth
  have small := scaledTotal_lt few ordered
  have positive : 0 < scaledTotal (voteShift vote.2) (vote :: votes) :=
    scaledTotal_pos nonzero _
  refine ⟨?_, ?_, ?_⟩
  · rw [Authority.addedWeights, List.reverse_reverse, List.map_map,
      List.pairwise_map]
    refine List.Pairwise.imp_of_mem ?_ (ordered.filter _)
    intro earlier later isEarlier isLater le
    show UInt16.ofNat _ ≤ UInt16.ofNat _
    have first := toNat_voteEntry ordered (mem_of_mem_castVotes isEarlier)
    have second := toNat_voteEntry ordered (mem_of_mem_castVotes isLater)
    rw [UInt16.le_iff_toNat_le]
    exact le_of_eq_of_le second
      (le_of_le_of_eq (scaledVotes_mono _ le) first.symm)
  · intro entry member
    rw [List.mem_reverse] at member
    obtain ⟨other, cast, rfl⟩ := List.mem_map.mp member
    rw [UInt16.le_iff_toNat_le,
      toNat_voteEntry ordered (mem_of_mem_castVotes cast)]
    exact one_le_scaledVotes _ _
  · rw [Authority.totalWeight, List.map_reverse, List.sum_reverse,
      sum_voteEntry ordered,
      UInt32.toNat_ofNat_of_lt' (show _ < 2 ^ 32 by omega)]
    constructor
    · omega
    · omega

/-- The weights from votes that do not increase fit 16 bits, do not increase
either and are at least one; the threshold takes more than half of them and all
of them reach it, so two sets without a common account never both reach it.
Without a vote the authority stays. -/
theorem votes_make_majority
    (votes : List (AccountId × UInt64)) (outAuth : Authority K)
    (few : votes.length ≤ 65536)
    (distinct : (votes.map (·.1)).Nodup)
    (ordered : NonIncreasing votes) :
    ((∀ vote ∈ votes, vote.2 = 0) →
      (VoteCounter.count votes).finish outAuth = outAuth) ∧
    ((∃ vote ∈ votes, vote.2 ≠ 0) →
      ∃ (largest : AccountId × UInt64) (auth : Authority K),
        votes.head? = some largest ∧
        (VoteCounter.count votes).finish outAuth = auth ∧
        auth.keyAuths = [] ∧
        auth.accountAuths.reverse =
          (castVotes votes).map (voteEntry (voteShift largest.2)) ∧
        (∀ vote ∈ votes, scaledVotes (voteShift largest.2) vote.2 < 2 ^ 16) ∧
        auth.addedWeights.Pairwise (fun earlier later => later ≤ earlier) ∧
        (∀ entry ∈ auth.accountAuths, 1 ≤ entry.2) ∧
        auth.totalWeight < 2 * auth.weightThreshold.toNat ∧
        auth.weightThreshold.toNat ≤ auth.totalWeight ∧
        ∀ first second : AccountId → Bool,
          (∀ account, first account = true → ¬ second account = true) →
          auth.weightThreshold.toNat ≤
            (weights (first · = true) auth.accountAuths).sum →
          ¬ auth.weightThreshold.toNat ≤
            (weights (second · = true) auth.accountAuths).sum) := by
  constructor
  · intro none
    rw [count_of_zero none]
    rfl
  · rintro ⟨some, member, positiveVote⟩
    cases votes with
    | nil => exact absurd member List.not_mem_nil
    | cons vote votes =>
        have nonzero : vote.2 ≠ 0 := by
          intro zero
          have le := ordered.le_head member
          rw [zero] at le
          exact positiveVote (UInt64.le_zero_iff.mp le)
        obtain ⟨descending, positive, majority, reachable⟩ :=
          @finish_count_majority K vote votes nonzero few distinct ordered
            outAuth _ rfl
        refine ⟨vote, _, rfl, rfl, ?_, ?_, ?_, descending, positive, majority,
          reachable, ?_⟩
        · rw [finish_count nonzero few distinct ordered]
        · rw [finish_count nonzero few distinct ordered, List.reverse_reverse]
        · intro other member
          exact scaledVotes_lt (ordered.le_head member)
        · intro first second apart reaches alsoReaches
          have bound :=
            @weights_sum_add_le _ (first · = true) (second · = true) _ _
              ((VoteCounter.count (vote :: votes)).finish outAuth).accountAuths
              apart
          rw [Authority.totalWeight] at majority
          omega

/-- Three votes, the largest at the top of 64 bits and one of them zero. -/
def steepVotes : List (AccountId × UInt64) :=
  [(7, 18446744073709551615), (9, 3), (4, 0)]

theorem votes_make_majority_steepVotes :
    ∃ (largest : AccountId × UInt64) (auth : Authority Nat),
      steepVotes.head? = some largest ∧
      (VoteCounter.count steepVotes).finish Authority.unset = auth ∧
      auth.keyAuths = [] ∧
      auth.accountAuths.reverse =
        (castVotes steepVotes).map (voteEntry (voteShift largest.2)) ∧
      auth.totalWeight < 2 * auth.weightThreshold.toNat ∧
      auth.weightThreshold.toNat ≤ auth.totalWeight := by
  obtain ⟨largest, auth, isHead, made, noKeys, entries, _, _, _, majority,
    reachable, _⟩ :=
    (votes_make_majority steepVotes Authority.unset (by decide) (by decide)
      (by unfold NonIncreasing; decide)).2
      ⟨(7, 18446744073709551615), List.mem_cons_self, by decide⟩
  exact ⟨largest, auth, isHead, made, noKeys, entries, majority, reachable⟩

example :
    (VoteCounter.count steepVotes).finish (Authority.unset : Authority Nat) =
      { weightThreshold := 32769
        accountAuths := [(9, 1), (7, 65535)]
        keyAuths := [] } := by decide +kernel

end GxbCore.Protocol
