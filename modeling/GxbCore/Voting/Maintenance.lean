import Mathlib.Data.List.Sort
import GxbCore.Ledger.Amounts
import GxbCore.Lib.Outcome

/-!
# Counting the votes in the maintenance

`perform_chain_maintenance` counts the votes in buffers that are members of
`database`, next to the objects and not among them: undoing a block does not
restore them.  The helper that counts resizes them, and guards that are made
after the counting clear them; in between the accounts are gone through and
rewards are paid, which may throw.

What is done to balances and fees on the way is the parameter `Rules`; it does
not touch the buffers.
-/

namespace GxbCore.Voting

open GxbCore.Ledger (Fault share int64 AccountId WitnessId Time)

def HARDFORK_1010_TIME : Time :=
  1545796800

def HARDFORK_1012_TIME : Time :=
  1545796800

def HARDFORK_1025_TIME : Time :=
  1585281600

def GRAPHENE_MIN_WITNESS_COUNT : Nat :=
  21

def GRAPHENE_PROXY_TO_SELF_ACCOUNT : AccountId :=
  5

/-- `vote_id_type::vote_type` -/
inductive VoteType where
  | committee
  | witness
  | worker
  deriving DecidableEq, Repr

/-- `vote_id_type`.  The instances of all types are counted together. -/
structure VoteId where
  type : VoteType
  num : Nat
  deriving DecidableEq, Repr

/-- `witness_object`, as far as votes are concerned.  Its vote id is given by
the instance. -/
structure Witness where
  witnessAccount : AccountId
  voteId : Nat
  isValid : Bool
  isBanned : Bool
  totalMissed : Int
  previousMissed : Int
  totalVoteWeights : Int
  totalVotes : UInt64
  deriving DecidableEq, Repr

structure CommitteeMember where
  committeeMemberAccount : AccountId
  voteId : Nat
  isValid : Bool
  totalVotes : UInt64
  deriving DecidableEq, Repr

/-- The `account_options` of an account. -/
structure VotingAccount where
  id : AccountId
  votingAccount : AccountId
  votes : List VoteId
  numWitness : Nat
  numCommittee : Nat
  deriving DecidableEq, Repr

/-- `authority`, made of accounts. -/
structure Authority where
  weightThreshold : Nat
  accountAuths : List (AccountId × Nat)
  deriving DecidableEq, Repr

/-- The objects that the maintenance reads for the votes, and the rest of them.
Accounts are in the order of their names, witnesses and committee members in the
order of their ids. -/
structure Objects (X : Type) where
  headBlockTime : Time
  witnesses : List Witness
  committeeMembers : List CommitteeMember
  accounts : List VotingAccount
  nextAvailableVoteId : Nat
  maximumWitnessCount : Nat
  maximumCommitteeCount : Nat
  minWitnessCount : Nat
  minCommitteeMemberCount : Nat
  missedBlockLimit : Nat
  validNodesNumber : Nat
  stakingModeOn : Bool
  activeWitnesses : List WitnessId
  activeCommitteeMembers : List Nat
  witnessAuthority : Authority
  committeeAuthority : Authority
  relaxedCommitteeAuthority : Authority
  rest : X
  deriving DecidableEq, Repr

structure Buffers where
  voteTally : List UInt64
  witnessCountHistogram : List UInt64
  committeeCountHistogram : List UInt64
  totalVotingStake : UInt64
  /-- A map; what is not in it reads as `false`. -/
  voteIdValid : Nat → Bool

/-- As the database is made. -/
def Buffers.fresh : Buffers :=
  ⟨[], [], [], 0, fun _ => false⟩

structure Node (X : Type) where
  objects : Objects X
  buffers : Buffers

/-- A change of what has no part in the votes. -/
def Node.setRest {X : Type} (node : Node X) (rest : X) : Node X :=
  { node with objects := { node.objects with rest := rest } }

/-- What the maintenance does beside counting votes. -/
structure Rules (X : Type) where
  /-- `count_non_member_votes || is_member` -/
  countsVotes : Objects X → AccountId → Bool
  /-- balance, cashback, locked balance and pledge of the account -/
  votingStake : Objects X → AccountId → Except Fault UInt64
  /-- `distribute_fba_balances` -/
  distributeFbaBalances : Objects X → Except Fault X
  /-- `process_fees` -/
  processFees : AccountId → Objects X → Except Fault X
  /-- the payments to the witnesses, best first, and to the stakes -/
  distributeRewards : List WitnessId → Objects X → Except Fault (Objects X)
  /-- `update_top_n_authorities` -/
  updateTopNAuthorities : Objects X → Except Fault (Objects X)
  /-- from the parameters to `process_budget` -/
  finish : Objects X → Except Fault (Objects X)

section Tally

variable {X : Type}

/-- `vector::resize`: what fits stays. -/
def resize (size : Nat) (buffer : List UInt64) : List UInt64 :=
  (buffer ++ List.replicate (size - buffer.length) 0).take size

/-- `_vote_id_valid[id] = valid` for each of them. -/
def markValid (roles : List (Nat × Bool)) (valid : Nat → Bool) :
    Nat → Bool :=
  roles.foldl (fun valid role => Function.update valid role.1 role.2) valid

/-- The vote ids of witnesses and committee members, in the order in which they
are marked. -/
def Objects.roles (o : Objects X) : List (Nat × Bool) :=
  o.witnesses.map (fun w => (w.voteId, w.isValid)) ++
    o.committeeMembers.map (fun m => (m.voteId, m.isValid))

/-- The constructor of `vote_tally_helper`. -/
def startTally (node : Node X) : Node X :=
  let o := node.objects
  let b := node.buffers
  { node with
    buffers := {
      voteTally := resize o.nextAvailableVoteId b.voteTally
      witnessCountHistogram :=
        resize (o.maximumWitnessCount / 2 + 1) b.witnessCountHistogram
      committeeCountHistogram :=
        resize (o.maximumCommitteeCount / 2 + 1) b.committeeCountHistogram
      totalVotingStake := 0
      voteIdValid := markValid o.roles b.voteIdValid } }

def checkWitnessAvailable (missedBlockLimit : Nat) (w : Witness) : Bool :=
  if w.isBanned then false
  else
    w.totalMissed - w.previousMissed ≤ missedBlockLimit ∨
      w.previousMissed = 0

/-- One round of `statistical_vote_weight`. -/
def weighWitness (missedBlockLimit : Nat) (b : Buffers) (w : Witness) :
    Buffers × Witness :=
  if checkWitnessAvailable missedBlockLimit w then
    let weight := UInt64.ofInt w.totalVoteWeights
    ({ b with
        voteTally := b.voteTally.set w.voteId weight
        totalVotingStake := b.totalVotingStake + weight },
      { w with previousMissed := w.totalMissed })
  else
    (b, { w with isBanned := true, previousMissed := w.totalMissed })

def weighWitnesses (missedBlockLimit : Nat) :
    List Witness → Buffers → Buffers × List Witness
  | [], b => (b, [])
  | w :: later, b =>
      let first := weighWitness missedBlockLimit b w
      let rest := weighWitnesses missedBlockLimit later first.1
      (rest.1, first.2 :: rest.2)

def statisticalVoteWeight (node : Node X) : Node X :=
  let weighed :=
    weighWitnesses node.objects.missedBlockLimit node.objects.witnesses
      node.buffers
  let b := weighed.1
  { objects := { node.objects with witnesses := weighed.2 }
    buffers := { b with
      witnessCountHistogram :=
        b.witnessCountHistogram.set 0 b.totalVotingStake
      committeeCountHistogram :=
        b.committeeCountHistogram.set 0 b.totalVotingStake } }

def addVote (stake : UInt64) (b : Buffers) (vote : VoteId) : Buffers :=
  -- an illegal offset is ignored
  if vote.num < b.voteTally.length ∧
      (vote.type = .worker ∨ b.voteIdValid vote.num = true) then
    { b with voteTally := b.voteTally.modify vote.num (· + stake) }
  else
    b

/-- The wish for a number of witnesses or committee members: more than the
maximum is not counted, and what was allowed once is the maximum now. -/
def addWish (stake : UInt64) (wish maximum : Nat) (histogram : List UInt64) :
    List UInt64 :=
  if wish ≤ maximum then
    histogram.modify (min (wish / 2) (histogram.length - 1)) (· + stake)
  else
    histogram

def Objects.opinionAccount (o : Objects X) (a : VotingAccount) :
    Option VotingAccount :=
  if a.votingAccount = GRAPHENE_PROXY_TO_SELF_ACCOUNT then some a
  else o.accounts.find? fun other => other.id == a.votingAccount

def addOpinion (o : Objects X) (stake : UInt64) (opinion : VotingAccount)
    (b : Buffers) : Buffers :=
  let b := opinion.votes.foldl (addVote stake) b
  { b with
    witnessCountHistogram :=
      addWish stake opinion.numWitness o.maximumWitnessCount
        b.witnessCountHistogram
    committeeCountHistogram :=
      addWish stake opinion.numCommittee o.maximumCommitteeCount
        b.committeeCountHistogram
    totalVotingStake := b.totalVotingStake + stake }

/-- `vote_tally_helper::operator()` -/
def tallyAccount (rules : Rules X) (a : VotingAccount) (node : Node X) :
    Outcome Fault (Node X) :=
  if rules.countsVotes node.objects a.id then
    match node.objects.opinionAccount a with
    | none => .throw .notFound node
    | some opinion =>
        match rules.votingStake node.objects a.id with
        | .error fault => .throw fault node
        | .ok stake =>
            .ok { node with
              buffers := addOpinion node.objects stake opinion node.buffers }
  else
    .ok node

/-- `process_fees_helper::operator()` -/
def processFeesOf (rules : Rules X) (a : VotingAccount) (node : Node X) :
    Outcome Fault (Node X) :=
  match rules.processFees a.id node.objects with
  | .error fault => .throw fault node
  | .ok rest => .ok (node.setRest rest)

end Tally

section Update

variable {X : Type}

/-- The order of `sort_votable_objects`: more votes first, then the vote
id. -/
def votedBefore (tally : List UInt64) (a b : Nat) : Prop :=
  let votesOf := fun id => int64 (tally.getD id 0).toNat
  votesOf b < votesOf a ∨ votesOf a = votesOf b ∧ a ≤ b

instance (tally : List UInt64) (a b : Nat) :
    Decidable (votedBefore tally a b) :=
  inferInstanceAs (Decidable (_ ∨ _))

def sortVotableObjects {α : Type} (tally : List UInt64) (voteId : α → Nat)
    (count : Nat) (all : List α) : List α :=
  (all.insertionSort fun a b => votedBefore tally (voteId a) (voteId b)).take
    (min count all.length)

/-- Witnesses or committee members with their ids. -/
def withIds {α : Type} (rows : List α) : List (Nat × α) :=
  rows.zipIdx.map fun row => (row.2, row.1)

/-- The loop that finds the number of witnesses that half of the stake wants;
the first entry of the histogram is of those without an opinion. -/
def countWanted (target : Int) :
    List UInt64 → Int → Nat → Except Fault Nat
  | [], _, count => .ok count
  | entry :: later, tally, count =>
      if tally ≤ target then do
        let tally ← share (tally + int64 entry.toNat)
        countWanted target later tally (count + 1)
      else
        .ok count

/-- The same loop for committee members, whose tally is a `uint64_t`. -/
def countWantedMembers (target : Int) :
    List UInt64 → UInt64 → Nat → Nat
  | [], _, count => count
  | entry :: later, tally, count =>
      if int64 tally.toNat ≤ target then
        countWantedMembers target later (tally + entry) (count + 1)
      else
        count

def stakeTarget (total : UInt64) (histogram : List UInt64) : Int :=
  int64 ((total - histogram.getD 0 0) / 2).toNat

/-- The number of witnesses to have. -/
def numWitness (o : Objects X) (b : Buffers) : Except Fault Nat := do
  let target := stakeTarget b.totalVotingStake b.witnessCountHistogram
  let witnessCount ←
    if 0 < target then
      countWanted target b.witnessCountHistogram.tail 0 0
    else
      pure 0
  let minWitnessCount :=
    if o.headBlockTime > HARDFORK_1010_TIME then
      max GRAPHENE_MIN_WITNESS_COUNT o.minWitnessCount
    else
      o.minWitnessCount
  return max (witnessCount * 2 + 1) minWitnessCount % 2 ^ 16

structure VoteCounter where
  totalVotes : Nat
  bitshift : Option Nat
  accountAuths : List (AccountId × Nat)

def VoteCounter.empty : VoteCounter :=
  ⟨0, none, []⟩

/-- `vote_counter::add`; the total has 64 bits and a weight has 16. -/
def VoteCounter.add (vc : VoteCounter) (who : AccountId) (votes : UInt64) :
    VoteCounter :=
  if votes = 0 then vc
  else
    let bitshift := vc.bitshift.getD (votes.toNat.log2 - 15)
    let scaledVotes := max (votes.toNat >>> bitshift) 1
    { totalVotes := (vc.totalVotes + scaledVotes) % 2 ^ 64
      bitshift := some bitshift
      accountAuths :=
        vc.accountAuths.filter (·.1 ≠ who) ++
          [(who, scaledVotes % 2 ^ 16)] }

/-- `vote_counter::finish`; the threshold is computed in 32 bits. -/
def VoteCounter.finish (vc : VoteCounter) (out : Authority) : Authority :=
  if vc.totalVotes = 0 then out
  else
    let weight := vc.totalVotes % 2 ^ 32
    ⟨(weight >>> 1) + 1, vc.accountAuths⟩

def countVotes (votes : List (AccountId × UInt64)) (out : Authority) :
    Authority :=
  (votes.foldl (fun vc vote => vc.add vote.1 vote.2) VoteCounter.empty).finish
    out

/-- The part that `update_active_trustnodes` and `update_active_witnesses`
share; the witnesses that are active now are returned as well. -/
def updateWitnesses (b : Buffers) (o : Objects X) :
    Except Fault (List (WitnessId × Witness) × Objects X) := do
  let count ← numWitness o b
  let votesOf := fun id => b.voteTally.getD id 0
  let wits :=
    sortVotableObjects b.voteTally (fun w => w.2.voteId) count
      (withIds o.witnesses)
  return (wits,
    { o with
      witnesses :=
        o.witnesses.map fun w => { w with totalVotes := votesOf w.voteId }
      witnessAuthority :=
        countVotes (wits.map fun w => (w.2.witnessAccount, votesOf w.2.voteId))
          o.witnessAuthority
      activeWitnesses := (wits.map (·.1)).insertionSort (· ≤ ·) })

def setCommittee (members : List (Nat × CommitteeMember))
    (o : Objects X) : Objects X :=
  let authority :=
    countVotes
      (members.map fun m => (m.2.committeeMemberAccount, m.2.totalVotes))
      o.committeeAuthority
  { o with
    committeeAuthority :=
      if members.isEmpty then o.committeeAuthority else authority
    relaxedCommitteeAuthority :=
      if members.isEmpty then o.relaxedCommitteeAuthority else authority
    activeCommitteeMembers := members.map (·.1) }

/-- `modify` on a committee member. -/
def setMemberVotes (id : Nat) (votes : UInt64) (o : Objects X) :
    Objects X :=
  { o with
    committeeMembers :=
      o.committeeMembers.modify id fun m => { m with totalVotes := votes } }

/-- The loop of `update_active_trustnodes` that takes committee members from the
active witnesses; `left` is how many more are taken. -/
def pickMembers (b : Buffers) :
    List (WitnessId × Witness) → Nat → Objects X →
      List (Nat × CommitteeMember) × Objects X
  | [], _, o => ([], o)
  | w :: later, left, o =>
      match o.committeeMembers.zipIdx.find?
          (fun m => m.1.committeeMemberAccount == w.2.witnessAccount) with
      | none => pickMembers b later left o
      | some (m, id) =>
          let votes := b.voteTally.getD w.2.voteId 0
          let o := setMemberVotes id votes o
          let picked := (id, { m with totalVotes := votes })
          if left ≤ 1 then ([picked], o)
          else
            let rest := pickMembers b later (left - 1) o
            (picked :: rest.1, rest.2)

def updateActiveTrustnodes (b : Buffers) (o : Objects X) :
    Except Fault (Objects X) := do
  let (wits, o) ← updateWitnesses b o
  let picked := pickMembers b wits (o.maximumCommitteeCount / 2 * 2 + 1) o
  return setCommittee picked.1 picked.2

def updateActiveCommitteeMembers (b : Buffers) (o : Objects X) :
    Objects X :=
  let target := stakeTarget b.totalVotingStake b.committeeCountHistogram
  let wanted :=
    if 0 < target then
      countWantedMembers target b.committeeCountHistogram.tail 0 0
    else 0
  let members :=
    (sortVotableObjects b.voteTally (fun m => m.2.voteId)
      (max (wanted * 2 + 1) o.minCommitteeMemberCount)
      (withIds o.committeeMembers)).map
        fun m => (m.1, { m.2 with totalVotes := b.voteTally.getD m.2.voteId 0 })
  setCommittee members
    (members.foldl (fun o m => setMemberVotes m.1 m.2.totalVotes o) o)

def updateActive (b : Buffers) (o : Objects X) : Except Fault (Objects X) :=
  if o.headBlockTime > HARDFORK_1012_TIME then
    updateActiveTrustnodes b o
  else do
    let (_, o) ← updateWitnesses b o
    return updateActiveCommitteeMembers b o

end Update

section Maintenance

variable {X : Type}

def Objects.inStakingMode (o : Objects X) : Bool :=
  o.headBlockTime > HARDFORK_1025_TIME ∧ o.stakingModeOn = true

/-- The count in the staking mode, with the fees and the rewards. -/
def tallyStaking (rules : Rules X) (node : Node X) :
    Outcome Fault (Node X) :=
  let node := statisticalVoteWeight node
  (forEach (processFeesOf rules) node.objects.accounts node).bind fun node =>
  let all := withIds node.objects.witnesses
  let wits :=
    sortVotableObjects node.buffers.voteTally (fun w => w.2.voteId)
      (min all.length node.objects.validNodesNumber) all
  match rules.distributeRewards (wits.map (·.1)) node.objects with
  | .error fault => .throw fault node
  | .ok o => .ok { node with objects := o }

/-- The count in the classic mode, account by account with the fees. -/
def tallyClassic (rules : Rules X) (node : Node X) :
    Outcome Fault (Node X) :=
  forEach
    (fun a node =>
      (tallyAccount rules a node).bind (processFeesOf rules a))
    node.objects.accounts node

/-- The part between the construction of the helper and that of the guards. -/
def tally (rules : Rules X) (node : Node X) : Outcome Fault (Node X) :=
  if node.objects.inStakingMode then tallyStaking rules node
  else tallyClassic rules node

/-- The part after the construction of the guards. -/
def settle (rules : Rules X) (node : Node X) : Except Fault (Objects X) := do
  let o ← rules.updateTopNAuthorities node.objects
  let o ← updateActive node.buffers o
  rules.finish o

/-- What the guards leave of the buffers. -/
def Buffers.cleared (b : Buffers) : Buffers :=
  { b with
    voteTally := []
    witnessCountHistogram := []
    committeeCountHistogram := [] }

/-- What comes after the count. -/
def finishMaintenance (rules : Rules X) (node : Node X) :
    Outcome Fault (Node X) :=
  match settle rules node with
  | .error fault => .throw fault { node with buffers := node.buffers.cleared }
  | .ok o => .ok ⟨o, node.buffers.cleared⟩

/-- `perform_chain_maintenance`.  Its caller undoes what a maintenance that
throws has done to the objects, and nothing of what it has done to the
buffers. -/
def performChainMaintenance (rules : Rules X) (node : Node X) :
    Outcome Fault (Node X) :=
  match rules.distributeFbaBalances node.objects with
  | .error fault => .throw fault node
  | .ok rest =>
      (tally rules (startTally (node.setRest rest))).bind
        (finishMaintenance rules)

/-- What the maintenance comes to, without the buffers. -/
def resultOf (outcome : Outcome Fault (Node X)) : Except Fault (Objects X) :=
  match outcome with
  | .ok node => .ok node.objects
  | .throw fault _ => .error fault

end Maintenance

end GxbCore.Voting
