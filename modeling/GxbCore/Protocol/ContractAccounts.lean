import GxbCore.Protocol.Accounts

/-!
# The accounts of contracts

`contract_deploy` creates an account without a word about its authorities, so
they are what the constructor leaves: no members, and a threshold of zero.  The
sum of no weights reaches that threshold.  Whoever sends a transaction that
needs such an account need not sign for it: `verify_authority` decides as if the
account were not asked for.
-/

namespace GxbCore.Protocol

namespace Directory

section Lookup

variable {K : Type} {directory : Directory K}

theorem find_modify
    (id other : AccountId) (change : AccountObject K → AccountObject K) :
    (directory.modify id change).find other =
      (directory.find other).map fun a =>
        if a.id = id then { change a with id := a.id } else a := by
  unfold find modify
  rw [List.find?_map]
  congr 2
  funext a
  by_cases same : a.id = id
  · simp [same]
  · simp [same]

variable {construct : AccountObject K → AccountObject K}

theorem find_create_of_lt {id : AccountId} (older : id < directory.nextId) :
    (directory.create construct).find id = directory.find id := by
  simp [find, create, List.find?_append, Nat.ne_of_gt older]

theorem find_create_nextId
    (below : ∀ a ∈ directory.accounts, a.id < directory.nextId) :
    (directory.create construct).find directory.nextId =
      some { construct (.fresh directory.nextId) with
        id := directory.nextId } := by
  have absent :
      (directory.accounts.find? fun a => a.id == directory.nextId) =
        none := by
    rw [List.find?_eq_none]
    intro a member same
    exact Nat.ne_of_lt (below a member) (by simpa using same)
  simp [find, create, List.find?_append, absent]

theorem find_id {id : AccountId} {a : AccountObject K}
    (found : directory.find id = some a) : a.id = id := by
  simpa using List.find?_some found

end Lookup

end Directory

section Reachable

variable {K : Type}

/-- The authorities are those of the constructor, and none is special. -/
structure AccountObject.Unset (a : AccountObject K) : Prop where
  owner_eq : a.owner = .unset
  active_eq : a.active = .unset
  ownerSpecial_eq : a.ownerSpecialAuthority = .noSpecialAuthority
  activeSpecial_eq : a.activeSpecialAuthority = .noSpecialAuthority

def AccountUpdateOperation.setsAuthority (o : AccountUpdateOperation K) :
    Bool :=
  o.owner.isSome || o.active.isSome || o.ownerSpecialAuthority.isSome ||
    o.activeSpecialAuthority.isSome

/-- The directories that runs reach, with the accounts that `contract_deploy`
created and those whose authorities an `account_update` set. -/
inductive Reachable [DecidableEq K] (numSpecialAccounts : Nat) :
    Directory K → List AccountId → List AccountId → Prop
  | genesis :
      Reachable numSpecialAccounts (.genesis numSpecialAccounts) [] []
  | accountCreate {directory after : Directory K}
      {deployed updated : List AccountId} (world : Surroundings)
      (o : AccountCreateOperation K)
      (earlier : Reachable numSpecialAccounts directory deployed updated)
      (returns : directory.accountCreate world o = .ok after) :
      Reachable numSpecialAccounts after deployed updated
  | accountUpdate {directory after : Directory K}
      {deployed updated : List AccountId} (world : Surroundings)
      (o : AccountUpdateOperation K)
      (earlier : Reachable numSpecialAccounts directory deployed updated)
      (returns : directory.accountUpdate world o = .ok after) :
      Reachable numSpecialAccounts after deployed
        (if o.setsAuthority then o.account :: updated else updated)
  | contractDeploy {directory after : Directory K}
      {deployed updated : List AccountId} (world : Surroundings)
      (o : ContractDeployOperation)
      (earlier : Reachable numSpecialAccounts directory deployed updated)
      (returns : directory.contractDeploy world o = .ok after) :
      Reachable numSpecialAccounts after (directory.nextId :: deployed)
        updated
  | contractUpdate {directory after : Directory K}
      {deployed updated : List AccountId} (world : Surroundings)
      (o : ContractUpdateOperation)
      (earlier : Reachable numSpecialAccounts directory deployed updated)
      (returns : directory.contractUpdate world o = .ok after) :
      Reachable numSpecialAccounts after deployed updated
  | maintain {directory : Directory K}
      {deployed updated : List AccountId} (votes : Directory.Votes)
      (earlier : Reachable numSpecialAccounts directory deployed updated) :
      Reachable numSpecialAccounts (directory.maintain votes) deployed updated

/-- What every run keeps: ids are handed out upwards, past those of the special
accounts, and a contract's account that was not updated is as it was created. -/
structure Standing (directory : Directory K)
    (deployed updated : List AccountId) : Prop where
  ids_lt : ∀ a ∈ directory.accounts, a.id < directory.nextId
  special_le : 6 ≤ directory.nextId
  special_le_deployed : ∀ id ∈ deployed, 6 ≤ id
  unset :
    ∀ id ∈ deployed, id ∉ updated →
      ∃ a, directory.find id = some a ∧ a.Unset

namespace Standing

variable {directory : Directory K} {deployed updated : List AccountId}

theorem lt_nextId (standing : Standing directory deployed updated)
    {id : AccountId} {a : AccountObject K}
    (found : directory.find id = some a) : id < directory.nextId := by
  have below := standing.ids_lt a (List.mem_of_find?_eq_some found)
  rwa [Directory.find_id found] at below

theorem genesis (numSpecialAccounts : Nat) :
    Standing (.genesis numSpecialAccounts : Directory K) [] [] where
  ids_lt := by
    intro a member
    have low : a.id < 6 := by
      simp only [Directory.genesis, List.mem_cons, List.not_mem_nil,
        or_false] at member
      rcases member with rfl | rfl | rfl | rfl | rfl | rfl
      all_goals simp [Directory.specialAccount, AccountObject.fresh]
    exact Nat.lt_of_lt_of_le low (Nat.le_max_left _ _)
  special_le := Nat.le_max_left _ _
  special_le_deployed := by simp
  unset := by simp

/-- A lambda that leaves the untouched accounts as they are keeps this. -/
theorem modify (standing : Standing directory deployed updated)
    {id : AccountId} {change : AccountObject K → AccountObject K}
    (keeps :
      ∀ a, a.id = id → id ∈ deployed → id ∉ updated → a.Unset →
        (change a).Unset) :
    Standing (directory.modify id change) deployed updated where
  ids_lt := by
    intro a member
    obtain ⟨b, older, rfl⟩ := List.mem_map.mp member
    have below := standing.ids_lt b older
    split
    · exact below
    · exact below
  special_le := standing.special_le
  special_le_deployed := standing.special_le_deployed
  unset := by
    intro other isDeployed untouched
    obtain ⟨a, found, isUnset⟩ := standing.unset other isDeployed untouched
    have sameId := Directory.find_id found
    rw [Directory.find_modify, found]
    refine ⟨_, rfl, ?_⟩
    dsimp only
    split
    · next same =>
        rw [sameId] at same
        rw [same] at isDeployed untouched
        have changed :=
          keeps a (sameId.trans same) isDeployed untouched isUnset
        exact { changed with }
    · exact isUnset

theorem create (standing : Standing directory deployed updated)
    (construct : AccountObject K → AccountObject K) :
    Standing (directory.create construct) deployed updated where
  ids_lt := by
    intro a member
    rcases List.mem_append.mp member with older | newer
    · exact Nat.lt_succ_of_lt (standing.ids_lt a older)
    · rw [List.mem_singleton.mp newer]
      exact Nat.lt_succ_self _
  special_le := Nat.le_succ_of_le standing.special_le
  special_le_deployed := standing.special_le_deployed
  unset := by
    intro id isDeployed untouched
    obtain ⟨a, found, isUnset⟩ := standing.unset id isDeployed untouched
    rw [Directory.find_create_of_lt (standing.lt_nextId found)]
    exact ⟨a, found, isUnset⟩

theorem special (standing : Standing directory deployed updated)
    (specialAuthorities : List AccountId) :
    Standing { directory with specialAuthorities := specialAuthorities }
      deployed updated :=
  { standing with }

theorem noteSpecialAuthority (standing : Standing directory deployed updated)
    {id : AccountId} {noted : Bool} {after : Directory K}
    (returns : directory.noteSpecialAuthority id noted = .ok after) :
    Standing after deployed updated := by
  unfold Directory.noteSpecialAuthority at returns
  split at returns
  · obtain ⟨_, _, returns⟩ := bind_eq_ok.mp returns
    cases returns
    exact standing.special _
  · cases returns
    exact standing

theorem updateSpecialAuthority (standing : Standing directory deployed updated)
    {id : AccountId} {before after : Bool} {final : Directory K}
    (returns : directory.updateSpecialAuthority id before after = .ok final) :
    Standing final deployed updated := by
  unfold Directory.updateSpecialAuthority at returns
  split at returns
  · cases returns
    exact standing.special _
  · exact standing.noteSpecialAuthority returns

theorem touch (standing : Standing directory deployed updated)
    (id : AccountId) : Standing directory deployed (id :: updated) :=
  { standing with
    unset := fun other isDeployed untouched =>
      standing.unset other isDeployed fun member =>
        untouched (List.mem_cons_of_mem id member) }

/-- The account that `contract_deploy` adds. -/
theorem deploy (standing : Standing directory deployed updated)
    {construct : AccountObject K → AccountObject K}
    (isUnset : (construct (.fresh directory.nextId)).Unset) :
    Standing (directory.create construct) (directory.nextId :: deployed)
      updated :=
  { standing.create construct with
    special_le_deployed := by
      intro id member
      rcases List.mem_cons.mp member with rfl | older
      · exact standing.special_le
      · exact standing.special_le_deployed id older
    unset := by
      intro id member untouched
      rcases List.mem_cons.mp member with rfl | older
      · rw [Directory.find_create_nextId standing.ids_lt]
        exact ⟨_, rfl, { isUnset with }⟩
      · exact (standing.create construct).unset id older untouched }

end Standing

section Steps

variable {directory after : Directory K} {deployed updated : List AccountId}
  {world : Surroundings}

theorem accountCreate_standing [DecidableEq K] {o : AccountCreateOperation K}
    (standing : Standing directory deployed updated)
    (returns : directory.accountCreate world o = .ok after) :
    Standing after deployed updated := by
  simp only [Directory.accountCreate, bind_eq_ok] at returns
  obtain ⟨_, _, _, _, referrer, _, returns⟩ := returns
  exact (standing.create _).noteSpecialAuthority returns

theorem applyUpdate_unset {o : AccountUpdateOperation K} {a : AccountObject K}
    (isUnset : a.Unset) (optionsOnly : o.setsAuthority = false) :
    (Directory.applyUpdate o a).Unset := by
  simp only [AccountUpdateOperation.setsAuthority, Bool.or_eq_false_iff,
    Option.isSome_eq_false_iff, Option.isNone_iff_eq_none] at optionsOnly
  obtain ⟨⟨⟨noOwner, noActive⟩, noOwnerSpecial⟩, noActiveSpecial⟩ :=
    optionsOnly
  constructor
  · simp [Directory.applyUpdate, noOwner, isUnset.owner_eq]
  · simp [Directory.applyUpdate, noActive, isUnset.active_eq]
  · simp [Directory.applyUpdate, noOwnerSpecial, isUnset.ownerSpecial_eq]
  · simp [Directory.applyUpdate, noActiveSpecial, isUnset.activeSpecial_eq]

theorem accountUpdate_standing [DecidableEq K] {o : AccountUpdateOperation K}
    (standing : Standing directory deployed updated)
    (returns : directory.accountUpdate world o = .ok after) :
    Standing after deployed
      (if o.setsAuthority then o.account :: updated else updated) := by
  simp only [Directory.accountUpdate, bind_eq_ok] at returns
  obtain ⟨_, _, _, _, _, _, _, _, _, _, acnt, _, _, _, returns⟩ := returns
  apply @Standing.updateSpecialAuthority _ _ _ _ _ _ _ _ _ returns
  split
  · apply (standing.touch o.account).modify
    intro a _ _ untouched
    exact absurd List.mem_cons_self untouched
  · next optionsOnly =>
      apply standing.modify
      intro a _ _ _ isUnset
      exact applyUpdate_unset isUnset (by simpa using optionsOnly)

theorem contractDeploy_standing {o : ContractDeployOperation}
    (standing : Standing directory deployed updated)
    (returns : directory.contractDeploy world o = .ok after) :
    Standing after (directory.nextId :: deployed) updated := by
  simp only [Directory.contractDeploy, bind_eq_ok] at returns
  obtain ⟨_, _, _, _, _, _, _, _, _, _, returns⟩ := returns
  cases returns
  exact standing.deploy ⟨rfl, rfl, rfl, rfl⟩

theorem contractUpdate_standing {o : ContractUpdateOperation}
    (standing : Standing directory deployed updated)
    (returns : directory.contractUpdate world o = .ok after) :
    Standing after deployed updated := by
  simp only [Directory.contractUpdate, bind_eq_ok] at returns
  obtain ⟨_, _, contractObj, _, _, _, _, _, _, _, _, _, _, _, _, _, _, _,
    returns⟩ := returns
  cases returns
  apply standing.modify
  intro a _ _ _ isUnset
  exact { isUnset with }

theorem applyTopHolders_unset {votes : Directory.Votes}
    {a : AccountObject K} (isUnset : a.Unset) :
    (Directory.applyTopHolders votes a).Unset := by
  constructor
  · simp [Directory.applyTopHolders, Directory.topHoldersAuthority,
      isUnset.ownerSpecial_eq, isUnset.owner_eq]
  · simp [Directory.applyTopHolders, Directory.topHoldersAuthority,
      isUnset.activeSpecial_eq, isUnset.active_eq]
  · exact isUnset.ownerSpecial_eq
  · exact isUnset.activeSpecial_eq

theorem updateTopNAuthorities_standing
    (standing : Standing directory deployed updated) (votes : Directory.Votes) :
    Standing (directory.updateTopNAuthorities votes) deployed updated := by
  unfold Directory.updateTopNAuthorities
  -- the list of special authorities is read once, before the loop
  generalize directory.specialAuthorities = specialAuthorities
  induction specialAuthorities generalizing directory with
  | nil => exact standing
  | cons id rest ih =>
      apply ih
      apply standing.modify
      intro a _ _ _ isUnset
      exact applyTopHolders_unset isUnset

theorem Standing.modifySpecial (standing : Standing directory deployed updated)
    (id : AccountId) (isSpecial : id < 6)
    (change : AccountObject K → AccountObject K) :
    Standing (directory.modify id change) deployed updated := by
  apply standing.modify
  intro a _ isDeployed
  exact absurd (standing.special_le_deployed id isDeployed)
    (Nat.not_le_of_lt isSpecial)

theorem maintain_standing (standing : Standing directory deployed updated)
    (votes : Directory.Votes) :
    Standing (directory.maintain votes) deployed updated := by
  have counted :
      Standing
        ((directory.updateTopNAuthorities votes).finishActive
          GRAPHENE_WITNESS_ACCOUNT votes.witnesses) deployed updated :=
    (updateTopNAuthorities_standing standing votes).modifySpecial _
      (by decide) _
  unfold Directory.maintain
  simp only
  split
  · exact counted
  · have committee :=
      counted.modifySpecial GRAPHENE_COMMITTEE_ACCOUNT (by decide)
        (fun a => { a with
          active :=
            (VoteCounter.count votes.committeeMembers).finish a.active })
    split
    · exact committee
    · exact committee.modifySpecial _ (by decide) _

end Steps

/-- Every run leaves the contracts' accounts as they were deployed. -/
theorem Reachable.standing [DecidableEq K] {numSpecialAccounts : Nat}
    {directory : Directory K} {deployed updated : List AccountId}
    (reachable : Reachable numSpecialAccounts directory deployed updated) :
    Standing directory deployed updated := by
  induction reachable with
  | genesis => exact Standing.genesis numSpecialAccounts
  | accountCreate _ _ _ returns ih =>
      exact accountCreate_standing ih returns
  | accountUpdate _ _ _ returns ih =>
      exact accountUpdate_standing ih returns
  | contractDeploy _ _ _ returns ih =>
      exact contractDeploy_standing ih returns
  | contractUpdate _ _ _ returns ih =>
      exact contractUpdate_standing ih returns
  | maintain votes _ ih =>
      exact maintain_standing ih votes

end Reachable

section Verify

variable {K : Type} [DecidableEq K]

/-- The arguments that `_apply_transaction` calls `verify_authority` with. -/
def Directory.signatures (directory : Directory K) (maxAuthorityDepth : Nat)
    (sigs : List K) : Signatures K where
  sigs := sigs
  getActive := fun id => (directory.find id).map (·.active)
  getOwner := fun id => (directory.find id).map (·.owner)
  maxRecursionDepth := maxAuthorityDepth
  allowCommittee := false
  activeApprovals := []
  ownerApprovals := []

def Required.without (required : Required K) (account : AccountId) :
    Required K where
  active := required.active.filter fun id => id ≠ account
  owner := required.owner.filter fun id => id ≠ account
  other := required.other

def Needs (ops : List (Operation K)) (account : AccountId) : Prop :=
  account ∈ (getRequiredAuthorities Operation.requires ops).active ∨
    account ∈ (getRequiredAuthorities Operation.requires ops).owner

/-- Every transaction that needs the account is rejected. -/
def Guarded (directory : Directory K) (maxAuthorityDepth : Nat)
    (account : AccountId) : Prop :=
  ∀ (sigs : List K) (ops : List (Operation K)), Needs ops account →
    ∀ state,
      verifyAuthority Operation.requires ops
          (directory.signatures maxAuthorityDepth sigs) ≠ .ok state

/-- The sum of no weights reaches a threshold of zero. -/
theorem checkAuthority_unset (context : SignContext K) (remaining : Nat)
    (state : SignState K) :
    checkAuthority context remaining (some .unset) state = (true, state) := by
  cases remaining with
  | zero => rfl
  | succ remaining => rfl

theorem foldl_insert_filter (account : AccountId) (more set : List AccountId) :
    (more.foldl (fun set id => set.insert id) set).filter
        (fun id => id ≠ account) =
      (more.filter fun id => id ≠ account).foldl
        (fun set id => set.insert id)
        (set.filter fun id => id ≠ account) := by
  induction more generalizing set with
  | nil => rfl
  | cons id rest ih =>
      rw [List.foldl_cons, ih]
      by_cases same : id = account
      · rw [List.filter_cons_of_neg (by simpa using same)]
        congr 1
        by_cases member : id ∈ set
        · rw [List.insert_of_mem member]
        · rw [List.insert_of_not_mem member,
            List.filter_cons_of_neg (by simpa using same)]
      · rw [List.filter_cons_of_pos (by simpa using same), List.foldl_cons]
        congr 1
        by_cases member : id ∈ set
        · rw [List.insert_of_mem member, List.insert_of_mem]
          exact List.mem_filter.mpr ⟨member, by simpa using same⟩
        · rw [List.insert_of_not_mem member, List.insert_of_not_mem,
            List.filter_cons_of_pos (by simpa using same)]
          intro filtered
          exact member (List.mem_filter.mp filtered).1

omit [DecidableEq K] in
theorem getRequiredAuthorities_without {Op : Type}
    (requires : Op → Required K) (account : AccountId) (ops : List Op) :
    getRequiredAuthorities (fun op => (requires op).without account) ops =
      (getRequiredAuthorities requires ops).without account := by
  have fromAny :
      ∀ required : Required K,
        ops.foldl
            (fun required op => required.add ((requires op).without account))
            (required.without account) =
          (ops.foldl (fun required op => required.add (requires op))
            required).without account := by
    induction ops with
    | nil =>
        intro required
        rfl
    | cons op rest ih =>
        intro required
        rw [List.foldl_cons, List.foldl_cons, ← ih]
        congr 1
        simp only [Required.add, Required.without, foldl_insert_filter]
  exact fromAny ⟨[], [], []⟩

theorem forEach_filter_idle {ε σ : Type} {body : AccountId → σ → Outcome ε σ}
    {account : AccountId} (idle : ∀ state, body account state = .ok state)
    (items : List AccountId) (state : σ) :
    forEach body items state =
      forEach body (items.filter fun id => id ≠ account) state := by
  induction items generalizing state with
  | nil => rfl
  | cons id rest ih =>
      by_cases same : id = account
      · rw [forEach_cons, same, idle, Outcome.bind_ok, ih]
        simp
      · rw [List.filter_cons_of_pos (by simpa using same), forEach_cons,
          forEach_cons]
        congr 1
        funext middle
        exact ih middle

variable {directory : Directory K} {maxAuthorityDepth : Nat}
  {account : AccountId} {a : AccountObject K}

theorem checkActive_unset (sigs : List K)
    (found : directory.find account = some a) (isUnset : a.Unset)
    (state : SignState K) :
    (directory.signatures maxAuthorityDepth sigs).checkActive account state =
      .ok state := by
  have passes :
      checkAccountAuthority
          (directory.signatures maxAuthorityDepth sigs).context
          maxAuthorityDepth account state = (true, state) := by
    unfold checkAccountAuthority
    split
    · rfl
    · simp [Signatures.context, Directory.signatures, found,
        isUnset.active_eq, checkAuthority_unset]
  simp only [Signatures.checkActive]
  rw [show (directory.signatures maxAuthorityDepth sigs).maxRecursionDepth =
    maxAuthorityDepth from rfl, passes]

theorem checkOwner_unset (sigs : List K)
    (found : directory.find account = some a) (isUnset : a.Unset)
    (state : SignState K) :
    (directory.signatures maxAuthorityDepth sigs).checkOwner account state =
      .ok state := by
  simp [Signatures.checkOwner, Directory.signatures, found,
    isUnset.owner_eq, checkAuthority_unset]

/-- To need an account with the authorities of the constructor is to need
nothing. -/
theorem verifyAuthority_without (sigs : List K) (ops : List (Operation K))
    (found : directory.find account = some a) (isUnset : a.Unset)
    (notCommittee : account ≠ GRAPHENE_COMMITTEE_ACCOUNT) :
    verifyAuthority Operation.requires ops
        (directory.signatures maxAuthorityDepth sigs) =
      verifyAuthority (fun op => op.requires.without account) ops
        (directory.signatures maxAuthorityDepth sigs) := by
  unfold verifyAuthority
  rw [getRequiredAuthorities_without]
  generalize getRequiredAuthorities Operation.requires ops = required
  have committee :
      GRAPHENE_COMMITTEE_ACCOUNT ∈ (required.without account).active ↔
        GRAPHENE_COMMITTEE_ACCOUNT ∈ required.active := by
    simp only [Required.without, List.mem_filter, decide_eq_true_eq]
    exact ⟨And.left, fun member => ⟨member, notCommittee.symm⟩⟩
  simp only [committee]
  split
  · rfl
  · rw [Required.without]
    congr 1
    funext state
    rw [forEach_filter_idle (checkActive_unset sigs found isUnset)]
    congr 1
    funext later
    rw [forEach_filter_idle (checkOwner_unset sigs found isUnset)]

end Verify

section Results

variable {K : Type} [DecidableEq K]

/-- In every state, of every account that `contract_deploy` created and no
`account_update` gave authorities to: `verify_authority` decides on every
transaction, whatever its signatures, as if the account were not needed, and
there are transactions that need it and are accepted. -/
theorem contract_account_unguarded {numSpecialAccounts : Nat}
    {directory : Directory K} {deployed updated : List AccountId}
    (reachable : Reachable numSpecialAccounts directory deployed updated)
    {account : AccountId} (isContract : account ∈ deployed)
    (untouched : account ∉ updated) (maxAuthorityDepth : Nat) :
    (∀ (sigs : List K) (ops : List (Operation K)),
      verifyAuthority Operation.requires ops
          (directory.signatures maxAuthorityDepth sigs) =
        verifyAuthority (fun op => op.requires.without account) ops
          (directory.signatures maxAuthorityDepth sigs)) ∧
      ¬ Guarded directory maxAuthorityDepth account := by
  have standing := reachable.standing
  obtain ⟨a, found, isUnset⟩ := standing.unset account isContract untouched
  have notCommittee : account ≠ GRAPHENE_COMMITTEE_ACCOUNT := by
    intro same
    have low := standing.special_le_deployed account isContract
    rw [same] at low
    exact absurd low (by decide)
  have ignored :
      ∀ (sigs : List K) (ops : List (Operation K)),
        verifyAuthority Operation.requires ops
            (directory.signatures maxAuthorityDepth sigs) =
          verifyAuthority (fun op => op.requires.without account) ops
            (directory.signatures maxAuthorityDepth sigs) :=
    fun sigs ops =>
      verifyAuthority_without sigs ops found isUnset notCommittee
  refine ⟨ignored, ?_⟩
  -- a transfer of all it has, signed by nobody
  intro guarded
  refine guarded [] [.transfer account GRAPHENE_NULL_ACCOUNT 1] ?_
    (directory.signatures maxAuthorityDepth []).start ?_
  · simp [Needs, getRequiredAuthorities, Required.add, Operation.requires]
  · rw [ignored]
    simp [verifyAuthority, getRequiredAuthorities, Required.add,
      Required.without, Operation.requires, Signatures.hasUnused,
      Directory.signatures]

/-- A contract of one action, deployed by the null account. -/
def bankDeployment : ContractDeployOperation where
  fee := 0
  name := ['b', 'a', 'n', 'k']
  account := GRAPHENE_NULL_ACCOUNT
  code := [0]
  actions := ["deposit"]

/-- A chain past the hard forks that takes every code. -/
def openWorld : Surroundings where
  headBlockTime := 1600000000
  maximumAuthorityMembership := 10
  maximumWitnessCount := 101
  maximumCommitteeCount := 101
  nextAvailableVoteId := 0
  assetIssuer := fun _ => none
  wasmValid := fun _ => true
  hash := List.length

def afterDeployment : Directory Nat :=
  match (Directory.genesis 0).contractDeploy openWorld bankDeployment with
  | .ok after => after
  | .error _ => .genesis 0

theorem bank_reachable : Reachable 0 afterDeployment [6] [] :=
  .contractDeploy openWorld bankDeployment .genesis (by decide)

theorem contract_account_unguarded_bank :
    ¬ Guarded afterDeployment 2 6 :=
  (contract_account_unguarded bank_reachable (by decide) (by decide) 2).2

/-- A transfer from the bank's account. -/
def withdrawal : List (Operation Nat) :=
  [.transfer 6 GRAPHENE_NULL_ACCOUNT 1]

/-- The bank's account pays without a signature. -/
theorem contract_account_pays_anyone :
    Reachable 0 afterDeployment [6] [] ∧ Needs withdrawal 6 ∧
      (verifyAuthority Operation.requires withdrawal
          (afterDeployment.signatures 2 [])).returned = true := by
  refine ⟨bank_reachable, Or.inl ?_, ?_⟩
  · decide
  · decide

end Results

end GxbCore.Protocol
