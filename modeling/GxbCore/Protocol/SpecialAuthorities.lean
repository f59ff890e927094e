import GxbCore.Protocol.ContractAccounts
import Mathlib.Data.List.Nodup

/-!
# The registry of special authorities

A `special_authority_object` points to each account that has a special
authority, so that maintenance need not go through all accounts.  An update
compares `has_special_authority` before and after; a creation asks whether an
extension is present.  The two differ on an extension that says
`no_special_authority`: the new account is registered without having a special
authority, and its first one cannot be set.  Where no creation has such
extensions, the registry is exact and every update can be applied.
-/

namespace GxbCore.Protocol

section Registry

variable {K : Type}

def Directory.hasSpecial (directory : Directory K) (id : AccountId) : Bool :=
  (directory.find id).any (·.hasSpecialAuthority)

/-- If an extension is present, one of them is a special authority. -/
def AccountCreateOperation.MeansExtensions (o : AccountCreateOperation K) :
    Prop :=
  o.ownerSpecialAuthority.isSome || o.activeSpecialAuthority.isSome →
    (∃ special, o.ownerSpecialAuthority = some special ∧
        special ≠ .noSpecialAuthority) ∨
      ∃ special, o.activeSpecialAuthority = some special ∧
        special ≠ .noSpecialAuthority

/-- The directories that runs reach whose creations meet the condition. -/
inductive SpecialRun [DecidableEq K] (numSpecialAccounts : Nat)
    (permits : AccountCreateOperation K → Prop) : Directory K → Prop
  | genesis :
      SpecialRun numSpecialAccounts permits (.genesis numSpecialAccounts)
  | accountCreate {directory after : Directory K} (world : Surroundings)
      (o : AccountCreateOperation K)
      (earlier : SpecialRun numSpecialAccounts permits directory)
      (meets : permits o)
      (returns : directory.accountCreate world o = .ok after) :
      SpecialRun numSpecialAccounts permits after
  | accountUpdate {directory after : Directory K} (world : Surroundings)
      (o : AccountUpdateOperation K)
      (earlier : SpecialRun numSpecialAccounts permits directory)
      (returns : directory.accountUpdate world o = .ok after) :
      SpecialRun numSpecialAccounts permits after
  | contractDeploy {directory after : Directory K} (world : Surroundings)
      (o : ContractDeployOperation)
      (earlier : SpecialRun numSpecialAccounts permits directory)
      (returns : directory.contractDeploy world o = .ok after) :
      SpecialRun numSpecialAccounts permits after
  | contractUpdate {directory after : Directory K} (world : Surroundings)
      (o : ContractUpdateOperation)
      (earlier : SpecialRun numSpecialAccounts permits directory)
      (returns : directory.contractUpdate world o = .ok after) :
      SpecialRun numSpecialAccounts permits after
  | maintain {directory : Directory K} (votes : Directory.Votes)
      (earlier : SpecialRun numSpecialAccounts permits directory) :
      SpecialRun numSpecialAccounts permits (directory.maintain votes)

/-- The invariant: each account with a special authority is registered, once,
and no other. -/
structure Registered (directory : Directory K) : Prop where
  ids_lt : ∀ a ∈ directory.accounts, a.id < directory.nextId
  nodup : directory.specialAuthorities.Nodup
  listed :
    ∀ id, id ∈ directory.specialAuthorities ↔
      directory.hasSpecial id = true

namespace Registered

variable {directory after : Directory K}

theorem lt_nextId (registered : Registered directory) {id : AccountId}
    (member : id ∈ directory.specialAuthorities) : id < directory.nextId := by
  have has := (registered.listed id).mp member
  obtain ⟨a, found, _⟩ := (Option.any_eq_true _ _).mp has
  rw [← Directory.find_id found]
  exact registered.ids_lt a (List.mem_of_find?_eq_some found)

theorem count (registered : Registered directory) (id : AccountId) :
    directory.specialAuthorities.count id =
      if directory.hasSpecial id then 1 else 0 := by
  rw [registered.nodup.count]
  simp only [registered.listed id]

theorem genesis (numSpecialAccounts : Nat) :
    Registered (.genesis numSpecialAccounts : Directory K) where
  ids_lt := (Standing.genesis numSpecialAccounts).ids_lt
  nodup := List.nodup_nil
  listed := by
    intro id
    refine ⟨fun member => absurd member List.not_mem_nil, ?_⟩
    intro has
    obtain ⟨a, found, isSpecial⟩ := (Option.any_eq_true _ _).mp has
    have member := List.mem_of_find?_eq_some found
    simp only [Directory.genesis, List.mem_cons, List.not_mem_nil,
      or_false] at member
    rcases member with rfl | rfl | rfl | rfl | rfl | rfl
    all_goals exact Bool.noConfusion isSpecial

/-- A lambda that leaves the special authorities as they are keeps this. -/
theorem modify (registered : Registered directory) (id : AccountId)
    {change : AccountObject K → AccountObject K}
    (keeps : ∀ a, (change a).hasSpecialAuthority = a.hasSpecialAuthority) :
    Registered (directory.modify id change) where
  ids_lt := by
    intro a member
    obtain ⟨b, older, rfl⟩ := List.mem_map.mp member
    have below := registered.ids_lt b older
    split
    · exact below
    · exact below
  nodup := registered.nodup
  listed := by
    intro other
    have same :
        (directory.modify id change).hasSpecial other =
          directory.hasSpecial other := by
      unfold Directory.hasSpecial
      rw [Directory.find_modify, Option.any_map]
      congr 1
      funext a
      dsimp only
      split
      · exact keeps a
      · rfl
    rw [same]
    exact registered.listed other

theorem hasSpecial_create (registered : Registered directory)
    (construct : AccountObject K → AccountObject K) (id : AccountId) :
    (directory.create construct).hasSpecial id =
      if id = directory.nextId then
        (construct (.fresh directory.nextId)).hasSpecialAuthority
      else directory.hasSpecial id := by
  unfold Directory.hasSpecial
  split
  · next isNew =>
      rw [isNew, Directory.find_create_nextId registered.ids_lt]
      rfl
  · next isOld =>
      have sameFind :
          (directory.create construct).find id = directory.find id := by
        simp [Directory.find, Directory.create, List.find?_append,
          Ne.symm isOld]
      rw [sameFind]

theorem create (registered : Registered directory)
    {construct : AccountObject K → AccountObject K} {noted : Bool}
    (agrees :
      (construct (.fresh directory.nextId)).hasSpecialAuthority = noted) :
    Registered
      { directory.create construct with
        specialAuthorities :=
          directory.specialAuthorities ++
            if noted then [directory.nextId] else [] } where
  ids_lt := by
    intro a member
    rcases List.mem_append.mp member with older | newer
    · exact Nat.lt_succ_of_lt (registered.ids_lt a older)
    · rw [List.mem_singleton.mp newer]
      exact Nat.lt_succ_self _
  nodup := by
    rw [List.nodup_append]
    refine ⟨registered.nodup, ?_, ?_⟩
    · cases noted with
      | true => exact List.nodup_singleton _
      | false => exact List.nodup_nil
    · intro id member other otherMember same
      have below := registered.lt_nextId member
      cases noted with
      | true =>
          rw [same, List.mem_singleton.mp otherMember] at below
          exact Nat.lt_irrefl _ below
      | false => exact absurd otherMember List.not_mem_nil
  listed := by
    intro id
    have isSpecial := registered.hasSpecial_create construct id
    change id ∈ directory.specialAuthorities ++ _ ↔
      (directory.create construct).hasSpecial id = true
    rw [isSpecial, List.mem_append, registered.listed id]
    by_cases isNew : id = directory.nextId
    · rw [if_pos isNew, agrees, isNew]
      have notOld : ¬ directory.hasSpecial directory.nextId = true := by
        intro has
        exact Nat.lt_irrefl _
          (registered.lt_nextId ((registered.listed _).mpr has))
      cases noted with
      | true => simp
      | false => simpa using notOld
    · rw [if_neg isNew]
      cases noted with
      | true => simp [isNew]
      | false => simp

end Registered

variable {directory after : Directory K} {world : Surroundings}

/-- What the registry is after the object of an account is created. -/
theorem noteSpecialAuthority_eq_ok {id : AccountId} {noted : Bool}
    (returns : directory.noteSpecialAuthority id noted = .ok after) :
    after =
        { directory with
          specialAuthorities :=
            directory.specialAuthorities ++ if noted then [id] else [] } ∧
      (noted = true → id ∉ directory.specialAuthorities) := by
  unfold Directory.noteSpecialAuthority at returns
  cases noted with
  | true =>
      obtain ⟨_, absent, returns⟩ := bind_eq_ok.mp returns
      obtain rfl := Except.ok.inj returns
      exact ⟨rfl, fun _ => require_eq_ok.mp absent⟩
  | false =>
      obtain rfl := Except.ok.inj returns
      refine ⟨?_, fun noted => Bool.noConfusion noted⟩
      simp

/-- Where the extensions of a creation mean something, their presence tells
whether the new account has a special authority. -/
theorem AccountCreateOperation.MeansExtensions.has
    {o : AccountCreateOperation K} (meets : o.MeansExtensions) :
    (o.ownerSpecialAuthority.getD .noSpecialAuthority ≠ .noSpecialAuthority ||
        o.activeSpecialAuthority.getD .noSpecialAuthority ≠
          .noSpecialAuthority) =
      (o.ownerSpecialAuthority.isSome || o.activeSpecialAuthority.isSome) := by
  unfold AccountCreateOperation.MeansExtensions at meets
  cases isOwner : o.ownerSpecialAuthority with
  | none =>
      cases isActive : o.activeSpecialAuthority with
      | none => rfl
      | some active =>
          rw [isOwner, isActive] at meets
          rcases meets rfl with ⟨_, impossible, _⟩ | ⟨special, same, differs⟩
          · cases impossible
          · obtain rfl := Option.some.inj same
            simp [differs]
  | some owner =>
      rw [isOwner] at meets
      rcases meets rfl with ⟨special, same, differs⟩ | ⟨special, same, differs⟩
      · obtain rfl := Option.some.inj same
        simp [differs]
      · rw [same]
        simp [differs]

theorem accountCreate_registered [DecidableEq K] {o : AccountCreateOperation K}
    (registered : Registered directory) (meets : o.MeansExtensions)
    (returns : directory.accountCreate world o = .ok after) :
    Registered after := by
  simp only [Directory.accountCreate, bind_eq_ok] at returns
  obtain ⟨_, _, _, _, referrer, _, returns⟩ := returns
  obtain ⟨rfl, _⟩ := noteSpecialAuthority_eq_ok returns
  exact registered.create meets.has

theorem contractDeploy_registered {o : ContractDeployOperation}
    (registered : Registered directory)
    (returns : directory.contractDeploy world o = .ok after) :
    Registered after := by
  simp only [Directory.contractDeploy, bind_eq_ok] at returns
  obtain ⟨_, _, _, _, _, _, _, _, _, _, returns⟩ := returns
  cases returns
  have created :=
    @Registered.create K directory registered (fun obj => { obj with
      registrar := o.account
      referrer := o.account
      lifetimeReferrer := o.account
      name := o.name
      code := o.code
      codeVersion := world.hash o.code
      actions := o.actions }) false rfl
  simp only [Bool.false_eq_true, if_false, List.append_nil] at created
  exact created

theorem contractUpdate_registered {o : ContractUpdateOperation}
    (registered : Registered directory)
    (returns : directory.contractUpdate world o = .ok after) :
    Registered after := by
  simp only [Directory.contractUpdate, bind_eq_ok] at returns
  obtain ⟨_, _, contractObj, _, _, _, _, _, _, _, _, _, _, _, _, _, _, _,
    returns⟩ := returns
  cases returns
  exact registered.modify o.contract fun _ => rfl

theorem maintain_registered (registered : Registered directory)
    (votes : Directory.Votes) : Registered (directory.maintain votes) := by
  have visited : Registered (directory.updateTopNAuthorities votes) := by
    unfold Directory.updateTopNAuthorities
    generalize directory.specialAuthorities = specialAuthorities
    induction specialAuthorities generalizing directory with
    | nil => exact registered
    | cons id rest ih =>
        exact ih (registered.modify id fun _ => rfl)
  have counted :
      Registered
        ((directory.updateTopNAuthorities votes).finishActive
          GRAPHENE_WITNESS_ACCOUNT votes.witnesses) :=
    visited.modify _ fun _ => rfl
  unfold Directory.maintain
  simp only
  split
  · exact counted
  · have committee :=
      @Registered.modify _ _ counted GRAPHENE_COMMITTEE_ACCOUNT
        (fun a => { a with
          active :=
            (VoteCounter.count votes.committeeMembers).finish a.active })
        fun _ => rfl
    split
    · exact committee
    · exact committee.modify _ fun _ => rfl

theorem hasSpecial_modify {id : AccountId} {acnt : AccountObject K}
    (found : directory.find id = some acnt)
    (change : AccountObject K → AccountObject K) (other : AccountId) :
    (directory.modify id change).hasSpecial other =
      if other = id then (change acnt).hasSpecialAuthority
      else directory.hasSpecial other := by
  unfold Directory.hasSpecial
  rw [Directory.find_modify]
  split
  · next same =>
      rw [same, found]
      simp only [Option.map_some, Option.any_some,
        if_pos (Directory.find_id found)]
      rfl
  · next differs =>
      cases otherFound : directory.find other with
      | none => rfl
      | some a =>
          have notId : a.id ≠ id := by
            rw [Directory.find_id otherFound]
            exact differs
          simp only [Option.map_some, Option.any_some, if_neg notId]

section Update

variable {id : AccountId} {acnt : AccountObject K}
  {change : AccountObject K → AccountObject K}

theorem Registered.mem_of_found (registered : Registered directory)
    (found : directory.find id = some acnt) :
    id ∈ directory.specialAuthorities ↔ acnt.hasSpecialAuthority = true := by
  rw [registered.listed id]
  unfold Directory.hasSpecial
  rw [found]
  rfl

theorem Registered.update (registered : Registered directory)
    (found : directory.find id = some acnt)
    (returns :
      (directory.modify id change).updateSpecialAuthority id
          acnt.hasSpecialAuthority (change acnt).hasSpecialAuthority =
        .ok after) : Registered after := by
  have ids_lt :
      ∀ a ∈ (directory.modify id change).accounts,
        a.id < directory.nextId := by
    intro a member
    obtain ⟨b, older, rfl⟩ := List.mem_map.mp member
    have below := registered.ids_lt b older
    split
    · exact below
    · exact below
  have isListed := registered.mem_of_found found
  have isSpecial := hasSpecial_modify found change
  generalize (change acnt).hasSpecialAuthority = now at returns isSpecial
  generalize acnt.hasSpecialAuthority = before at returns isListed
  unfold Directory.updateSpecialAuthority at returns
  split at returns
  · next cleared =>
      obtain ⟨rfl, rfl⟩ : before = true ∧ now = false := by
        simpa using cleared
      cases returns
      refine ⟨ids_lt, registered.nodup.erase id, ?_⟩
      intro other
      change other ∈ directory.specialAuthorities.erase id ↔
        (directory.modify id change).hasSpecial other = true
      rw [isSpecial other, registered.nodup.mem_erase_iff,
        registered.listed other]
      by_cases same : other = id
      · simp [same]
      · simp [same]
  · next notCleared =>
      obtain ⟨rfl, absent⟩ := noteSpecialAuthority_eq_ok returns
      refine ⟨ids_lt, ?_, ?_⟩
      · rw [List.nodup_append]
        refine ⟨registered.nodup, ?_, ?_⟩
        · split
          · exact List.nodup_singleton _
          · exact List.nodup_nil
        · intro listed member other otherMember same
          split at otherMember
          · next isNew =>
              rw [same, List.mem_singleton.mp otherMember] at member
              exact absent isNew member
          · exact absurd otherMember List.not_mem_nil
      · intro other
        change other ∈ directory.specialAuthorities ++ _ ↔
          (directory.modify id change).hasSpecial other = true
        rw [isSpecial other, List.mem_append]
        by_cases same : other = id
        · rw [if_pos same, same, isListed]
          cases before with
          | true =>
              cases now with
              | true => simp
              | false => exact absurd rfl notCleared
          | false =>
              cases now with
              | true => simp
              | false => simp
        · rw [if_neg same, registered.listed other]
          cases before with
          | true => simp
          | false =>
              cases now with
              | true => simp [same]
              | false => simp

/-- An update finds the object that it removes, and the place of the object that
it creates is free. -/
theorem Registered.update_returns (registered : Registered directory)
    (found : directory.find id = some acnt) :
    ∃ after,
      (directory.modify id change).updateSpecialAuthority id
          acnt.hasSpecialAuthority (change acnt).hasSpecialAuthority =
        .ok after := by
  have isListed := registered.mem_of_found found
  generalize (change acnt).hasSpecialAuthority = now
  generalize acnt.hasSpecialAuthority = before at isListed
  unfold Directory.updateSpecialAuthority Directory.noteSpecialAuthority
  split
  · exact ⟨_, rfl⟩
  · split
    · next created =>
        have isNew : before = false := by
          rw [Bool.and_eq_true, Bool.not_eq_true'] at created
          exact created.1
        have absent : id ∉ (directory.modify id change).specialAuthorities := by
          intro member
          have had := isListed.mp member
          rw [isNew] at had
          cases had
        refine ⟨_, bind_eq_ok.mpr ⟨⟨⟩, require_eq_ok.mpr absent, rfl⟩⟩
    · exact ⟨_, rfl⟩

end Update

theorem accountUpdate_registered [DecidableEq K]
    {o : AccountUpdateOperation K} (registered : Registered directory)
    (returns : directory.accountUpdate world o = .ok after) :
    Registered after := by
  simp only [Directory.accountUpdate, bind_eq_ok] at returns
  obtain ⟨_, _, _, _, _, _, _, _, _, _, acnt, found, _, _, returns⟩ := returns
  exact registered.update (orThrow_eq_ok.mp found) returns

/-- The update passes `validate` and `do_evaluate`. -/
structure AccountUpdateOperation.Accepted [DecidableEq K]
    (directory : Directory K) (world : Surroundings)
    (o : AccountUpdateOperation K) : Prop where
  validates : o.validate = .ok ()
  owner :
    validateIfSet (directory.verifyAuthorityAccounts world) o.owner = .ok ()
  active :
    validateIfSet (directory.verifyAuthorityAccounts world) o.active = .ok ()
  ownerSpecial :
    validateIfSet (Directory.evaluateSpecialAuthority world)
      o.ownerSpecialAuthority = .ok ()
  activeSpecial :
    validateIfSet (Directory.evaluateSpecialAuthority world)
      o.activeSpecialAuthority = .ok ()
  exists_account : ∃ acnt, directory.find o.account = some acnt
  options :
    validateIfSet (directory.verifyAccountVotes world) o.newOptions = .ok ()

theorem Registered.accountUpdate_returns [DecidableEq K]
    {o : AccountUpdateOperation K} (registered : Registered directory)
    (accepted : o.Accepted directory world) :
    ∃ after, directory.accountUpdate world o = .ok after := by
  obtain ⟨acnt, found⟩ := accepted.exists_account
  obtain ⟨after, returns⟩ :=
    @Registered.update_returns _ _ _ _ (Directory.applyUpdate o) registered
      found
  refine ⟨after, ?_⟩
  simp only [Directory.accountUpdate, bind_eq_ok]
  exact ⟨⟨⟩, accepted.validates, ⟨⟩, accepted.owner, ⟨⟩, accepted.active, ⟨⟩,
    accepted.ownerSpecial, ⟨⟩, accepted.activeSpecial, acnt,
    orThrow_eq_ok.mpr found, ⟨⟩, accepted.options, returns⟩

theorem SpecialRun.registered [DecidableEq K] {numSpecialAccounts : Nat}
    (run :
      SpecialRun numSpecialAccounts AccountCreateOperation.MeansExtensions
        directory) : Registered directory := by
  induction run with
  | genesis => exact Registered.genesis numSpecialAccounts
  | accountCreate _ _ _ meets returns ih =>
      exact accountCreate_registered ih meets returns
  | accountUpdate _ _ _ returns ih =>
      exact accountUpdate_registered ih returns
  | contractDeploy _ _ _ returns ih =>
      exact contractDeploy_registered ih returns
  | contractUpdate _ _ _ returns ih =>
      exact contractUpdate_registered ih returns
  | maintain votes _ ih =>
      exact maintain_registered ih votes

/-- In every run whose creations have no meaningless extensions, exactly the
accounts with a special authority are registered, once each, and every accepted
update can be applied. -/
theorem special_authorities_registered [DecidableEq K]
    {numSpecialAccounts : Nat}
    (run :
      SpecialRun numSpecialAccounts AccountCreateOperation.MeansExtensions
        directory) :
    (∀ id, directory.specialAuthorities.count id =
      if directory.hasSpecial id then 1 else 0) ∧
    ∀ (world : Surroundings) (o : AccountUpdateOperation K),
      o.Accepted directory world →
        ∃ after, directory.accountUpdate world o = .ok after :=
  ⟨run.registered.count, fun _ _ accepted =>
    run.registered.accountUpdate_returns accepted⟩

end Registry

section Sample

def assetWorld : Surroundings :=
  { openWorld with assetIssuer := fun _ => some (0, false) }

def oneKey : Authority Nat :=
  ⟨1, [], [(7, 1)]⟩

/-- The witness account's registration of a new account, with an extension. -/
def registration (ownerSpecial : Option SpecialAuthority) :
    AccountCreateOperation Nat where
  fee := 0
  registrar := 1
  referrer := 1
  referrerPercent := 0
  name := ['b', 'o', 'a', 'r', 'd']
  owner := oneKey
  active := oneKey
  options := (AccountObject.fresh 0 : AccountObject Nat).options
  ownerSpecialAuthority := ownerSpecial
  activeSpecialAuthority := none
  buybackOptions := none

def takeOver : AccountUpdateOperation Nat where
  fee := 0
  account := 6
  owner := none
  active := none
  newOptions := none
  ownerSpecialAuthority := some (.topHoldersSpecialAuthority 1 1)
  activeSpecialAuthority := none

def afterRegistration (ownerSpecial : Option SpecialAuthority) :
    Directory Nat :=
  match (Directory.genesis 0).accountCreate assetWorld
      (registration ownerSpecial) with
  | .ok after => after
  | .error _ => .genesis 0

theorem takeOver_accepted (ownerSpecial : Option SpecialAuthority)
    (exists_account :
      ∃ acnt, (afterRegistration ownerSpecial).find 6 = some acnt) :
    takeOver.Accepted (afterRegistration ownerSpecial) assetWorld where
  validates := by decide
  owner := rfl
  active := rfl
  ownerSpecial := by decide
  activeSpecial := rfl
  exists_account := exists_account
  options := rfl

theorem special_authorities_registered_board :
    (afterRegistration none).specialAuthorities.count 6 = 0 ∧
      ∃ after,
        (afterRegistration none).accountUpdate assetWorld takeOver =
          .ok after := by
  have run :
      SpecialRun 0 AccountCreateOperation.MeansExtensions
        (afterRegistration none) :=
    .accountCreate assetWorld (registration none) .genesis
      (fun present => Bool.noConfusion present) (by decide)
  refine ⟨by decide, ?_⟩
  exact (special_authorities_registered run).2 assetWorld takeOver
    (takeOver_accepted none ⟨_, rfl⟩)

/-- An account that is created with an explicit `no_special_authority` is
registered without having a special authority, and then it cannot be given
one. -/
theorem special_authority_refused :
    SpecialRun 0 (fun _ => True)
        (afterRegistration (some .noSpecialAuthority)) ∧
    (afterRegistration (some .noSpecialAuthority)).hasSpecial 6 = false ∧
    (afterRegistration
      (some .noSpecialAuthority)).specialAuthorities.count 6 = 1 ∧
    takeOver.Accepted (afterRegistration (some .noSpecialAuthority))
      assetWorld ∧
    (afterRegistration (some .noSpecialAuthority)).accountUpdate assetWorld
        takeOver =
      .error (.assertion
        "Could not create object! Most likely a uniqueness constraint is violated.") := by
  refine ⟨?_, by decide, by decide, takeOver_accepted _ ⟨_, rfl⟩, by decide⟩
  exact .accountCreate assetWorld (registration (some .noSpecialAuthority))
    .genesis trivial (by decide)

end Sample

end GxbCore.Protocol
