import GxbCore.Lib.Fallible
import GxbCore.Protocol.Authority

/-!
# The authorities of accounts

The steps that create an account or write its authorities: `account_create`,
`account_update`, `contract_deploy`, `contract_update`, and the maintenance
that hands the special accounts to those who were voted for.  No other step of
the chain writes them, and accounts are not removed.

What a step reads of the rest of the database is its `Surroundings`.  Fees and
referral percentages are left out; they decide nothing here.
-/

namespace GxbCore.Protocol

abbrev AssetId := Nat

/-- `time_point_sec` -/
abbrev Time := UInt32

def GRAPHENE_WITNESS_ACCOUNT : AccountId :=
  1

def GRAPHENE_RELAXED_COMMITTEE_ACCOUNT : AccountId :=
  2

def GRAPHENE_NULL_ACCOUNT : AccountId :=
  3

def GRAPHENE_PROXY_TO_SELF_ACCOUNT : AccountId :=
  5

def HARDFORK_538_TIME : Time :=
  1456250400

def HARDFORK_1006_TIME : Time :=
  1534759200

def HARDFORK_1015_TIME : Time :=
  1546084800

def HARDFORK_1024_TIME : Time :=
  1585281600

def GRAPHENE_100_PERCENT : UInt16 :=
  10000

def GRAPHENE_DEFAULT_MAX_BUYBACK_MARKETS : Nat :=
  4

def GRAPHENE_MIN_ACCOUNT_NAME_LENGTH : Nat :=
  1

def GRAPHENE_MAX_ACCOUNT_NAME_LENGTH : Nat :=
  63

/-- A failed assertion with its text, or an object that is not there. -/
inductive AccountFault where
  | assertion (message : String)
  | notFound
  deriving DecidableEq, Repr

/-- `FC_ASSERT` -/
def accountAssert (condition : Prop) [Decidable condition]
    (message : String) : Except AccountFault Unit :=
  require condition (.assertion message)

section Authorities

variable {K : Type}

namespace Authority

/-- The authority that `authority()` constructs. -/
def unset : Authority K where
  weightThreshold := 0
  accountAuths := []
  keyAuths := []

def numAuths (auth : Authority K) : Nat :=
  auth.accountAuths.length + auth.keyAuths.length

def isImpossible (auth : Authority K) : Bool :=
  (auth.accountAuths.map (·.2.toNat)).sum + (auth.keyAuths.map (·.2.toNat)).sum
    < auth.weightThreshold.toNat

def nullAuthority : Authority K where
  weightThreshold := 1
  accountAuths := [(GRAPHENE_NULL_ACCOUNT, 1)]
  keyAuths := []

/-- `account_auths[who] = weight` -/
def addAuthority (auth : Authority K) (who : AccountId) (weight : UInt16) :
    Authority K :=
  { auth with
    accountAuths :=
      (who, weight) :: auth.accountAuths.filter fun entry => entry.1 ≠ who }

end Authority

inductive SpecialAuthority where
  | noSpecialAuthority
  | topHoldersSpecialAuthority (asset : AssetId) (numTopHolders : UInt8)
  deriving DecidableEq, Repr

/-- `validate_special_authority` -/
def SpecialAuthority.validate :
    SpecialAuthority → Except AccountFault Unit
  | .noSpecialAuthority => .ok ()
  | .topHoldersSpecialAuthority _ numTopHolders =>
      accountAssert (numTopHolders > 0) ""

/-- `vote_counter`; the shift is `none` before the first vote. -/
structure VoteCounter (K : Type) where
  totalVotes : UInt64
  bitshift : Option Nat
  auth : Authority K

namespace VoteCounter

def empty : VoteCounter K where
  totalVotes := 0
  bitshift := none
  auth := .unset

/-- `add`: the first vote, the largest, decides how votes become weights. -/
def add (vc : VoteCounter K) (who : AccountId) (votes : UInt64) :
    VoteCounter K :=
  if votes = 0 then
    vc
  else
    let bitshift := vc.bitshift.getD (votes.toNat.log2 - 15)
    let scaledVotes := max (votes.toNat / 2 ^ bitshift) 1
    { totalVotes := vc.totalVotes + UInt64.ofNat scaledVotes
      bitshift := some bitshift
      auth := vc.auth.addAuthority who (UInt16.ofNat scaledVotes) }

/-- `finish`: what is written over the authority. -/
def finish (vc : VoteCounter K) (outAuth : Authority K) : Authority K :=
  if vc.totalVotes = 0 then
    outAuth
  else
    let weight := vc.totalVotes.toUInt32
    { vc.auth with weightThreshold := (weight >>> 1) + 1 }

def count (votes : List (AccountId × UInt64)) : VoteCounter K :=
  votes.foldl (fun vc vote => vc.add vote.1 vote.2) empty

end VoteCounter

end Authorities

def isLetter (c : Char) : Bool :=
  'a' ≤ c && c ≤ 'z'

def isDigit (c : Char) : Bool :=
  '0' ≤ c && c ≤ '9'

/-- One part of a name: a letter first, no hyphen last. -/
def isValidLabel : List Char → Bool
  | [] => false
  | [only] => isLetter only
  | first :: second :: rest =>
      isLetter first &&
        (second :: rest).dropLast.all
          (fun c => isLetter c || isDigit c || c == '-') &&
        ((second :: rest).getLast?.any fun c => isLetter c || isDigit c)

def isValidName (name : List Char) : Bool :=
  decide (GRAPHENE_MIN_ACCOUNT_NAME_LENGTH ≤ name.length) &&
    decide (name.length ≤ GRAPHENE_MAX_ACCOUNT_NAME_LENGTH) &&
    (name.splitOn '.').all isValidLabel

/-- `account_options`; a vote is the type (witness, committee) and the
instance of a `vote_id_type`. -/
structure AccountOptions (K : Type) where
  memoKey : Option K
  votingAccount : AccountId
  numWitness : UInt16
  numCommittee : UInt16
  votes : List (Nat × Nat)
  deriving DecidableEq, Repr

def voteTypeCommittee : Nat :=
  0

def voteTypeWitness : Nat :=
  1

/-- `account_options::validate` -/
def AccountOptions.validate {K : Type} (options : AccountOptions K) :
    Except AccountFault Unit := do
  accountAssert
    (options.numWitness.toNat ≤
      options.votes.countP fun vote => vote.1 == voteTypeWitness)
    "May not specify fewer witnesses than the number voted for."
  accountAssert
    (options.numCommittee.toNat ≤
      options.votes.countP fun vote => vote.1 == voteTypeCommittee)
    "May not specify fewer committee members than the number voted for."

/-- `account_object`; `actions` are the names of the actions of its `abi`. -/
structure AccountObject (K : Type) where
  id : AccountId
  name : List Char
  registrar : AccountId
  referrer : AccountId
  lifetimeReferrer : AccountId
  membershipExpirationDate : Time
  owner : Authority K
  active : Authority K
  options : AccountOptions K
  ownerSpecialAuthority : SpecialAuthority
  activeSpecialAuthority : SpecialAuthority
  code : List UInt8
  codeVersion : Nat
  actions : List String
  deriving DecidableEq, Repr

namespace AccountObject

variable {K : Type}

/-- `is_lifetime_member`: the expiration date is `time_point_sec::maximum()`. -/
def isLifetimeMember (a : AccountObject K) : Bool :=
  a.membershipExpirationDate = 0xffffffff

def isMember (a : AccountObject K) (now : Time) : Bool :=
  !decide (now > a.membershipExpirationDate)

def hasSpecialAuthority (a : AccountObject K) : Bool :=
  a.ownerSpecialAuthority ≠ .noSpecialAuthority ||
    a.activeSpecialAuthority ≠ .noSpecialAuthority

/-- What `account_object` holds before the lambda of `create` runs. -/
def fresh (id : AccountId) : AccountObject K where
  id := id
  name := []
  registrar := 0
  referrer := 0
  lifetimeReferrer := 0
  membershipExpirationDate := 0
  owner := .unset
  active := .unset
  options := {
    memoKey := none
    votingAccount := GRAPHENE_PROXY_TO_SELF_ACCOUNT
    numWitness := 0
    numCommittee := 0
    votes := [] }
  ownerSpecialAuthority := .noSpecialAuthority
  activeSpecialAuthority := .noSpecialAuthority
  code := []
  codeVersion := 0
  actions := []

end AccountObject

structure BuybackAccountOptions where
  assetToBuy : AssetId
  assetToBuyIssuer : AccountId
  markets : List AssetId
  deriving DecidableEq, Repr

structure AccountCreateOperation (K : Type) where
  fee : Int
  registrar : AccountId
  referrer : AccountId
  referrerPercent : UInt16
  name : List Char
  owner : Authority K
  active : Authority K
  options : AccountOptions K
  ownerSpecialAuthority : Option SpecialAuthority
  activeSpecialAuthority : Option SpecialAuthority
  buybackOptions : Option BuybackAccountOptions
  deriving DecidableEq, Repr

structure AccountUpdateOperation (K : Type) where
  fee : Int
  account : AccountId
  owner : Option (Authority K)
  active : Option (Authority K)
  newOptions : Option (AccountOptions K)
  ownerSpecialAuthority : Option SpecialAuthority
  activeSpecialAuthority : Option SpecialAuthority
  deriving DecidableEq, Repr

structure ContractDeployOperation where
  fee : Int
  name : List Char
  account : AccountId
  code : List UInt8
  actions : List String
  deriving DecidableEq, Repr

structure ContractUpdateOperation where
  fee : Int
  owner : AccountId
  newOwner : Option AccountId
  contract : AccountId
  code : List UInt8
  actions : List String
  deriving DecidableEq, Repr

section Validate

variable {K : Type} [DecidableEq K]

/-- The checks of one authority in `account_create_operation::validate`. -/
def validateAuthority (auth : Authority K) (impossible : String) :
    Except AccountFault Unit := do
  accountAssert (auth.numAuths ≠ 0) ""
  accountAssert (auth.isImpossible = false) impossible

/-- `validate` on an optional member. -/
def validateIfSet {α : Type} (validate : α → Except AccountFault Unit) :
    Option α → Except AccountFault Unit
  | none => .ok ()
  | some value => validate value

/-- The checks of `buyback_options` in `account_create_operation::validate`. -/
def AccountCreateOperation.validateBuyback (o : AccountCreateOperation K)
    (buyback : BuybackAccountOptions) : Except AccountFault Unit := do
  accountAssert (o.ownerSpecialAuthority = none) ""
  accountAssert (o.activeSpecialAuthority = none) ""
  accountAssert (o.owner = .nullAuthority) ""
  accountAssert (o.active = .nullAuthority) ""
  accountAssert (0 < buyback.markets.length) ""
  accountAssert (∀ m ∈ buyback.markets, m ≠ buyback.assetToBuy) ""

/-- `account_create_operation::validate` -/
def AccountCreateOperation.validate (o : AccountCreateOperation K) :
    Except AccountFault Unit := do
  accountAssert (0 ≤ o.fee) ""
  accountAssert (isValidName o.name) ""
  accountAssert (o.referrerPercent ≤ GRAPHENE_100_PERCENT) ""
  validateAuthority o.owner
    "cannot create an account with an imposible owner authority threshold"
  validateAuthority o.active
    "cannot create an account with an imposible active authority threshold"
  o.options.validate
  validateIfSet SpecialAuthority.validate o.ownerSpecialAuthority
  validateIfSet SpecialAuthority.validate o.activeSpecialAuthority
  validateIfSet o.validateBuyback o.buybackOptions

/-- `account_update_operation::validate` -/
def AccountUpdateOperation.validate (o : AccountUpdateOperation K) :
    Except AccountFault Unit := do
  accountAssert (o.account ≠ GRAPHENE_TEMP_ACCOUNT) ""
  accountAssert (0 ≤ o.fee) ""
  accountAssert (o.account ≠ GRAPHENE_COMMITTEE_ACCOUNT) ""
  accountAssert
    (o.owner.isSome ∨ o.active.isSome ∨ o.newOptions.isSome ∨
      o.ownerSpecialAuthority.isSome ∨ o.activeSpecialAuthority.isSome) ""
  validateIfSet (fun auth => validateAuthority auth
    "cannot update an account with an imposible owner authority threshold")
    o.owner
  validateIfSet (fun auth => validateAuthority auth
    "cannot update an account with an imposible active authority threshold")
    o.active
  validateIfSet AccountOptions.validate o.newOptions
  validateIfSet SpecialAuthority.validate o.ownerSpecialAuthority
  validateIfSet SpecialAuthority.validate o.activeSpecialAuthority

/-- `contract_deploy_operation::validate` -/
def ContractDeployOperation.validate (o : ContractDeployOperation) :
    Except AccountFault Unit := do
  accountAssert (0 ≤ o.fee) "fee.amount < 0"
  accountAssert (isValidName o.name) "contract name is invalid"
  accountAssert (0 < o.code.length) "contract code cannot be empty"

/-- `contract_update_operation::validate` -/
def ContractUpdateOperation.validate (o : ContractUpdateOperation) :
    Except AccountFault Unit := do
  accountAssert (0 ≤ o.fee) "fee.amount < 0"
  accountAssert (0 < o.code.length) "contract code cannot be empty"

end Validate

/-- The operations above, and a transfer, the plainest of those that take from
the account that pays the fee. -/
inductive Operation (K : Type) where
  | transfer (source target : AccountId) (amount : Int)
  | accountCreate (o : AccountCreateOperation K)
  | accountUpdate (o : AccountUpdateOperation K)
  | contractDeploy (o : ContractDeployOperation)
  | contractUpdate (o : ContractUpdateOperation)

def AccountUpdateOperation.isOwnerUpdate {K : Type}
    (o : AccountUpdateOperation K) : Bool :=
  o.owner.isSome || o.ownerSpecialAuthority.isSome

/-- `operation_get_required_authorities` -/
def Operation.requires {K : Type} : Operation K → Required K
  | .transfer source _ _ => ⟨[source], [], []⟩
  | .accountCreate o =>
      ⟨o.registrar :: (o.buybackOptions.map (·.assetToBuyIssuer)).toList,
        [], []⟩
  | .accountUpdate o =>
      ⟨[o.account], if o.isOwnerUpdate then [o.account] else [], []⟩
  | .contractDeploy o => ⟨[o.account], [], []⟩
  | .contractUpdate o => ⟨[o.owner], [], []⟩

/-- What the evaluators read of the rest of the database, with the validation
and the hash of code that they call. -/
structure Surroundings where
  headBlockTime : Time
  maximumAuthorityMembership : UInt16
  maximumWitnessCount : UInt16
  maximumCommitteeCount : UInt16
  nextAvailableVoteId : Nat
  /-- the issuer of an asset, and whether it has a buyback account -/
  assetIssuer : AssetId → Option (AccountId × Bool)
  wasmValid : List UInt8 → Bool
  hash : List UInt8 → Nat

/-- The accounts, the next id, and the accounts that have a
`special_authority_object`. -/
structure Directory (K : Type) where
  accounts : List (AccountObject K)
  nextId : AccountId
  specialAuthorities : List AccountId
  deriving DecidableEq

namespace Directory

variable {K : Type}

/-- `account_id_type::operator()(db)` -/
def find (directory : Directory K) (id : AccountId) :
    Option (AccountObject K) :=
  directory.accounts.find? fun a => a.id == id

def get (directory : Directory K) (id : AccountId) :
    Except AccountFault (AccountObject K) :=
  orThrow (directory.find id) .notFound

/-- `modify`; the lambda does not touch the id. -/
def modify (directory : Directory K) (id : AccountId)
    (change : AccountObject K → AccountObject K) : Directory K :=
  { directory with
    accounts := directory.accounts.map fun a =>
      if a.id = id then { change a with id := a.id } else a }

def create (directory : Directory K)
    (construct : AccountObject K → AccountObject K) : Directory K :=
  { directory with
    accounts := directory.accounts ++
      [{ construct (.fresh directory.nextId) with id := directory.nextId }]
    nextId := directory.nextId + 1 }

def verifyAuthorityAccounts (directory : Directory K) (world : Surroundings)
    (auth : Authority K) : Except AccountFault Unit := do
  accountAssert (auth.numAuths ≤ world.maximumAuthorityMembership.toNat)
    "Maximum authority membership exceeded"
  accountAssert
    (∀ entry ∈ auth.accountAuths, (directory.find entry.1).isSome)
    "Account ${a} specified in authority does not exist"

def verifyAccountVotes (directory : Directory K) (world : Surroundings)
    (options : AccountOptions K) : Except AccountFault Unit := do
  accountAssert (options.numWitness ≤ world.maximumWitnessCount)
    "Voted for more witnesses than currently allowed (${c})"
  accountAssert (options.numCommittee ≤ world.maximumCommitteeCount)
    "Voted for more committee members than currently allowed (${c})"
  accountAssert ((directory.find options.votingAccount).isSome)
    "Invalid proxy account specified."
  accountAssert (∀ vote ∈ options.votes, vote.2 < world.nextAvailableVoteId)
    "assert ${a} < ${b} failed"

def evaluateSpecialAuthority (world : Surroundings) :
    SpecialAuthority → Except AccountFault Unit
  | .noSpecialAuthority => .ok ()
  | .topHoldersSpecialAuthority asset _ =>
      accountAssert ((world.assetIssuer asset).isSome) ""

def evaluateBuybackAccountOptions (world : Surroundings)
    (buyback : BuybackAccountOptions) : Except AccountFault Unit := do
  accountAssert (world.headBlockTime ≥ HARDFORK_538_TIME) ""
  let (issuer, hasBuyback) ←
    orThrow (world.assetIssuer buyback.assetToBuy) .notFound
  accountAssert (issuer = buyback.assetToBuyIssuer)
    "Incorrect asset issuer specified in buyback_account_options"
  accountAssert (hasBuyback = false)
    "Cannot create buyback for asset which already has buyback"
  accountAssert
    (buyback.markets.length < GRAPHENE_DEFAULT_MAX_BUYBACK_MARKETS)
    "Too many buyback markets"

/-- `account_create_evaluator::do_evaluate` -/
def evaluateAccountCreate (directory : Directory K) (world : Surroundings)
    (o : AccountCreateOperation K) : Except AccountFault Unit := do
  let feePayingAccount ← directory.get o.registrar
  accountAssert feePayingAccount.isLifetimeMember
    "Only Lifetime members may register an account."
  let referrer ← directory.get o.referrer
  accountAssert (referrer.isMember world.headBlockTime)
    "The referrer must be either a lifetime or annual subscriber."
  directory.verifyAuthorityAccounts world o.owner
  directory.verifyAuthorityAccounts world o.active
  validateIfSet (evaluateSpecialAuthority world) o.ownerSpecialAuthority
  validateIfSet (evaluateSpecialAuthority world) o.activeSpecialAuthority
  validateIfSet (evaluateBuybackAccountOptions world) o.buybackOptions
  directory.verifyAccountVotes world o.options
  accountAssert (∀ a ∈ directory.accounts, a.name ≠ o.name) ""

/-- Create the `special_authority_object` of the account, if it is to have one;
their index by account is unique. -/
def noteSpecialAuthority (directory : Directory K)
    (id : AccountId) (noted : Bool) : Except AccountFault (Directory K) :=
  if noted then do
    accountAssert (id ∉ directory.specialAuthorities)
      "Could not create object! Most likely a uniqueness constraint is violated."
    return { directory with
      specialAuthorities := directory.specialAuthorities ++ [id] }
  else
    .ok directory

/-- `account_create_evaluator` -/
def accountCreate [DecidableEq K] (directory : Directory K)
    (world : Surroundings) (o : AccountCreateOperation K) :
    Except AccountFault (Directory K) := do
  o.validate
  directory.evaluateAccountCreate world o
  let referrer ← directory.get o.referrer
  let created := directory.create fun obj => { obj with
    registrar := o.registrar
    referrer := o.referrer
    lifetimeReferrer := referrer.lifetimeReferrer
    name := o.name
    owner := o.owner
    active := o.active
    options := o.options
    ownerSpecialAuthority :=
      o.ownerSpecialAuthority.getD obj.ownerSpecialAuthority
    activeSpecialAuthority :=
      o.activeSpecialAuthority.getD obj.activeSpecialAuthority }
  created.noteSpecialAuthority directory.nextId
    (o.ownerSpecialAuthority.isSome || o.activeSpecialAuthority.isSome)

/-- The lambda of `account_update_evaluator::do_apply`. -/
def applyUpdate (o : AccountUpdateOperation K) (a : AccountObject K) :
    AccountObject K :=
  { a with
    owner := o.owner.getD a.owner
    active := o.active.getD a.active
    options := o.newOptions.getD a.options
    ownerSpecialAuthority :=
      o.ownerSpecialAuthority.getD a.ownerSpecialAuthority
    activeSpecialAuthority :=
      o.activeSpecialAuthority.getD a.activeSpecialAuthority }

/-- The `special_authority_object` after `account_update`. -/
def updateSpecialAuthority (directory : Directory K) (id : AccountId)
    (before after : Bool) : Except AccountFault (Directory K) :=
  if before && !after then
    .ok { directory with
      specialAuthorities := directory.specialAuthorities.erase id }
  else
    directory.noteSpecialAuthority id (!before && after)

/-- `account_update_evaluator` -/
def accountUpdate [DecidableEq K] (directory : Directory K)
    (world : Surroundings) (o : AccountUpdateOperation K) :
    Except AccountFault (Directory K) := do
  o.validate
  validateIfSet (directory.verifyAuthorityAccounts world) o.owner
  validateIfSet (directory.verifyAuthorityAccounts world) o.active
  validateIfSet (evaluateSpecialAuthority world) o.ownerSpecialAuthority
  validateIfSet (evaluateSpecialAuthority world) o.activeSpecialAuthority
  let acnt ← directory.get o.account
  validateIfSet (directory.verifyAccountVotes world) o.newOptions
  (directory.modify o.account (applyUpdate o)).updateSpecialAuthority
    o.account acnt.hasSpecialAuthority (applyUpdate o acnt).hasSpecialAuthority

/-- `contract_deploy_evaluator`: the authorities are not mentioned. -/
def contractDeploy (directory : Directory K) (world : Surroundings)
    (o : ContractDeployOperation) : Except AccountFault (Directory K) := do
  o.validate
  accountAssert (∀ a ∈ directory.accounts, a.name ≠ o.name)
    "contract name existed, contract name ${n}"
  accountAssert (0 < o.code.length) "contract code cannot be empty"
  accountAssert (0 < o.actions.length) "contract has no actions"
  accountAssert
    (world.headBlockTime > HARDFORK_1006_TIME → world.wasmValid o.code) ""
  return directory.create fun obj => { obj with
    registrar := o.account
    referrer := o.account
    lifetimeReferrer := o.account
    name := o.name
    code := o.code
    codeVersion := world.hash o.code
    actions := o.actions }

/-- The lambda of `contract_update_evaluator::do_apply`. -/
def applyContractUpdate (world : Surroundings) (o : ContractUpdateOperation)
    (a : AccountObject K) : AccountObject K :=
  { a with
    registrar := o.newOwner.getD a.registrar
    referrer := o.newOwner.getD a.referrer
    lifetimeReferrer := o.newOwner.getD a.lifetimeReferrer
    code := o.code
    codeVersion := world.hash o.code
    actions := o.actions }

/-- `contract_update_evaluator` -/
def contractUpdate (directory : Directory K) (world : Surroundings)
    (o : ContractUpdateOperation) : Except AccountFault (Directory K) := do
  o.validate
  let contractObj ← directory.get o.contract
  accountAssert (o.owner = contractObj.registrar)
    "only owner can update contract, current owner: ${o}"
  accountAssert
    (world.headBlockTime > HARDFORK_1015_TIME → 0 < contractObj.code.length)
    "can not update a normal account: ${a}"
  accountAssert
    (world.headBlockTime < HARDFORK_1024_TIME →
      world.hash o.code ≠ contractObj.codeVersion)
    "code not updated"
  accountAssert (0 < o.code.length) "contract code cannot be empty"
  accountAssert (world.wasmValid o.code) ""
  accountAssert (0 < o.actions.length) "contract has no actions"
  accountAssert (∀ id ∈ o.newOwner, (directory.find id).isSome)
    "new owner not exist"
  return directory.modify o.contract (applyContractUpdate world o)

/-- What the maintenance of one interval counts: the votes of the active
witnesses and of the committee members, and the holders of an asset, the
largest first. -/
structure Votes where
  witnesses : List (AccountId × UInt64)
  committeeMembers : List (AccountId × UInt64)
  holders : AssetId → List (AccountId × UInt64)

/-- The authority after `update_top_n_authorities` on one special authority. -/
def topHoldersAuthority (votes : Votes) (acct : AccountId)
    (special : SpecialAuthority) (auth : Authority K) : Authority K :=
  match special with
  | .noSpecialAuthority => auth
  | .topHoldersSpecialAuthority asset numTopHolders =>
      (VoteCounter.count
        (((votes.holders asset).filter fun vote => vote.1 ≠ acct).take
          numTopHolders.toNat)).finish auth

/-- The two visits of `visit_special_authorities` on one account. -/
def applyTopHolders (votes : Votes) (a : AccountObject K) : AccountObject K :=
  { a with
    owner := topHoldersAuthority votes a.id a.ownerSpecialAuthority a.owner
    active :=
      topHoldersAuthority votes a.id a.activeSpecialAuthority a.active }

def updateTopNAuthorities (directory : Directory K) (votes : Votes) :
    Directory K :=
  directory.specialAuthorities.foldl
    (fun directory id => directory.modify id (applyTopHolders votes))
    directory

/-- `vc.finish(a.active)` on a special account. -/
def finishActive (directory : Directory K) (id : AccountId)
    (votes : List (AccountId × UInt64)) : Directory K :=
  directory.modify id fun a =>
    { a with active := (VoteCounter.count votes).finish a.active }

/-- The authorities that `perform_chain_maintenance` writes. -/
def maintain (directory : Directory K) (votes : Votes) : Directory K :=
  let directory := directory.updateTopNAuthorities votes
  let directory :=
    directory.finishActive GRAPHENE_WITNESS_ACCOUNT votes.witnesses
  if votes.committeeMembers = [] then
    directory
  else
    let directory :=
      directory.finishActive GRAPHENE_COMMITTEE_ACCOUNT votes.committeeMembers
    match directory.find GRAPHENE_COMMITTEE_ACCOUNT with
    | none => directory
    | some committee =>
        directory.modify GRAPHENE_RELAXED_COMMITTEE_ACCOUNT fun a =>
          { a with active := committee.active }

/-- The special accounts that `init_genesis` creates. -/
def specialAccount (id : AccountId) (name : String)
    (weightThreshold : UInt32) : AccountObject K :=
  { AccountObject.fresh id with
    name := name.toList
    registrar := id
    referrer := id
    lifetimeReferrer := id
    membershipExpirationDate := 0xffffffff
    owner := { Authority.unset with weightThreshold := weightThreshold }
    active := { Authority.unset with weightThreshold := weightThreshold } }

/-- The accounts after `init_genesis`; those up to `numSpecialAccounts` are
created and removed again. -/
def genesis (numSpecialAccounts : Nat) : Directory K where
  accounts := [
    { specialAccount 0 "committee-account" 1 with },
    { specialAccount 1 "witness-account" 1 with },
    { specialAccount 2 "relaxed-committee-account" 1 with },
    { specialAccount 3 "null-account" 1 with },
    { specialAccount 4 "temp-account" 0 with },
    { specialAccount 5 "proxy-to-self" 1 with
      registrar := GRAPHENE_NULL_ACCOUNT
      referrer := GRAPHENE_NULL_ACCOUNT
      lifetimeReferrer := GRAPHENE_NULL_ACCOUNT } ]
  nextId := max 6 numSpecialAccounts
  specialAuthorities := []

end Directory

end GxbCore.Protocol
