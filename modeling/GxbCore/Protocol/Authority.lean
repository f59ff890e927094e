import GxbCore.Lib.Outcome
import GxbCore.Lib.Weigh

/-!
# verify_authority

An authority is met when the keys that signed and the accounts that approve
together reach its threshold; an account approves when it was approved before,
or when its active authority is met in turn.  The search walks the graph of
accounts to a fixed depth, remembers the accounts that were found to approve,
and marks the keys that it used.

The containers are lists in any order.  `address_auths` are left out: they are
kept for compatibility, and what follows is about authorities without them.
-/

namespace GxbCore.Protocol

abbrev AccountId := Nat

def GRAPHENE_COMMITTEE_ACCOUNT : AccountId :=
  0

def GRAPHENE_TEMP_ACCOUNT : AccountId :=
  4

structure Authority (K : Type) where
  weightThreshold : UInt32
  accountAuths : List (AccountId × UInt16)
  keyAuths : List (K × UInt16)
  deriving DecidableEq, Repr

/-- `sign_state`: which of the keys were used, `none` for a key that did not
sign, and the accounts that approve. -/
structure SignState (K : Type) where
  providedSignatures : K → Option Bool
  approvedBy : List AccountId

/-- The exceptions of `verify_authority`. -/
inductive AuthorityFault (K : Type) where
  | invalidCommitteeApproval
  | missingOtherAuth (auth : Authority K)
  | missingActiveAuth (id : AccountId)
  | missingOwnerAuth (id : AccountId)
  | irrelevantSig
  deriving DecidableEq, Repr

section Check

variable {K : Type} [DecidableEq K]

/-- What a `sign_state` has references to. -/
structure SignContext (K : Type) where
  getActive : AccountId → Option (Authority K)
  availableKeys : List K

/-- `provided_signatures[key] = true` -/
def SignState.use (key : K) (state : SignState K) : SignState K :=
  { state with
    providedSignatures := fun other =>
      if other = key then some true
      else state.providedSignatures other }

def signedBy (context : SignContext K) (key : K) (state : SignState K) :
    Bool × SignState K :=
  match state.providedSignatures key with
  | some _ => (true, state.use key)
  | none =>
      if key ∈ context.availableKeys then (true, state.use key)
      else (false, state)

/-- The loop body over `account_auths`; `below` checks the active authority of
an account, unless the depth is used up. -/
def checkAccount
    (below : Option (AccountId → SignState K → Bool × SignState K))
    (account : AccountId) (state : SignState K) : Bool × SignState K :=
  if account ∈ state.approvedBy then
    (true, state)
  else
    match below with
    | none => (false, state)
    | some check =>
        match check account state with
        | (true, state) =>
            (true,
              { state with approvedBy := account :: state.approvedBy })
        | (false, state) => (false, state)

/-- The two loops of `check_authority`. -/
def checkEntries (context : SignContext K) (auth : Authority K)
    (below : Option (AccountId → SignState K → Bool × SignState K))
    (state : SignState K) : Bool × SignState K :=
  let keys :=
    weigh (signedBy context) auth.weightThreshold auth.keyAuths 0 state
  if keys.met then
    (true, keys.state)
  else
    let accounts :=
      weigh (checkAccount below) auth.weightThreshold auth.accountAuths
        keys.total keys.state
    if accounts.met then
      (true, accounts.state)
    else
      (decide (auth.weightThreshold ≤ accounts.total), accounts.state)

/-- `check_authority`; the number is what is left of `max_recursion`. -/
def checkAuthority (context : SignContext K) :
    Nat → Option (Authority K) → SignState K → Bool × SignState K
  | _, none, state => (false, state)
  | 0, some auth, state => checkEntries context auth none state
  | remaining + 1, some auth, state =>
      checkEntries context auth
        (some fun account =>
          checkAuthority context remaining (context.getActive account))
        state

/-- `check_authority` of an account. -/
def checkAccountAuthority (context : SignContext K) (maxRecursion : Nat)
    (account : AccountId) (state : SignState K) : Bool × SignState K :=
  if account ∈ state.approvedBy then
    (true, state)
  else
    checkAuthority context maxRecursion (context.getActive account) state

end Check

/-- The sets that `operation_get_required_authorities` fills. -/
structure Required (K : Type) where
  active : List AccountId
  owner : List AccountId
  other : List (Authority K)

def Required.add {K : Type} (required more : Required K) : Required K where
  active := more.active.foldl (fun set id => set.insert id) required.active
  owner := more.owner.foldl (fun set id => set.insert id) required.owner
  other := required.other ++ more.other

/-- What all operations require; `requires` is
`operation_get_required_authorities` on an empty set. -/
def getRequiredAuthorities {K Op : Type} (requires : Op → Required K)
    (ops : List Op) : Required K :=
  ops.foldl (fun required op => required.add (requires op)) ⟨[], [], []⟩

section Verify

variable {K : Type} [DecidableEq K]

/-- The arguments of `verify_authority` after the operations. -/
structure Signatures (K : Type) where
  sigs : List K
  getActive : AccountId → Option (Authority K)
  getOwner : AccountId → Option (Authority K)
  maxRecursionDepth : Nat
  allowCommittee : Bool
  activeApprovals : List AccountId
  ownerApprovals : List AccountId

namespace Signatures

/-- No key can be added here: `keys` is empty. -/
def context (signatures : Signatures K) : SignContext K where
  getActive := signatures.getActive
  availableKeys := []

def approved (signatures : Signatures K) : List AccountId :=
  signatures.ownerApprovals ++ signatures.activeApprovals ++
    [GRAPHENE_TEMP_ACCOUNT]

def start (signatures : Signatures K) : SignState K where
  providedSignatures := fun key =>
    if key ∈ signatures.sigs then some false else none
  approvedBy := signatures.approved

def checkOther (signatures : Signatures K) (auth : Authority K)
    (state : SignState K) : Outcome (AuthorityFault K) (SignState K) :=
  match checkAuthority signatures.context signatures.maxRecursionDepth
      (some auth) state with
  | (true, state) => .ok state
  | (false, state) => .throw (.missingOtherAuth auth) state

def checkActive (signatures : Signatures K) (id : AccountId)
    (state : SignState K) : Outcome (AuthorityFault K) (SignState K) :=
  match checkAccountAuthority signatures.context
      signatures.maxRecursionDepth id state with
  | (true, state) => .ok state
  | (false, state) =>
      match checkAuthority signatures.context
          signatures.maxRecursionDepth (signatures.getOwner id) state with
      | (true, state) => .ok state
      | (false, state) => .throw (.missingActiveAuth id) state

def checkOwner (signatures : Signatures K) (id : AccountId)
    (state : SignState K) : Outcome (AuthorityFault K) (SignState K) :=
  if id ∈ signatures.ownerApprovals then
    .ok state
  else
    match checkAuthority signatures.context
        signatures.maxRecursionDepth (signatures.getOwner id) state with
    | (true, state) => .ok state
    | (false, state) => .throw (.missingOwnerAuth id) state

/-- `remove_unused_signatures` finds one. -/
def hasUnused (signatures : Signatures K) (state : SignState K) : Bool :=
  signatures.sigs.any fun key =>
    state.providedSignatures key == some false

end Signatures

def verifyAuthority {Op : Type} (requires : Op → Required K)
    (ops : List Op) (signatures : Signatures K) :
    Outcome (AuthorityFault K) (SignState K) :=
  let required := getRequiredAuthorities requires ops
  if signatures.allowCommittee = false ∧
      GRAPHENE_COMMITTEE_ACCOUNT ∈ required.active then
    .throw .invalidCommitteeApproval signatures.start
  else
    (forEach signatures.checkOther required.other
      signatures.start).bind fun state =>
    (forEach signatures.checkActive required.active state).bind
      fun state =>
    (forEach signatures.checkOwner required.owner state).bind
      fun state =>
    if signatures.hasUnused state then
      .throw .irrelevantSig state
    else
      .ok state

end Verify

end GxbCore.Protocol
