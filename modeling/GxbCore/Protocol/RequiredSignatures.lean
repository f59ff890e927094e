import GxbCore.Lib.GreedyRemoval
import GxbCore.Protocol.AuthorityCheck

/-!
# get_required_signatures and minimize_required_signatures

Which of the available keys should sign a transaction?  The suggestion runs the
search of `verify_authority` with all available keys at hand and takes the keys
that it comes to.  The minimiser takes them out again one by one, as long as
`verify_authority` accepts the rest.

The sets are lists in any order.
-/

namespace GxbCore.Protocol

/-- A transaction with the keys of its signatures, and what the two functions
are called with. -/
structure Signing (K Op : Type) where
  operations : List Op
  signatureKeys : List K
  availableKeys : List K
  getActive : AccountId → Option (Authority K)
  getOwner : AccountId → Option (Authority K)
  maxRecursion : Nat

namespace Signing

section Suggest

variable {K Op : Type} [DecidableEq K]

/-- The arguments of `verify_authority` after the operations, for the keys that
signed; the others are the defaults. -/
def signatures (signing : Signing K Op) (keys : List K) : Signatures K where
  sigs := keys
  getActive := signing.getActive
  getOwner := signing.getOwner
  maxRecursionDepth := signing.maxRecursion
  allowCommittee := false
  activeApprovals := []
  ownerApprovals := []

/-- `verify_authority` of the operations with signatures of these keys. -/
def verify (signing : Signing K Op) (requires : Op → Required K)
    (keys : List K) : Outcome (AuthorityFault K) (SignState K) :=
  verifyAuthority requires signing.operations (signing.signatures keys)

/-- What the `sign_state` of the suggestion has references to. -/
def context (signing : Signing K Op) : SignContext K where
  getActive := signing.getActive
  availableKeys := signing.availableKeys

/-- The `sign_state` of the suggestion after its three loops. -/
def search (signing : Signing K Op) (requires : Op → Required K) :
    SignState K :=
  let required := getRequiredAuthorities requires signing.operations
  let s := (signing.signatures signing.signatureKeys).start
  let s :=
    required.other.foldl
      (fun s auth =>
        (checkAuthority signing.context signing.maxRecursion (some auth) s).2)
      s
  let s :=
    required.owner.foldl
      (fun s owner =>
        (checkAuthority signing.context signing.maxRecursion
          (signing.getOwner owner) s).2)
      s
  required.active.foldl
    (fun s active =>
      (checkAccountAuthority signing.context signing.maxRecursion active s).2)
    s

/-- `get_required_signatures`; the keys that were not used are removed. -/
def getRequiredSignatures (signing : Signing K Op)
    (requires : Op → Required K) : List K :=
  let s := signing.search requires
  signing.availableKeys.filter fun key =>
    s.providedSignatures key == some true &&
      decide (key ∉ signing.signatureKeys)

/-- The round of the minimiser: only the exceptions that an authority is missing
are caught. -/
def minimizeRound (signing : Signing K Op) (requires : Op → Required K)
    (key : K) (result : List K) : Outcome (AuthorityFault K) (List K) :=
  match signing.verify requires (without key result) with
  | .ok _ => .ok (without key result)
  | .throw fault _ =>
      if fault.missing then .ok (key :: without key result)
      else .throw fault (without key result)

def minimizeRequiredSignatures (signing : Signing K Op)
    (requires : Op → Required K) : Outcome (AuthorityFault K) (List K) :=
  forEach (signing.minimizeRound requires)
    (signing.getRequiredSignatures requires)
    (signing.getRequiredSignatures requires)

end Suggest

end Signing

end GxbCore.Protocol
