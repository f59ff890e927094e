import GxbCore.Ledger.ProxyReplay
import GxbCore.Protocol.AddressAuthority

/-!
# The authority behind a proxy transfer

A proxy transfer is not checked by `verify_authority`.  The evaluator counts the
keys of the user's active authority instead, and verifies a signature of the
only one.  It reads neither the weight of the key nor the threshold, so the key
may be one that the authority takes only together with other accounts.
-/

namespace GxbCore.Ledger

open Database Protocol

section Weights

variable {A : Type} [DecidableEq A]

def getKeys (auth : AddressedAuthority Nat A) : List Nat :=
  auth.keyAuths.map Prod.fst

/-- A signature of one key meets the threshold: by the weight of the key, and of
the addresses that are forms of it.  No account approves. -/
def SatisfiedAlone (addressing : Addressing Nat A)
    (auth : AddressedAuthority Nat A) (key : Nat) : Prop :=
  auth.weightThreshold.toNat ≤
    (weights (fun other => other = key) auth.keyAuths).sum +
      (weights (fun address => address ∈ addressing.forms key)
        auth.addressAuths).sum

/-- The keys of an authority, with the addresses that are forms of them, meet
the threshold without its accounts. -/
def MetByKeys (addressing : Addressing Nat A)
    (auth : AddressedAuthority Nat A) : Prop :=
  auth.weightThreshold.toNat ≤
    (auth.keyAuths.map (·.2.toNat)).sum +
      (weights
        (fun address =>
          ∃ key ∈ getKeys auth, address ∈ addressing.forms key)
        auth.addressAuths).sum

def isImpossible (auth : AddressedAuthority Nat A) : Bool :=
  (auth.accountAuths.map (·.2.toNat)).sum +
      (auth.keyAuths.map (·.2.toNat)).sum +
      (auth.addressAuths.map (·.2.toNat)).sum <
    auth.weightThreshold.toNat

variable {auth : AddressedAuthority Nat A}

/-- The only key of an authority satisfies it alone exactly when its keys meet
it. -/
theorem satisfiedAlone_iff {addressing : Addressing Nat A} {key : Nat}
    (only : getKeys auth = [key]) :
    SatisfiedAlone addressing auth key ↔ MetByKeys addressing auth := by
  obtain ⟨entry, listed, isKey⟩ := List.map_eq_singleton_iff.mp only
  unfold SatisfiedAlone MetByKeys
  rw [only, listed]
  simp [weights, isKey]

end Weights

section Evaluator

variable {A : Type} [DecidableEq A] {db after : Database}
  {required : Option Int} {o : ProxyTransferOperation} {ecc : Ecc}

/-- The active authorities of the accounts, of which an account object has the
keys. -/
structure ActiveAuthorities (A : Type) (db : Database) where
  active : AccountId → AddressedAuthority Nat A
  getKeys_active :
    ∀ id account, db.accounts[id]? = some account →
      account.activeKeys = getKeys (active id)

/-- What is credited when an amount is split into a commission and the rest. -/
structure SplitPaid (before after : Database) (o : ProxyTransferOperation)
    (commission delta : Int) : Prop where
  commissionNonneg : 0 ≤ commission
  deltaNonneg : 0 ≤ delta
  total : commission + delta = o.requestParams.amount.amount
  balances :
    ∀ owner id,
      (after.getBalance owner id).amount =
        (before.getBalance owner id).amount +
          (if owner = o.requestParams.source ∧
              id = o.requestParams.amount.assetId then
            -o.requestParams.amount.amount else 0) +
          (if owner = o.requestParams.target ∧
              id = o.requestParams.amount.assetId then delta else 0) +
          (if owner = o.requestParams.proxyAccount ∧
              id = o.requestParams.amount.assetId then commission else 0) +
          (if owner = o.requestParams.proxyAccount ∧ id = o.fee.assetId then
            -o.fee.amount else 0)

/-- The key whose signature was verified satisfies the active authority of the
user alone, and the two parts of the amount are what was signed. -/
structure AuthorisedTransfer (ecc : Ecc) (addressing : Addressing Nat A)
    (authorities : ActiveAuthorities A db) (after : Database)
    (o : ProxyTransferOperation) : Prop where
  satisfied :
    ∃ execution, o.execution ecc db = some execution ∧
      SatisfiedAlone addressing
        (authorities.active o.requestParams.source) execution.key
  paid : ∃ commission delta, SplitPaid db after o commission delta

omit [DecidableEq A] in
/-- The verified key is the only one of the user's active authority. -/
theorem proxyTransfer_onlyKey (authorities : ActiveAuthorities A db)
    (returns :
      (proxyTransferEvaluator ecc.verifyProxyTransferSignature required o).run
        db = .ok after)
    {execution : Execution} (executes : o.execution ecc db = some execution) :
    getKeys (authorities.active o.requestParams.source) = [execution.key] := by
  obtain ⟨coreFee, converted, paid, applied, ran⟩ := run_cases returns
  have evaluated := ran.evaluated
  simp only [proxyTransferEvaluator, bind_eq_ok, fcAssert_eq_ok,
    orThrow_eq_ok, getAccount_eq_ok] at evaluated
  obtain ⟨_, _, _, _, _, _, fromAccount, found, _, _, _, oneKey, _⟩ :=
    evaluated
  simp only [ProxyTransferOperation.execution, bind, Option.bind_eq_some_iff]
    at executes
  obtain ⟨alsoFrom, alsoFound, key, isKey, _, _, _, _, returned⟩ := executes
  cases found.symm.trans alsoFound
  cases returned
  rw [← authorities.getKeys_active _ _ found]
  obtain ⟨only, listed⟩ := List.length_eq_one_iff.mp oneKey
  rw [listed] at isKey ⊢
  cases isKey
  rfl

/-- The signed amount is taken from the user and paid to receiver and proxy. -/
theorem proxyTransfer_splitPaid {verify : ProxyTransferParams → Nat → Bool}
    (fits : o.requestParams.amount.amount < 2 ^ 63)
    (validates : o.validate = .ok ())
    (returns : (proxyTransferEvaluator verify required o).run db = .ok after) :
    ∃ commission delta, SplitPaid db after o commission delta := by
  simp only [ProxyTransferOperation.validate, bind_eq_ok, fcAssert_eq_ok]
    at validates
  obtain ⟨_, _, _, nonneg, _, _, _, percentage, _⟩ := validates
  obtain ⟨coreFee, assets, accounts, applied, _, applies, charges⟩ :=
    run_applies (fun _ _ => rfl) returns
  simp only [proxyTransferEvaluator, bind_eq_ok, orThrow_eq_ok] at applies
  obtain ⟨signature, _, commission, cut, delta, rest, first, taken, second,
    given, shared⟩ := applies
  have rest := eq_of_share rest
  obtain ⟨commissionNonneg, part⟩ := cutFee_bounds nonneg fits percentage cut
  have atMost :
      o.requestParams.amount.amount * o.requestParams.percentage ≤
        o.requestParams.amount.amount * GRAPHENE_100_PERCENT :=
    Int.mul_le_mul_of_nonneg_left (Int.ofNat_le.mpr percentage) nonneg
  have deltaNonneg : commission ≤ o.requestParams.amount.amount :=
    Int.le_of_mul_le_mul_right (part.trans atMost) (by decide)
  refine ⟨commission, delta, commissionNonneg, by omega, by omega, ?_⟩
  intro owner id
  rw [adjustBalance_getBalance charges, adjustBalance_getBalance shared,
    adjustBalance_getBalance given, adjustBalance_getBalance taken]
  rfl

/-- An accepted proxy transfer has the authority of the user, and pays out what
was signed, exactly when the user's active authority is met by its keys without
its accounts. -/
theorem proxy_transfer_authorised
    (addressing : Addressing Nat A) (authorities : ActiveAuthorities A db)
    (fits : o.requestParams.amount.amount < 2 ^ 63)
    (validates : o.validate = .ok ())
    (returns :
      (proxyTransferEvaluator ecc.verifyProxyTransferSignature required o).run
        db = .ok after) :
    AuthorisedTransfer ecc addressing authorities after o ↔
      MetByKeys addressing (authorities.active o.requestParams.source) := by
  obtain ⟨execution, executes⟩ := proxyTransfer_executes returns
  have only := proxyTransfer_onlyKey authorities returns executes
  constructor
  · rintro ⟨⟨other, alsoExecutes, satisfied⟩, _⟩
    cases executes.symm.trans alsoExecutes
    exact (satisfiedAlone_iff only).mp satisfied
  · intro met
    exact ⟨⟨execution, executes, (satisfiedAlone_iff only).mpr met⟩,
      proxyTransfer_splitPaid fits validates returns⟩

end Evaluator

section Sample

/-- The key 11 has a single address. -/
def keyAddressing : Addressing Nat Nat where
  ptsAddress key _ _ := key
  address key := key

/-- The key of the first account, with this weight, and the second account,
against a threshold of two. -/
def sharedAuthority (weight : UInt16) (id : AccountId) :
    AddressedAuthority Nat Nat :=
  if id = 0 then ⟨2, [(1, 1)], [(11, weight)], []⟩
  else ⟨1, [], [(11 + id, 1)], []⟩

theorem getKeys_sharedAuthority (weight : UInt16) :
    ∀ id account, threeAccounts.accounts[id]? = some account →
      account.activeKeys = getKeys (sharedAuthority weight id) := by
  intro id account found
  match id with
  | 0 | 1 | 2 =>
      cases found
      rfl
  | _ + 3 => cases found

def sharedAuthorities (weight : UInt16) :
    ActiveAuthorities Nat threeAccounts where
  active := sharedAuthority weight
  getKeys_active := getKeys_sharedAuthority weight

theorem proxy_transfer_authorised_heavy :
    AuthorisedTransfer sampleEcc keyAddressing (sharedAuthorities 2)
      (submit threeAccounts (sampleRequest [21])) (sampleRequest [21]) :=
  (@proxy_transfer_authorised Nat _ threeAccounts _ none (sampleRequest [21])
    sampleEcc keyAddressing (sharedAuthorities 2) (by decide) (by decide)
    (by decide)).mpr
    (show (2 : UInt32).toNat ≤ _ by decide)

/-- The authority takes the key only together with the second account, which did
not sign, and the transfer is accepted. -/
theorem light_key_accepted :
    (proxyTransferEvaluator sampleEcc.verifyProxyTransferSignature none
        (sampleRequest [21])).run threeAccounts =
      .ok (submit threeAccounts (sampleRequest [21])) ∧
    ¬ AuthorisedTransfer sampleEcc keyAddressing (sharedAuthorities 1)
        (submit threeAccounts (sampleRequest [21])) (sampleRequest [21]) := by
  refine ⟨by decide, ?_⟩
  rintro ⟨⟨execution, executes, satisfied⟩, _⟩
  have isKey : execution.key = 11 := by
    have sample :
        (sampleRequest [21]).execution sampleEcc threeAccounts =
          some (executedRequest 21) := by decide
    rw [sample] at executes
    cases executes
    rfl
  rw [isKey] at satisfied
  exact absurd satisfied
    (show ¬ (2 : UInt32).toNat ≤ _ by decide)

end Sample

end GxbCore.Ledger
