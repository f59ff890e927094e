import GxbCore.Ledger.Transfers

/-!
# Requests that are executed once

A user signs a request, and a proxy submits it.  The signature is kept until the
request expires, so that it is not executed again.

Any signature of the list may be the user's, but only the first one is looked
for and kept.  A proxy that puts another signature before the user's executes
the request once more.  Where the user's signature stands first, every run
executes each signed request at most once.
-/

namespace GxbCore.Ledger

open Database

/-- What the verification uses of the cryptography: the digest that the encoder
returns in each round of the loop, and the key that is recovered from a
signature over a digest, where that does not throw. -/
structure Ecc where
  result : ProxyTransferParams → Nat → Nat
  publicKey : Nat → Nat → Option Nat

/-- The request as it is signed. -/
def ProxyTransferParams.unsigned (params : ProxyTransferParams) :
    ProxyTransferParams :=
  { params with signatures := [] }

namespace Ecc

/-- The loop of `verify_proxy_transfer_signature` from a round on: the
signature it returns `true` at. -/
def userSignature (ecc : Ecc) (p : ProxyTransferParams) (expectedSignee : Nat) :
    Nat → List Nat → Option Nat
  | _, [] => none
  | round, sig :: rest =>
      match ecc.publicKey sig (ecc.result p round) with
      | none => none
      | some key =>
          if key = expectedSignee then some sig
          else ecc.userSignature p expectedSignee (round + 1) rest

/-- `verify_proxy_transfer_signature`; an exception fails the evaluation as
`false` does. -/
def verifyProxyTransferSignature (ecc : Ecc) (params : ProxyTransferParams)
    (expectedSignee : Nat) : Bool :=
  (ecc.userSignature params.unsigned expectedSignee 0
    params.signatures).isSome

end Ecc

/-- `clear_expired_signature_objs`: the loop takes the objects in the order of
their expiration, so it removes those that have expired. -/
def clearExpiredSignatureObjs (db : Database) : Database :=
  { db with
    signatures := db.signatures.filter fun obj =>
      !decide (db.headBlockTime > obj.expiration) }

/-- One executed proxy transfer: the request, the key of the user's account, the
signature that was accepted as the user's, and the first one of the list. -/
structure Execution where
  request : ProxyTransferParams
  key : Nat
  userSignature : Nat
  firstSignature : Nat
  deriving DecidableEq, Repr

/-- The request with the user's signature over it. -/
def Execution.signedRequest (execution : Execution) :
    ProxyTransferParams × Nat :=
  (execution.request, execution.userSignature)

def Execution.UserFirst (ecc : Ecc) (execution : Execution) : Prop :=
  ecc.publicKey execution.firstSignature (ecc.result execution.request 0) =
    some execution.key

/-- What an operation executes in a state: the request, and the signature that
the key of its account accepts. -/
def ProxyTransferOperation.execution (ecc : Ecc) (db : Database)
    (o : ProxyTransferOperation) : Option Execution := do
  let fromAccount ← db.accounts[o.requestParams.source]?
  let key ← fromAccount.activeKeys[0]?
  let userSignature ←
    ecc.userSignature o.requestParams.unsigned key 0 o.requestParams.signatures
  let firstSignature ← o.requestParams.signatures[0]?
  return ⟨o.requestParams.unsigned, key, userSignature, firstSignature⟩

/-- The states that runs reach, with what they have executed.  Other operations
and the maintenance neither read nor write signature objects, so they may do
anything else; a new block moves the time and clears what has expired. -/
inductive Executes (ecc : Ecc) (start : Database) :
    Database → List Execution → Prop
  | start : Executes ecc start start []
  | proxyTransfer {db after : Database} {log : List Execution}
      {execution : Execution} (required : Option Int)
      (o : ProxyTransferOperation)
      (earlier : Executes ecc start db log)
      (validates : o.validate = .ok ())
      (returns :
        (proxyTransferEvaluator ecc.verifyProxyTransferSignature required
          o).run db = .ok after)
      (executes : o.execution ecc db = some execution) :
      Executes ecc start after (execution :: log)
  | elsewhere {db after : Database} {log : List Execution}
      (earlier : Executes ecc start db log)
      (signatures : after.signatures = db.signatures)
      (time : after.headBlockTime = db.headBlockTime) :
      Executes ecc start after log
  | block {db after : Database} {log : List Execution}
      (earlier : Executes ecc start db log)
      (signatures : after.signatures = db.signatures)
      (later : db.headBlockTime ≤ after.headBlockTime) :
      Executes ecc start (clearExpiredSignatureObjs after) log

section Steps

variable {ecc : Ecc} {db after : Database} {required : Option Int}
  {o : ProxyTransferOperation}

theorem adjustBalance_signatures {account : AccountId} {delta : Asset}
    (returns : db.adjustBalance account delta = .ok after) :
    after.signatures = db.signatures ∧ after.properties = db.properties := by
  rw [adjustBalance_frame returns]
  exact ⟨rfl, rfl⟩

theorem convertFee_signatures {account : AccountId} {fee : Asset}
    {coreFee : Int} (prepared : db.prepareFee account fee = .ok coreFee)
    (returns : db.convertFee fee coreFee = .ok after) :
    after.signatures = db.signatures ∧ after.properties = db.properties := by
  rcases convertFee_cases prepared returns with
    ⟨_, _, rfl⟩ | ⟨a, _, _, rfl⟩
  · exact ⟨rfl, rfl⟩
  · exact ⟨rfl, rfl⟩

theorem payFee_signatures {payer : AccountId} {coreFee : Int}
    (returns : db.payFee payer coreFee = .ok after) :
    after.signatures = db.signatures ∧ after.properties = db.properties := by
  obtain ⟨a, _, ⟨rfl, _⟩ | ⟨rfl, _⟩⟩ := payFee_cases returns
  · exact ⟨rfl, rfl⟩
  · exact ⟨rfl, rfl⟩

variable {verify : ProxyTransferParams → Nat → Bool}

/-- What `do_apply` keeps of the request: its first signature. -/
theorem proxyTransfer_applies {coreFee : Int}
    (applies :
      (proxyTransferEvaluator verify required o).doApply coreFee db =
        .ok after) :
    ∃ signature, o.requestParams.signatures[0]? = some signature ∧
      after.signatures =
        db.signatures ++ [⟨signature, o.requestParams.expiration⟩] ∧
      after.properties = db.properties := by
  simp only [proxyTransferEvaluator, bind_eq_ok, orThrow_eq_ok] at applies
  obtain ⟨signature, isFirst, commission, _, delta, _, first, taken, second,
    given, shared⟩ := applies
  refine ⟨signature, isFirst, ?_, ?_⟩
  · rw [(adjustBalance_signatures shared).1,
      (adjustBalance_signatures given).1, (adjustBalance_signatures taken).1]
  · rw [(adjustBalance_signatures shared).2,
      (adjustBalance_signatures given).2, (adjustBalance_signatures taken).2]

/-- A request is executed before it expires, when its first signature is not
kept, and the first signature is kept from then on. -/
theorem proxyTransfer_effect
    (returns : (proxyTransferEvaluator verify required o).run db = .ok after) :
    ∃ signature, o.requestParams.signatures[0]? = some signature ∧
      db.headBlockTime < o.requestParams.expiration ∧
      (∀ obj ∈ db.signatures, obj.signature ≠ signature) ∧
      after.signatures =
        db.signatures ++ [⟨signature, o.requestParams.expiration⟩] ∧
      after.headBlockTime = db.headBlockTime := by
  obtain ⟨coreFee, converted, paid, applied, ran⟩ := run_cases returns
  obtain ⟨convertedSignatures, convertedProperties⟩ :=
    convertFee_signatures ran.prepared ran.converts
  obtain ⟨paidSignatures, paidProperties⟩ := payFee_signatures ran.pays
  obtain ⟨signature, isFirst, appliedSignatures, appliedProperties⟩ :=
    proxyTransfer_applies ran.applies
  obtain ⟨chargedSignatures, chargedProperties⟩ :=
    adjustBalance_signatures ran.charges
  have evaluated := ran.evaluated
  simp only [proxyTransferEvaluator, bind_eq_ok, fcAssert_eq_ok,
    orThrow_eq_ok] at evaluated
  obtain ⟨_, _, _, _, _, inTime, fromAccount, _, checked, alsoFirst, _, _, key,
    _, _, _, _, unused, _⟩ := evaluated
  cases isFirst.symm.trans alsoFirst
  refine ⟨signature, isFirst, inTime.2, ?_, ?_, ?_⟩
  · intro obj member
    exact of_decide_eq_true (List.all_eq_true.mp unused obj member)
  · rw [chargedSignatures, appliedSignatures, paidSignatures,
      convertedSignatures]
  · unfold headBlockTime
    rw [chargedProperties, appliedProperties, paidProperties,
      convertedProperties]

theorem execution_eq_some {execution : Execution}
    (executes : o.execution ecc db = some execution) :
    execution.request = o.requestParams.unsigned ∧
      o.requestParams.signatures[0]? = some execution.firstSignature ∧
      ecc.userSignature execution.request execution.key 0
        o.requestParams.signatures = some execution.userSignature := by
  simp only [ProxyTransferOperation.execution, bind, Option.bind_eq_some_iff]
    at executes
  obtain ⟨fromAccount, _, key, _, userSignature, verified, firstSignature,
    isFirst, returned⟩ := executes
  cases returned
  exact ⟨rfl, isFirst, verified⟩

theorem userSignature_eq_first {execution : Execution}
    (executes : o.execution ecc db = some execution)
    (userFirst : execution.UserFirst ecc) :
    execution.userSignature = execution.firstSignature := by
  obtain ⟨_, isFirst, verified⟩ := execution_eq_some executes
  cases listed : o.requestParams.signatures with
  | nil => simp [listed] at isFirst
  | cons sig rest =>
      rw [listed] at isFirst verified
      cases isFirst
      rw [Ecc.userSignature, userFirst] at verified
      simpa using verified.symm

theorem proxyTransfer_executes
    (returns :
      (proxyTransferEvaluator ecc.verifyProxyTransferSignature required
        o).run db = .ok after) :
    ∃ execution, o.execution ecc db = some execution := by
  obtain ⟨coreFee, converted, paid, applied, ran⟩ := run_cases returns
  have evaluated := ran.evaluated
  simp only [proxyTransferEvaluator, bind_eq_ok, fcAssert_eq_ok,
    orThrow_eq_ok, getAccount_eq_ok] at evaluated
  obtain ⟨_, _, _, _, _, _, fromAccount, found, first, isFirst, _, _, key,
    isKey, _, verified, _⟩ := evaluated
  obtain ⟨userSignature, accepted⟩ := Option.isSome_iff_exists.mp verified
  refine ⟨⟨o.requestParams.unsigned, key, userSignature, first⟩, ?_⟩
  simp [ProxyTransferOperation.execution, found, isKey, accepted, isFirst]

end Steps

/-- Of everything that was executed, the first signature is still kept with the
expiration of the request, or the request has expired. -/
def Remembers (db : Database) (log : List Execution) : Prop :=
  ∀ execution ∈ log,
    execution.request.expiration < db.headBlockTime ∨
      ⟨execution.firstSignature, execution.request.expiration⟩ ∈ db.signatures

section Runs

variable {ecc : Ecc} {start db after : Database} {log : List Execution}
  {verify : ProxyTransferParams → Nat → Bool}

theorem Remembers.proxyTransfer {required : Option Int}
    {o : ProxyTransferOperation} {execution : Execution}
    (remembers : Remembers db log)
    (returns : (proxyTransferEvaluator verify required o).run db = .ok after)
    (executes : o.execution ecc db = some execution) :
    Remembers after (execution :: log) := by
  obtain ⟨signature, isFirst, _, _, kept, sameTime⟩ :=
    proxyTransfer_effect returns
  obtain ⟨request, alsoFirst, _⟩ := execution_eq_some executes
  cases isFirst.symm.trans alsoFirst
  intro other member
  rw [kept, sameTime]
  rcases List.mem_cons.mp member with rfl | older
  · right
    rw [request]
    exact List.mem_append_right _ List.mem_cons_self
  · rcases remembers other older with expired | stillKept
    · exact .inl expired
    · exact .inr (List.mem_append_left _ stillKept)

theorem Remembers.elsewhere (remembers : Remembers db log)
    (signatures : after.signatures = db.signatures)
    (later : db.headBlockTime ≤ after.headBlockTime) : Remembers after log := by
  intro execution member
  rw [signatures]
  rcases remembers execution member with expired | kept
  · exact .inl (UInt32.lt_of_lt_of_le expired later)
  · exact .inr kept

theorem Remembers.clear (remembers : Remembers db log) :
    Remembers (clearExpiredSignatureObjs db) log := by
  intro execution member
  rcases remembers execution member with expired | kept
  · exact .inl expired
  · by_cases expired : execution.request.expiration < db.headBlockTime
    · exact .inl expired
    · exact .inr (List.mem_filter.mpr ⟨kept, by simpa using expired⟩)

theorem Executes.remembers (executes : Executes ecc start db log) :
    Remembers db log := by
  induction executes with
  | start =>
      intro execution member
      exact absurd member List.not_mem_nil
  | proxyTransfer required o _ _ returns executes ih =>
      exact ih.proxyTransfer returns executes
  | elsewhere _ signatures time ih =>
      exact ih.elsewhere signatures
        (UInt32.le_of_eq time.symm)
  | block _ signatures later ih =>
      exact (ih.elsewhere signatures later).clear

theorem Executes.accepted (executes : Executes ecc start db log) :
    ∀ execution ∈ log, execution.UserFirst ecc →
      execution.userSignature = execution.firstSignature := by
  induction executes with
  | start =>
      intro execution member
      exact absurd member List.not_mem_nil
  | proxyTransfer required o _ _ _ executed ih =>
      intro execution member
      rcases List.mem_cons.mp member with rfl | older
      · exact userSignature_eq_first executed
      · exact ih execution older
  | elsewhere _ _ _ ih => exact ih
  | block _ _ _ ih => exact ih

/-- A request that was executed is not executed with the same first signature
again. -/
theorem Remembers.fresh {required : Option Int} {o : ProxyTransferOperation}
    {execution : Execution} (remembers : Remembers db log)
    (returns : (proxyTransferEvaluator verify required o).run db = .ok after)
    (executes : o.execution ecc db = some execution) {other : Execution}
    (member : other ∈ log) (sameRequest : other.request = execution.request) :
    other.firstSignature ≠ execution.firstSignature := by
  intro sameFirst
  obtain ⟨signature, isFirst, inTime, unused, _, _⟩ :=
    proxyTransfer_effect returns
  obtain ⟨request, alsoFirst, _⟩ := execution_eq_some executes
  cases isFirst.symm.trans alsoFirst
  rcases remembers other member with expired | kept
  · rw [sameRequest, request] at expired
    exact UInt32.lt_asymm expired inTime
  · exact unused _ kept sameFirst

end Runs

section Sample

/-- Three accounts with the keys 11, 12 and 13; the first holds a hundred of
the core asset. -/
def threeAccounts : Database :=
  { plainDatabase with
    accounts := [plainAccount 11, plainAccount 12, plainAccount 13]
    balances := [⟨0, 1, 100⟩] }

/-- The key 11 signs as 21, the key 12 as 22. -/
def sampleEcc : Ecc where
  result := fun _ _ => 0
  publicKey := fun sig _ => some (sig - 10)

/-- The first account pays ten to the second, by way of the third. -/
def sampleRequest (signatures : List Nat) : ProxyTransferOperation where
  proxyMemo := "p"
  fee := ⟨0, 1⟩
  requestParams := {
    source := 0
    target := 1
    proxyAccount := 2
    percentage := 0
    amount := ⟨10, 1⟩
    memo := ""
    expiration := 1610000060
    signatures := signatures }

/-- The state after the operation, or the state before it. -/
def submit (db : Database) (o : ProxyTransferOperation) : Database :=
  match
    (proxyTransferEvaluator sampleEcc.verifyProxyTransferSignature none
      o).run db with
  | .ok after => after
  | .error _ => db

/-- The request as the user signed it. -/
def executedRequest (firstSignature : Nat) : Execution :=
  ⟨(sampleRequest []).requestParams, 11, 21, firstSignature⟩

theorem sample_executes :
    Executes sampleEcc threeAccounts
      (submit threeAccounts (sampleRequest [21])) [executedRequest 21] :=
  .proxyTransfer none (sampleRequest [21]) .start (by decide) (by decide)
    (by decide)

end Sample

end GxbCore.Ledger
