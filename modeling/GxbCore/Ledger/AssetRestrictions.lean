import GxbCore.Ledger.HolderOps
import GxbCore.Ledger.Transfers

/-!
# Asset restrictions

The issuer of an asset may restrict who holds it and require to be a party to
every transfer.  Each path on which the asset moves from one account to another
makes the checks itself, or leaves them out: the claim of a withdraw permission
looks at the credited account twice and never at the debited one, a proxy
transfer never at the account that gets the commission, and inline transfers and
the payments of contract calls look at nothing.

`OmittedChecks` collects what each path leaves out.  The restrictions hold of a
move that succeeds exactly if what its path leaves out does.
-/

namespace GxbCore.Ledger

open Database

section Contracts

structure ActionDef where
  name : String
  payable : Bool
  deriving DecidableEq, Repr

structure ContractCallOperation where
  fee : Asset
  account : AccountId
  contractId : AccountId
  amount : Option Asset
  methodName : String
  deriving DecidableEq, Repr

structure InterContractCallOperation where
  fee : Asset
  senderContract : AccountId
  contractId : AccountId
  amount : Option Asset
  methodName : String
  deriving DecidableEq, Repr

/-- The amount that `apply_context` is constructed with: a positive one. -/
def paidAmount (amount : Option Asset) : Option Asset :=
  amount.filter fun paid => decide (0 < paid.amount)

/-- `apply_context::exec`; `execOne` is what follows the payment: the contract's
code and the inline operations that it issues. -/
def exec
    (execOne : Database → Except Fault Database)
    (sender contractId : AccountId) (amount : Option Asset) (db : Database) :
    Except Fault Database :=
  match paidAmount amount with
  | none => execOne db
  | some paid => do
      let db ← moveBalance sender contractId paid db
      execOne db

/-- `contract_call_evaluator::do_evaluate` up to the checks of the fee and of the
ram account. -/
def contractCallEvaluate
    (actions : AccountId → List ActionDef) (o : ContractCallOperation)
    (db : Database) : Except Fault Unit := do
  let contractObj ← db.getAccount o.contractId
  fcAssert contractObj.hasCode "contract has no code, contract_id ${n}"
  let action ←
    orThrow ((actions o.contractId).find? (·.name == o.methodName))
      (.assertion "method_name ${m} not found in abi")
  match o.amount with
  | none => return ()
  | some amount =>
      fcAssert action.payable "method_name ${m} not payable"
      fcAssert (0 < amount.amount) "amount must > 0"
      let _ ← db.getAsset amount.assetId
      let _ ← db.getAccount o.account
      fcAssert (amount.amount ≤ (db.getBalance o.account amount.assetId).amount)
        "insufficient balance: ${balance}, unable to deposit '${total_transfer}' from account '${a}' to '${t}'"

/-- `contract_call_evaluator`: `checks` are the other checks of `do_evaluate` and
`charge` is what follows the contract's code. -/
def contractCall
    (actions : AccountId → List ActionDef)
    (checks : Database → Except Fault Unit)
    (execOne charge : Database → Except Fault Database)
    (o : ContractCallOperation) (db : Database) : Except Fault Database := do
  contractCallEvaluate actions o db
  checks db
  let db ← exec execOne o.account o.contractId o.amount db
  charge db

/-- `inter_contract_call_evaluator` -/
def interContractCall
    (execOne : Database → Except Fault Database)
    (o : InterContractCallOperation) : Database → Except Fault Database :=
  exec execOne o.senderContract o.contractId o.amount

end Contracts

/-- The paths on which an asset moves from one account to another, each with the
operation and what its evaluation takes from elsewhere. -/
inductive Path where
  | transfer (required : Option Int) (o : TransferOperation)
  | overrideTransfer (required : Option Int) (o : OverrideTransferOperation)
  | inlineTransfer (required : Option Int) (o : InlineTransferOperation)
  | proxyTransfer (verify : ProxyTransferParams → Nat → Bool)
      (required : Option Int) (o : ProxyTransferOperation)
  | withdrawPermissionClaim (required : Option Int)
      (o : WithdrawPermissionClaimOperation)
  | contractCall (actions : AccountId → List ActionDef)
      (checks : Database → Except Fault Unit)
      (execOne charge : Database → Except Fault Database)
      (o : ContractCallOperation)
  | interContractCall (execOne : Database → Except Fault Database)
      (o : InterContractCallOperation)

/-- A move of an asset; `byIssuer` marks the issuer's override. -/
structure AssetMove where
  source : AccountId
  target : AccountId
  asset : AssetId
  byIssuer : Bool
  deriving DecidableEq, Repr

/-- The move from one account to another one. -/
def AssetMove.between
    (source target : AccountId) (asset : AssetId) (byIssuer : Bool) :
    List AssetMove :=
  if source = target then [] else [⟨source, target, asset, byIssuer⟩]

open AssetMove

namespace Path

def run : Path → Database → Except Fault Database
  | transfer required o => (transferEvaluator required o).run
  | overrideTransfer required o => (overrideTransferEvaluator required o).run
  | inlineTransfer required o => (inlineTransferEvaluator required o).run
  | proxyTransfer verify required o =>
      (proxyTransferEvaluator verify required o).run
  | withdrawPermissionClaim required o =>
      (withdrawPermissionClaimEvaluator required o).run
  | contractCall actions checks execOne charge o =>
      Ledger.contractCall actions checks execOne charge o
  | interContractCall execOne o => Ledger.interContractCall execOne o

def inlineMoves (o : InlineTransferOperation) : List AssetMove :=
  between o.source o.target o.amount.assetId false

def commissionMoves (o : ProxyTransferOperation) : List AssetMove :=
  let params := o.requestParams
  if cutFee params.amount.amount params.percentage = .ok 0 then
    []
  else
    between params.source params.proxyAccount params.amount.assetId false

def claimMoves (o : WithdrawPermissionClaimOperation) : List AssetMove :=
  between o.withdrawFromAccount o.withdrawToAccount
    o.amountToWithdraw.assetId false

def paymentMoves (sender contractId : AccountId) (amount : Option Asset) :
    List AssetMove :=
  match paidAmount amount with
  | none => []
  | some paid => between sender contractId paid.assetId false

def moves : Path → List AssetMove
  | transfer _ o => between o.source o.target o.amount.assetId false
  | overrideTransfer _ o => between o.source o.target o.amount.assetId true
  | inlineTransfer _ o => inlineMoves o
  | proxyTransfer _ _ o =>
      between o.requestParams.source o.requestParams.target
        o.requestParams.amount.assetId false ++ commissionMoves o
  | withdrawPermissionClaim _ o => claimMoves o
  | contractCall _ _ _ _ o => paymentMoves o.account o.contractId o.amount
  | interContractCall _ o =>
      paymentMoves o.senderContract o.contractId o.amount

end Path

def Authorised (db : Database) (account : AccountId) (asset : AssetId) :
    Prop :=
  ∃ acct a, db.accounts[account]? = some acct ∧
    db.assets[asset]? = some a ∧ isAuthorizedAsset db acct asset a = true

def IssuerParty (db : Database) (move : AssetMove) : Prop :=
  ∃ a, db.assets[move.asset]? = some a ∧
    (a.isTransferRestricted →
      move.source = a.issuer ∨ move.target = a.issuer)

/-- What the issuer's restrictions require of a move. -/
structure Enforced (db : Database) (move : AssetMove) : Prop where
  source : Authorised db move.source move.asset
  target : Authorised db move.target move.asset
  issuer : move.byIssuer = false → IssuerParty db move

/-- What the path leaves unchecked: nothing for the two transfers, the debited
account for a claim, the account of the commission for a proxy transfer, and
everything for the rest. -/
def Path.OmittedChecks (db : Database) : Path → Prop
  | transfer _ _ => True
  | overrideTransfer _ _ => True
  | withdrawPermissionClaim _ o =>
      ∀ move ∈ claimMoves o, Authorised db move.source move.asset
  | proxyTransfer _ _ o =>
      ∀ move ∈ commissionMoves o,
        Authorised db move.target move.asset ∧ IssuerParty db move
  | inlineTransfer _ o => ∀ move ∈ inlineMoves o, Enforced db move
  | contractCall _ _ _ _ o =>
      ∀ move ∈ paymentMoves o.account o.contractId o.amount, Enforced db move
  | interContractCall _ o =>
      ∀ move ∈ paymentMoves o.senderContract o.contractId o.amount,
        Enforced db move

section Enforcement

variable {db after : Database} {move : AssetMove}

theorem mem_between {source target : AccountId} {asset : AssetId}
    {byIssuer : Bool} (member : move ∈ between source target asset byIssuer) :
    move = ⟨source, target, asset, byIssuer⟩ := by
  unfold between at member
  split at member
  · exact absurd member List.not_mem_nil
  · exact List.mem_singleton.mp member

theorem mem_commissionMoves {o : ProxyTransferOperation}
    (member : move ∈ Path.commissionMoves o) :
    move =
      ⟨o.requestParams.source, o.requestParams.proxyAccount,
        o.requestParams.amount.assetId, false⟩ := by
  simp only [Path.commissionMoves] at member
  split at member
  · exact absurd member List.not_mem_nil
  · exact mem_between member

theorem Evaluator.run_evaluates {eval : Evaluator}
    (returns : eval.run db = .ok after) : eval.doEvaluate db = .ok () := by
  obtain ⟨_, _, _, _, ran⟩ := run_cases returns
  exact ran.evaluated

/-- The checks that the transfers share enforce the restrictions. -/
theorem checkWhitelisted_enforced {source target : AccountId} {asset : AssetId}
    (checks : checkWhitelisted source target asset db = .ok ()) :
    Enforced db ⟨source, target, asset, false⟩ := by
  simp only [checkWhitelisted, bind_eq_ok, getAccount_eq_ok, getAsset_eq_ok,
    fcAssert_eq_ok] at checks
  obtain ⟨fromAccount, isSource, toAccount, isTarget, assetType, isAsset,
    _, sourceAllowed, _, targetAllowed, restricted⟩ := checks
  exact
    { source := ⟨fromAccount, assetType, isSource, isAsset, sourceAllowed⟩
      target := ⟨toAccount, assetType, isTarget, isAsset, targetAllowed⟩
      issuer := fun _ => ⟨assetType, isAsset, restricted⟩ }

variable {required : Option Int}

theorem transfer_enforced {o : TransferOperation}
    (returns : (transferEvaluator required o).run db = .ok after) :
    Enforced db ⟨o.source, o.target, o.amount.assetId, false⟩ := by
  obtain ⟨_, checks, _⟩ := bind_eq_ok.mp (Evaluator.run_evaluates returns)
  exact checkWhitelisted_enforced checks

theorem overrideTransfer_enforced {o : OverrideTransferOperation}
    (returns : (overrideTransferEvaluator required o).run db = .ok after) :
    Enforced db ⟨o.source, o.target, o.amount.assetId, true⟩ := by
  have evaluates := Evaluator.run_evaluates returns
  simp only [overrideTransferEvaluator, bind_eq_ok, getAccount_eq_ok,
    getAsset_eq_ok, fcAssert_eq_ok] at evaluates
  obtain ⟨assetType, isAsset, _, _, _, _, fromAccount, isSource, toAccount,
    isTarget, _, targetAllowed, _, sourceAllowed, _⟩ := evaluates
  exact
    { source := ⟨fromAccount, assetType, isSource, isAsset, sourceAllowed⟩
      target := ⟨toAccount, assetType, isTarget, isAsset, targetAllowed⟩
      issuer := fun notIssuer => Bool.noConfusion notIssuer }

/-- What a proxy transfer checks: the two accounts that it names. -/
theorem proxyTransfer_enforced {verify : ProxyTransferParams → Nat → Bool}
    {o : ProxyTransferOperation}
    (returns : (proxyTransferEvaluator verify required o).run db = .ok after) :
    Enforced db
      ⟨o.requestParams.source, o.requestParams.target,
        o.requestParams.amount.assetId, false⟩ := by
  have evaluates := Evaluator.run_evaluates returns
  simp only [proxyTransferEvaluator, bind_eq_ok] at evaluates
  obtain ⟨_, _, _, _, _, _, _, _, _, _, _, _, _, _, _, _, _, _, _, checks, _⟩ :=
    evaluates
  exact checkWhitelisted_enforced checks

theorem claim_checked {o : WithdrawPermissionClaimOperation}
    (returns :
      (withdrawPermissionClaimEvaluator required o).run db = .ok after) :
    Authorised db o.withdrawToAccount o.amountToWithdraw.assetId ∧
      IssuerParty db
        ⟨o.withdrawFromAccount, o.withdrawToAccount,
          o.amountToWithdraw.assetId, false⟩ := by
  have evaluates := Evaluator.run_evaluates returns
  simp only [withdrawPermissionClaimEvaluator, bind_eq_ok, getAccount_eq_ok,
    getAsset_eq_ok, fcAssert_eq_ok, orThrow_eq_ok] at evaluates
  obtain ⟨permit, _, _, _, _, isTarget, _, isSource, _, _, _, _, _, _, _, _,
    a, isAsset, _, restricted, source, foundSource, _, _, _, _, allowed⟩ :=
    evaluates
  refine ⟨⟨source, a, foundSource, isAsset, allowed⟩, a, isAsset, ?_⟩
  intro isRestricted
  rcases restricted isRestricted with isIssuer | isIssuer
  · exact .inr (isTarget.symm.trans isIssuer.symm)
  · exact .inl (isSource.symm.trans isIssuer.symm)

/-- The restrictions hold of every move of a path that succeeds exactly if what
the path leaves unchecked holds. -/
theorem restrictions_enforced_iff {path : Path}
    (succeeds : path.run db = .ok after) :
    (∀ move ∈ path.moves, Enforced db move) ↔ path.OmittedChecks db := by
  cases path with
  | transfer required o =>
      refine ⟨fun _ => trivial, ?_⟩
      intro _ move member
      rw [mem_between member]
      exact transfer_enforced succeeds
  | overrideTransfer required o =>
      refine ⟨fun _ => trivial, ?_⟩
      intro _ move member
      rw [mem_between member]
      exact overrideTransfer_enforced succeeds
  | inlineTransfer required o => exact Iff.rfl
  | proxyTransfer verify required o =>
      have named := proxyTransfer_enforced succeeds
      constructor
      · intro enforced move member
        have ofMove := enforced move (List.mem_append_right _ member)
        refine ⟨ofMove.target, ofMove.issuer ?_⟩
        rw [mem_commissionMoves member]
      · intro omitted move member
        rcases List.mem_append.mp member with toTarget | commission
        · rw [mem_between toTarget]
          exact named
        · obtain ⟨target, issuer⟩ := omitted move commission
          refine ⟨?_, target, fun _ => issuer⟩
          rw [mem_commissionMoves commission]
          exact named.source
  | withdrawPermissionClaim required o =>
      obtain ⟨target, issuer⟩ := claim_checked succeeds
      constructor
      · intro enforced move member
        exact (enforced move member).source
      · intro omitted move member
        have source := omitted move member
        rw [mem_between member] at source ⊢
        exact ⟨source, target, fun _ => issuer⟩
  | contractCall actions checks execOne charge o => exact Iff.rfl
  | interContractCall execOne o => exact Iff.rfl

end Enforcement

section Sample

/-- An asset that only accounts on a whitelist may hold, and that the issuer has
to be a party to every transfer of. -/
def restrictedAsset : AssetObject :=
  { plainAsset with
    issuer := 1
    options :=
      { plainAsset.options with
        flags := whiteList ||| transferRestricted
        whitelistAuthorities := [9] } }

/-- Accounts 1 and 2 are on the whitelist, account 0 is not, and account 3 is a
contract.  Accounts 1 and 2 may claim from account 0. -/
def restrictedChain : Database :=
  { plainDatabase with
    assets := [plainAsset, plainAsset, restrictedAsset]
    accounts :=
      [plainAccount 10, { plainAccount 11 with whitelistingAccounts := [9] },
        { plainAccount 12 with whitelistingAccounts := [9] },
        { plainAccount 13 with hasCode := true }]
    balances := [⟨0, 2, 100⟩, ⟨1, 2, 100⟩]
    permissions :=
      [⟨0, 0, 1, ⟨50, 2⟩, 86400, 1610000000, 1620000000, 0⟩] }

def issuerTransfer : Path :=
  .transfer none ⟨⟨0, 1⟩, 1, 2, ⟨10, 2⟩⟩

def issuerClaim : Path :=
  .withdrawPermissionClaim none ⟨⟨0, 1⟩, 0, 0, 1, ⟨10, 2⟩⟩

/-- An inline transfer between two accounts neither of which is the issuer. -/
def strangersTransfer : Path :=
  .inlineTransfer none ⟨⟨0, 1⟩, 0, 3, ⟨10, 2⟩, ""⟩

/-- The account pays the contract. -/
def contractPayment : Path :=
  .contractCall (fun _ => [⟨"deposit", true⟩]) (fun _ => .ok ()) .ok .ok
    ⟨⟨0, 1⟩, 0, 3, some ⟨10, 2⟩, "deposit"⟩

theorem restrictions_enforced_iff_transfer :
    (∃ after, issuerTransfer.run restrictedChain = .ok after) ∧
      ∀ move ∈ issuerTransfer.moves, Enforced restrictedChain move := by
  have succeeds :
      issuerTransfer.run restrictedChain =
        .ok { restrictedChain with
          balances := [⟨0, 2, 100⟩, ⟨1, 2, 90⟩, ⟨2, 2, 10⟩] } := by
    decide +kernel
  exact ⟨⟨_, succeeds⟩, (restrictions_enforced_iff succeeds).mpr trivial⟩

theorem not_authorised_zero : ¬ Authorised restrictedChain 0 2 := by
  rintro ⟨acct, a, isAccount, isAsset, authorised⟩
  obtain rfl := Option.some.inj isAccount
  obtain rfl := Option.some.inj isAsset
  exact absurd authorised (by decide)

/-- The account that is not on the whitelist is debited by a claim, by an inline
transfer that the issuer is no party to, and by the payment of a contract call. -/
theorem restrictions_not_enforced :
    (∃ after, issuerClaim.run restrictedChain = .ok after) ∧
    (¬ ∀ move ∈ issuerClaim.moves, Enforced restrictedChain move) ∧
    (∃ after, strangersTransfer.run restrictedChain = .ok after) ∧
    (¬ ∀ move ∈ strangersTransfer.moves, Enforced restrictedChain move) ∧
    (∃ after, contractPayment.run restrictedChain = .ok after) ∧
    ¬ ∀ move ∈ contractPayment.moves, Enforced restrictedChain move := by
  refine ⟨⟨_, by rfl⟩, ?_, ⟨_, by rfl⟩, ?_, ⟨_, by rfl⟩, ?_⟩
  · intro enforced
    exact not_authorised_zero (enforced _ List.mem_cons_self).source
  · intro enforced
    exact not_authorised_zero (enforced _ List.mem_cons_self).source
  · intro enforced
    exact not_authorised_zero (enforced _ List.mem_cons_self).source

end Sample

end GxbCore.Ledger
