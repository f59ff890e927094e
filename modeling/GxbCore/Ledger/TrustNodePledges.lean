import GxbCore.Ledger.TrustNodes

/-!
# What a trust node has pledged

After the hard fork each operation of a trust node brings its pledge to the
amount that is required at that time, and takes it from the balance of the
account: balance, pledge and vesting balances of an account together only change
by the fee.  Whatever a former operation has left in the static members of the
helper does not matter.
-/

namespace GxbCore.Ledger

open Database PledgeHelper

namespace Database

def pledged (db : Database) (account : AccountId) : Int :=
  total
    (fun p =>
      if p.ownerAccount = account then
        inAsset 1 p.amount.assetId p.amount.amount
      else 0)
    db.pledges

def vesting (db : Database) (account : AccountId) : Int :=
  total
    (fun v =>
      if v.owner = account then
        inAsset 1 v.balance.assetId v.balance.amount
      else 0)
    db.vestings

/-- Balance, pledge and vesting balances together. -/
def coreWealth (db : Database) (account : AccountId) : Int :=
  (db.getBalance account 1).amount + db.pledged account + db.vesting account

def HasValidRole (db : Database) (account : AccountId) : Prop :=
  (∃ w ∈ db.witnesses, w.witnessAccount = account ∧ w.isValid = true) ∨
    ∃ m ∈ db.committeeMembers,
      m.committeeMemberAccount = account ∧ m.isValid = true

end Database

/-- One pledge, one witness and one committee member for an account, and pledges
in the core asset only. -/
structure TrustNodes (db : Database) : Prop where
  pledges : (db.pledges.map (·.ownerAccount)).Nodup
  inCore : ∀ p ∈ db.pledges, p.amount.assetId = 1
  witnesses : (db.witnesses.map (·.witnessAccount)).Nodup
  committeeMembers :
    (db.committeeMembers.map (·.committeeMemberAccount)).Nodup

section Pledged

variable {db : Database} {account : AccountId} {p : TrustNodePledge}

theorem pledged_of_none
    (missing : db.pledges.find? (isPledgeOf account) = none) :
    db.pledged account = 0 := by
  refine total_eq_zero ?_
  intro p member
  refine if_neg ?_
  intro isOwner
  have notOwner := List.find?_eq_none.mp missing p member
  exact notOwner (by simpa [isPledgeOf] using isOwner)

theorem TrustNodes.pledged_of_find (nodes : TrustNodes db)
    (found : db.pledges.find? (isPledgeOf account) = some p) :
    p.ownerAccount = account ∧ p.amount.assetId = 1 ∧
      db.pledged account = p.amount.amount := by
  have isOwner : p.ownerAccount = account := by
    simpa [isPledgeOf] using List.find?_some found
  have inCore := nodes.inCore p (List.mem_of_find?_eq_some found)
  refine ⟨isOwner, inCore, ?_⟩
  unfold pledged
  rw [total_at_key nodes.pledges found]
  simp [inAsset, inCore]

end Pledged

section Roles

variable {db middle after : Database}

/-- A change to the roles, or to what is not modelled as held by an account. -/
structure RoleChange (db after : Database) : Prop where
  pledges : after.pledges = db.pledges
  balances : after.balances = db.balances
  vestings : after.vestings = db.vestings
  parameters : after.parameters = db.parameters
  properties : after.properties = db.properties
  trustNodes : TrustNodes db → TrustNodes after

namespace RoleChange

theorem refl (db : Database) : RoleChange db db :=
  ⟨rfl, rfl, rfl, rfl, rfl, fun nodes => nodes⟩

theorem trans (first : RoleChange db middle) (later : RoleChange middle after) :
    RoleChange db after where
  pledges := later.pledges.trans first.pledges
  balances := later.balances.trans first.balances
  vestings := later.vestings.trans first.vestings
  parameters := later.parameters.trans first.parameters
  properties := later.properties.trans first.properties
  trustNodes nodes := later.trustNodes (first.trustNodes nodes)

theorem pledged_eq (change : RoleChange db after) (account : AccountId) :
    after.pledged account = db.pledged account := by
  unfold pledged
  rw [change.pledges]

theorem coreWealth_eq (change : RoleChange db after) (account : AccountId) :
    after.coreWealth account = db.coreWealth account := by
  unfold coreWealth getBalance vesting
  rw [change.pledged_eq, change.balances, change.vestings]

end RoleChange

/-- What comes before and after is not affected by the vote ids and by what the
fee has booked. -/
theorem roleChange_booked (assets : List AssetObject)
    (accounts : List AccountObject) (nextAvailableVoteId : Nat) :
    RoleChange db
      { db with
        assets := assets
        accounts := accounts
        nextAvailableVoteId := nextAvailableVoteId } :=
  ⟨rfl, rfl, rfl, rfl, rfl, fun nodes => { nodes with }⟩

/-- Replacing a row by one with the same key keeps the keys. -/
theorem map_set_of_eq {α β : Type} {shows : α → β} {rows : List α}
    {place : Nat} {row fresh : α} (found : rows[place]? = some row)
    (same : shows fresh = shows row) :
    (rows.set place fresh).map shows = rows.map shows := by
  rw [List.map_set, same]
  refine List.ext_getElem? ?_
  intro position
  rw [List.getElem?_set]
  split
  · next here =>
      subst here
      rw [List.getElem?_map, found]
      simp only [List.length_map, Option.map_some, ite_eq_left_iff]
      intro outside
      obtain ⟨inside, _⟩ := List.getElem?_eq_some_iff.mp found
      exact absurd inside outside
  · rfl

theorem roleChange_setWitness {id : WitnessId} {w fresh : Witness}
    (found : db.witnesses[id]? = some w)
    (same : fresh.witnessAccount = w.witnessAccount) :
    RoleChange db (db.setWitness id fresh) := by
  refine ⟨rfl, rfl, rfl, rfl, rfl, ?_⟩
  intro nodes
  refine { nodes with witnesses := ?_ }
  simp only [setWitness]
  rw [map_set_of_eq found same]
  exact nodes.witnesses

theorem roleChange_setCommitteeMember {id : CommitteeMemberId}
    {m fresh : CommitteeMember} (found : db.committeeMembers[id]? = some m)
    (same : fresh.committeeMemberAccount = m.committeeMemberAccount) :
    RoleChange db (db.setCommitteeMember id fresh) := by
  refine ⟨rfl, rfl, rfl, rfl, rfl, ?_⟩
  intro nodes
  refine { nodes with committeeMembers := ?_ }
  simp only [setCommitteeMember]
  rw [map_set_of_eq found same]
  exact nodes.committeeMembers

theorem createWitness_roleChange {w : Witness}
    (returns : db.createWitness w = .ok after) : RoleChange db after := by
  simp only [createWitness, bind_eq_ok, fcAssert_eq_ok] at returns
  obtain ⟨_, unused, returns⟩ := returns
  cases returns
  refine ⟨rfl, rfl, rfl, rfl, rfl, ?_⟩
  intro nodes
  refine { nodes with witnesses := nodup_map_concat nodes.witnesses ?_ }
  intro other member
  have differs :=
    List.find?_eq_none.mp (Option.isNone_iff_eq_none.mp unused) other member
  simpa [isWitnessOf] using differs

theorem createCommitteeMember_roleChange {m : CommitteeMember}
    (returns : db.createCommitteeMember m = .ok after) :
    RoleChange db after := by
  simp only [createCommitteeMember, bind_eq_ok, fcAssert_eq_ok] at returns
  obtain ⟨_, unused, returns⟩ := returns
  cases returns
  refine ⟨rfl, rfl, rfl, rfl, rfl, ?_⟩
  intro nodes
  refine { nodes with
    committeeMembers := nodup_map_concat nodes.committeeMembers ?_ }
  intro other member
  have differs :=
    List.find?_eq_none.mp (Option.isNone_iff_eq_none.mp unused) other member
  simpa [isMemberOf] using differs

theorem getCommitteeMember_eq_ok {id : CommitteeMemberId}
    {m : CommitteeMember} :
    db.getCommitteeMember id = .ok m ↔ db.committeeMembers[id]? = some m :=
  orThrow_eq_ok

end Roles

section Settles

variable {db middle after : Database} {account : AccountId}
  {helper : PledgeHelper}

/-- The pledge of the account is what is required, at its own expense. -/
structure Settles (db after : Database) (account : AccountId) : Prop where
  pledged : after.pledged account = db.parameters.trustNodePledge
  coreWealth : ∀ owner, after.coreWealth owner = db.coreWealth owner
  trustNodes : TrustNodes after
  parameters : after.parameters = db.parameters

theorem Settles.between (before : RoleChange db middle)
    {settled : Database} (settles : Settles middle settled account)
    (behind : RoleChange settled after) :
    Settles db after account where
  pledged := by
    rw [behind.pledged_eq, settles.pledged, before.parameters]
  coreWealth owner := by
    rw [behind.coreWealth_eq, settles.coreWealth, before.coreWealth_eq]
  trustNodes := behind.trustNodes settles.trustNodes
  parameters := by
    rw [behind.parameters, settles.parameters, before.parameters]

/-- The static members are those that the evaluation leaves for the account. -/
def HelperFits (helper : PledgeHelper) (db : Database) (account : AccountId) :
    Prop :=
  (db.pledges.find? (isPledgeOf account) = none ∧
    helper =
      { reset with pledgeToCharge := ⟨db.parameters.trustNodePledge, 1⟩ }) ∨
  ∃ p, db.pledges.find? (isPledgeOf account) = some p ∧
    helper =
      { reset with
        pledgeObjectExist := true
        pledgeObjPtr := some p.ownerAccount
        pledgeToCharge :=
          ⟨db.parameters.trustNodePledge - p.amount.amount, 1⟩ }

theorem HelperFits.of_roleChange (fits : HelperFits helper db account)
    (change : RoleChange db after) : HelperFits helper after account := by
  unfold HelperFits
  rw [change.pledges, change.parameters]
  exact fits

theorem evaluateAccount_fits
    (evaluated : (evaluateAccount db account).2 = .ok ()) :
    HelperFits (evaluateAccount db account).1 db account := by
  unfold evaluateAccount at evaluated ⊢
  by_cases nonneg : 0 ≤ db.parameters.trustNodePledge
  · simp only [nonneg, if_true] at evaluated ⊢
    cases found : db.pledges.find? (isPledgeOf account) with
    | none => exact .inl ⟨found, rfl⟩
    | some p =>
        simp only [found] at evaluated ⊢
        cases charged : Asset.minus ⟨db.parameters.trustNodePledge, 1⟩
            p.amount with
        | error fault =>
            simp only [charged] at evaluated
            cases evaluated
        | ok charge =>
            simp only
            obtain ⟨_, rfl⟩ := minus_eq_ok charged
            exact .inr ⟨p, found, rfl⟩
  · simp only [nonneg, if_false] at evaluated
    cases evaluated

theorem charge_coreWealth {charge : Asset} (inCore : charge.assetId = 1)
    (pledges : ∀ owner, middle.pledged owner =
      db.pledged owner + if owner = account then charge.amount else 0)
    (balances : middle.balances = db.balances)
    (vestings : middle.vestings = db.vestings)
    (charges : middle.adjustBalance account charge.neg = .ok after)
    (owner : AccountId) : after.coreWealth owner = db.coreWealth owner := by
  have balance := adjustBalance_getBalance charges owner 1
  have frame := adjustBalance_frame charges
  have samePledged : after.pledged owner = middle.pledged owner := by
    rw [frame]
    rfl
  have sameVesting : after.vesting owner = db.vesting owner := by
    rw [frame]
    unfold vesting
    rw [vestings]
  have sameBalance : (middle.getBalance owner 1).amount =
      (db.getBalance owner 1).amount := by
    unfold getBalance
    rw [balances]
  unfold coreWealth
  rw [samePledged, sameVesting, balance, sameBalance, pledges owner]
  simp only [Asset.neg, inCore, and_true]
  split
  · omega
  · omega

theorem charge_existing (nodes : TrustNodes db) {p : TrustNodePledge}
    {amount charge : Asset}
    (found : db.pledges.find? (isPledgeOf account) = some p)
    (inCore : charge.assetId = 1) (added : p.amount.plus charge = .ok amount)
    (charges :
      { db with
        pledges :=
          replaceFirst (isPledgeOf account) { p with amount := amount }
            db.pledges }.adjustBalance account charge.neg = .ok after) :
    after.pledged account = p.amount.amount + charge.amount ∧
      (∀ owner, after.coreWealth owner = db.coreWealth owner) ∧
      TrustNodes after := by
  obtain ⟨isOwner, pledgeInCore, isPledged⟩ := nodes.pledged_of_find found
  obtain ⟨_, rfl⟩ := plus_eq_ok added
  have frame := adjustBalance_frame charges
  have pledges : ∀ owner,
      { db with
        pledges :=
          replaceFirst (isPledgeOf account)
            { p with
              amount := ⟨p.amount.amount + charge.amount, p.amount.assetId⟩ }
            db.pledges }.pledged owner =
        db.pledged owner + if owner = account then charge.amount else 0 := by
    intro owner
    simp only [pledged, total_replaceFirst found, isOwner, pledgeInCore,
      inAsset, if_true]
    by_cases same : account = owner
    · simp [same]
      omega
    · simp [same, Ne.symm same]
  refine ⟨?_, charge_coreWealth inCore pledges rfl rfl charges, ?_⟩
  · have samePledged := pledges account
    rw [if_pos rfl, isPledged] at samePledged
    rw [frame]
    exact samePledged
  · rw [frame]
    refine { nodes with pledges := ?_, inCore := ?_ }
    · rw [map_replaceFirst found]
      · exact nodes.pledges
      · rfl
    · exact forall_replaceFirst nodes.inCore pledgeInCore

theorem charge_fresh (nodes : TrustNodes db) {charge : Asset}
    (missing : db.pledges.find? (isPledgeOf account) = none)
    (inCore : charge.assetId = 1)
    (creates : db.createPledge ⟨account, charge⟩ = .ok middle)
    (charges : middle.adjustBalance account charge.neg = .ok after) :
    after.pledged account = charge.amount ∧
      (∀ owner, after.coreWealth owner = db.coreWealth owner) ∧
      TrustNodes after := by
  simp only [createPledge, bind_eq_ok, fcAssert_eq_ok] at creates
  obtain ⟨_, _, creates⟩ := creates
  cases creates
  have frame := adjustBalance_frame charges
  have pledges : ∀ owner,
      { db with
        pledges :=
          db.pledges ++ [(⟨account, charge⟩ : TrustNodePledge)] }.pledged
          owner =
        db.pledged owner + if owner = account then charge.amount else 0 := by
    intro owner
    simp only [pledged, total_append, total_cons, total_nil, inAsset, inCore,
      if_true, add_zero]
    by_cases same : account = owner
    · simp [same]
    · simp [same, Ne.symm same]
  refine ⟨?_, charge_coreWealth inCore pledges rfl rfl charges, ?_⟩
  · have samePledged := pledges account
    rw [if_pos rfl, pledged_of_none missing, zero_add] at samePledged
    rw [frame]
    exact samePledged
  · rw [frame]
    refine { nodes with pledges := ?_, inCore := ?_ }
    · refine nodup_map_concat nodes.pledges ?_
      intro other member
      have differs := List.find?_eq_none.mp missing other member
      simpa [isPledgeOf] using differs
    · exact forall_concat nodes.inCore inCore

theorem applyAccount_settles (nodes : TrustNodes db)
    (fits : HelperFits helper db account)
    (returns : helper.applyAccount db account = .ok after) :
    Settles db after account := by
  unfold applyAccount at returns
  rcases fits with ⟨missing, rfl⟩ | ⟨p, found, rfl⟩
  · simp only [reset, Bool.false_eq_true, if_false] at returns
    split at returns
    · obtain ⟨middle, creates, charges⟩ := bind_eq_ok.mp returns
      obtain ⟨isPledged, wealth, nodesAfter⟩ :=
        charge_fresh nodes missing rfl creates charges
      refine ⟨isPledged, wealth, nodesAfter, ?_⟩
      have frame := adjustBalance_frame charges
      simp only [createPledge, bind_eq_ok, fcAssert_eq_ok] at creates
      obtain ⟨_, _, creates⟩ := creates
      cases creates
      rw [frame]
    · next nothing =>
        cases returns
        refine ⟨?_, fun _ => rfl, nodes, rfl⟩
        rw [pledged_of_none missing]
        omega
  · obtain ⟨isOwner, _, isPledged⟩ := nodes.pledged_of_find found
    simp only [isOwner, if_true] at returns
    split at returns
    · simp only [bind_eq_ok, orThrow_eq_ok, Option.some.injEq] at returns
      obtain ⟨_, rfl, q, foundAgain, amount, added, charges⟩ := returns
      cases found.symm.trans foundAgain
      obtain ⟨nowPledged, wealth, nodesAfter⟩ :=
        charge_existing nodes found rfl added charges
      refine ⟨?_, wealth, nodesAfter, ?_⟩
      · rw [nowPledged]
        change p.amount.amount +
          (db.parameters.trustNodePledge - p.amount.amount) = _
        omega
      · rw [adjustBalance_frame charges]
    · next nothing =>
        cases returns
        refine ⟨?_, fun _ => rfl, nodes, rfl⟩
        rw [isPledged]
        omega

end Settles

section Operations

variable {db after : Database} {account : AccountId} {helper : PledgeHelper}

theorem applyWitness_settles {witness : WitnessId} (nodes : TrustNodes db)
    (fits : HelperFits helper db account)
    (returns : helper.applyWitness db account witness = .ok after) :
    Settles db after account := by
  simp only [applyWitness, bind_eq_ok, getWitness_eq_ok] at returns
  obtain ⟨middle, applies, w, found, returns⟩ := returns
  cases returns
  exact (applyAccount_settles nodes fits applies).between (.refl db)
    (roleChange_setWitness found rfl)

theorem applyCommitteeMember_settles {member : CommitteeMemberId}
    (nodes : TrustNodes db) (fits : HelperFits helper db account)
    (returns : helper.applyCommitteeMember db account member = .ok after) :
    Settles db after account := by
  simp only [applyCommitteeMember, bind_eq_ok, getCommitteeMember_eq_ok]
    at returns
  obtain ⟨middle, applies, m, found, returns⟩ := returns
  cases returns
  exact (applyAccount_settles nodes fits applies).between (.refl db)
    (roleChange_setCommitteeMember found rfl)

/-- The pledge is settled, or it is too early for that. -/
def Brings (db after : Database) (account : AccountId) : Prop :=
  if afterHardfork1129 db then Settles db after account
  else RoleChange db after

theorem RoleChange.afterHardfork1129_eq (change : RoleChange db after) :
    afterHardfork1129 after = afterHardfork1129 db := by
  unfold afterHardfork1129 headBlockTime
  rw [change.properties]

theorem Brings.behind {middle : Database} (change : RoleChange db middle)
    (brings : Brings middle after account) : Brings db after account := by
  unfold Brings at brings ⊢
  rw [change.afterHardfork1129_eq] at brings
  split at brings
  · next late =>
      rw [if_pos late]
      exact brings.between change (.refl after)
  · next early =>
      rw [if_neg early]
      exact change.trans brings

/-- What the helper does where it is asked after the hard fork only. -/
theorem brings_of_gated
    (fits : afterHardfork1129 db = true → HelperFits helper db account)
    {settle : Except Fault Database}
    (settles :
      HelperFits helper db account → settle = .ok after → Settles db after account)
    (returns : (if afterHardfork1129 db then settle else .ok db) = .ok after) :
    Brings db after account := by
  unfold Brings
  split at returns
  · next late =>
      rw [if_pos late]
      exact settles (fits late) returns
  · next early =>
      cases returns
      rw [if_neg early]
      exact .refl db

theorem created_brings {middle : Database} (nodes : TrustNodes db)
    (fits : afterHardfork1129 db = true → HelperFits helper db account)
    (change : RoleChange db middle)
    (returns :
      (if afterHardfork1129 middle then helper.applyAccount middle account
        else .ok middle) = .ok after) : Brings db after account := by
  refine Brings.behind change ?_
  have nodesMiddle := change.trustNodes nodes
  refine brings_of_gated ?_ (applyAccount_settles nodesMiddle) returns
  intro late
  rw [change.afterHardfork1129_eq] at late
  exact (fits late).of_roleChange change

theorem witnessCreate_brings (nodes : TrustNodes db)
    {op : WitnessCreateOperation}
    (fits :
      afterHardfork1129 db = true → HelperFits helper db op.witnessAccount)
    (returns : op.doApply helper db = .ok after) :
    Brings db after op.witnessAccount := by
  simp only [WitnessCreateOperation.doApply, bind_eq_ok] at returns
  obtain ⟨middle, creates, returns⟩ := returns
  exact created_brings nodes fits
    ((roleChange_booked db.assets db.accounts
      (db.nextAvailableVoteId + 1)).trans (createWitness_roleChange creates))
    returns

theorem committeeMemberCreate_brings (nodes : TrustNodes db)
    {op : CommitteeMemberCreateOperation}
    (fits :
      afterHardfork1129 db = true →
        HelperFits helper db op.committeeMemberAccount)
    (returns : op.doApply helper db = .ok after) :
    Brings db after op.committeeMemberAccount := by
  simp only [CommitteeMemberCreateOperation.doApply, bind_eq_ok] at returns
  obtain ⟨middle, creates, returns⟩ := returns
  exact created_brings nodes fits
    ((roleChange_booked db.assets db.accounts
      (db.nextAvailableVoteId + 1)).trans (createCommitteeMember_roleChange creates))
    returns

theorem witnessUpdate_brings (nodes : TrustNodes db)
    {op : WitnessUpdateOperation}
    (fits :
      afterHardfork1129 db = true → HelperFits helper db op.witnessAccount)
    (returns : op.doApply helper db = .ok after) :
    Brings db after op.witnessAccount := by
  simp only [WitnessUpdateOperation.doApply, bind_eq_ok] at returns
  obtain ⟨_, _, returns⟩ := returns
  exact brings_of_gated fits (applyWitness_settles nodes) returns

theorem committeeMemberUpdate_brings (nodes : TrustNodes db)
    {op : CommitteeMemberUpdateOperation}
    (fits :
      afterHardfork1129 db = true →
        HelperFits helper db op.committeeMemberAccount)
    (returns : op.doApply helper db = .ok after) :
    Brings db after op.committeeMemberAccount := by
  simp only [CommitteeMemberUpdateOperation.doApply, bind_eq_ok] at returns
  obtain ⟨_, _, returns⟩ := returns
  exact brings_of_gated fits (applyCommitteeMember_settles nodes) returns

/-- A commission and a ban are changed in the witness before the pledge is
settled, at any time. -/
theorem changedWitness_settles (nodes : TrustNodes db)
    (fits : HelperFits helper db account) {witness : WitnessId} {w fresh : Witness}
    (found : db.witnesses[witness]? = some w)
    (returns :
      helper.applyWitness (db.setWitness witness fresh) account witness =
        .ok after)
    (same : fresh.witnessAccount = w.witnessAccount) :
    Settles db after account := by
  have change := roleChange_setWitness found same
  exact (applyWitness_settles (change.trustNodes nodes)
    (fits.of_roleChange change) returns).between change (.refl after)

theorem witnessSetCommission_settles (nodes : TrustNodes db)
    {op : WitnessSetCommissionOperation}
    (fits : HelperFits helper db op.witnessAccount)
    (returns : op.doApply helper db = .ok after) :
    Settles db after op.witnessAccount := by
  simp only [WitnessSetCommissionOperation.doApply, bind_eq_ok,
    getWitness_eq_ok] at returns
  obtain ⟨w, found, returns⟩ := returns
  exact changedWitness_settles nodes fits found returns rfl

theorem witnessUnbanned_settles (nodes : TrustNodes db)
    {op : WitnessUnbannedOperation}
    (fits : HelperFits helper db op.witnessAccount)
    (returns : op.doApply helper db = .ok after) :
    Settles db after op.witnessAccount := by
  simp only [WitnessUnbannedOperation.doApply, bind_eq_ok,
    getWitness_eq_ok] at returns
  obtain ⟨w, found, returns⟩ := returns
  exact changedWitness_settles nodes fits found returns rfl

end Operations

section Withdraw

variable {db middle after : Database} {account : AccountId}
  {helper : PledgeHelper}

/-- The pledge of the account is gone into a vesting balance, and its roles are
invalid. -/
structure Withdraws (db after : Database) (account : AccountId) : Prop where
  coreWealth :
    db.currentCoreAssetId = 1 →
      ∀ owner, after.coreWealth owner = db.coreWealth owner
  trustNodes : TrustNodes after
  invalid : ¬ after.HasValidRole account

/-- The static members are those that the evaluation of a withdrawal leaves. -/
def FitsWithdraw (helper : PledgeHelper) (db : Database)
    (account : AccountId) : Prop :=
  ∃ p, db.pledges.find? (isPledgeOf account) = some p ∧
    helper =
      { reset with
        pledgeObjPtr := some p.ownerAccount
        witnessObjPtr := db.witnesses.findIdx? (isWitnessOf account)
        committeeObjPtr :=
          db.committeeMembers.findIdx? (isMemberOf account) }

theorem evaluateWithdraw_fits
    (evaluated : (evaluateWithdraw db account).2 = .ok ()) :
    FitsWithdraw (evaluateWithdraw db account).1 db account := by
  unfold evaluateWithdraw at evaluated ⊢
  cases found : db.pledges.find? (isPledgeOf account) with
  | none =>
      simp only [found] at evaluated
      cases evaluated
  | some p => exact ⟨p, found, rfl⟩

variable {newVbid : Option VestingBalanceId}

/-- A deposit without a vesting balance to reuse makes a new one. -/
theorem depositLazyVesting_vesting {amount : Int} {seconds : UInt32}
    (isCore : db.currentCoreAssetId = 1)
    (returns :
      db.depositLazyVesting none amount seconds account true =
        .ok (newVbid, after))
    (owner : AccountId) :
    after.vesting owner =
      db.vesting owner + if owner = account then amount else 0 := by
  unfold depositLazyVesting at returns
  split at returns
  · next nothing =>
      cases returns
      simp [nothing]
  · simp only [findReusable, bind_eq_ok, Except.ok.injEq] at returns
    obtain ⟨reusable, rfl, returns⟩ := returns
    cases returns
    simp only [vesting, total_append, total_cons, total_nil, lazyVesting,
      isCore, inAsset, if_true, add_zero]
    by_cases same : account = owner
    · simp [same]
    · simp [same, Ne.symm same]

theorem withdrawPledge (nodes : TrustNodes db) {p : TrustNodePledge}
    (found : db.pledges.find? (isPledgeOf account) = some p) {seconds : UInt32}
    (deposits :
      db.depositLazyVesting none p.amount.amount seconds account true =
        .ok (newVbid, middle)) :
    (db.currentCoreAssetId = 1 → ∀ owner,
      { middle with
        pledges :=
          middle.pledges.eraseP (isPledgeOf account) }.coreWealth owner =
        db.coreWealth owner) ∧
      TrustNodes
        { middle with
          pledges := middle.pledges.eraseP (isPledgeOf account) } := by
  obtain ⟨isOwner, inCore, _⟩ := nodes.pledged_of_find found
  have frame := depositLazyVesting_frame deposits
  have samePledges : middle.pledges = db.pledges := by
    rw [frame]
  constructor
  · intro isCore owner
    have vested := depositLazyVesting_vesting isCore deposits owner
    have erased : total
        (fun q : TrustNodePledge =>
          if q.ownerAccount = owner then
            inAsset 1 q.amount.assetId q.amount.amount
          else 0)
        (middle.pledges.eraseP (isPledgeOf account)) =
          db.pledged owner -
            if owner = account then p.amount.amount else 0 := by
      rw [samePledges, total_eraseP found, isOwner, inCore]
      unfold pledged inAsset
      by_cases same : account = owner
      · simp [same]
      · simp [same, Ne.symm same]
    have sameBalance : (middle.getBalance owner 1).amount =
        (db.getBalance owner 1).amount := by
      rw [frame]
      rfl
    have sum : { middle with
        pledges :=
          middle.pledges.eraseP (isPledgeOf account) }.coreWealth owner =
        (middle.getBalance owner 1).amount +
          (db.pledged owner -
            if owner = account then p.amount.amount else 0) +
          middle.vesting owner := by
      rw [← erased]
      rfl
    rw [sum, sameBalance, vested]
    unfold coreWealth
    omega
  · rw [frame]
    exact { nodes with
      pledges := nodup_map_eraseP nodes.pledges _
      inCore := forall_eraseP nodes.inCore }

theorem invalidateWitness_ok (nodes : TrustNodes db)
    (points :
      helper.witnessObjPtr = db.witnesses.findIdx? (isWitnessOf account))
    (returns : helper.invalidateWitness db = .ok after) :
    RoleChange db after ∧
      after.committeeMembers = db.committeeMembers ∧
      ∀ w ∈ after.witnesses, w.witnessAccount = account →
        w.isValid = false := by
  unfold invalidateWitness at returns
  cases pointed : helper.witnessObjPtr with
  | none =>
      simp only [pointed] at returns
      cases returns
      refine ⟨.refl db, rfl, ?_⟩
      intro w member isAccount
      rw [pointed] at points
      have other := List.findIdx?_eq_none_iff.mp points.symm w member
      simp [isWitnessOf, isAccount] at other
  | some id =>
      simp only [pointed, bind_eq_ok, getWitness_eq_ok] at returns
      obtain ⟨w, found, returns⟩ := returns
      cases returns
      refine ⟨roleChange_setWitness found rfl, rfl, ?_⟩
      intro other member isAccount
      rw [pointed] at points
      have isFresh :=
        eq_fresh_of_mem_set nodes.witnesses points.symm member isAccount
      rw [isFresh]

theorem invalidateCommitteeMember_ok (nodes : TrustNodes db)
    (points :
      helper.committeeObjPtr =
        db.committeeMembers.findIdx? (isMemberOf account))
    (returns : helper.invalidateCommitteeMember db = .ok after) :
    RoleChange db after ∧ after.witnesses = db.witnesses ∧
      ∀ m ∈ after.committeeMembers, m.committeeMemberAccount = account →
        m.isValid = false := by
  unfold invalidateCommitteeMember at returns
  cases pointed : helper.committeeObjPtr with
  | none =>
      simp only [pointed] at returns
      cases returns
      refine ⟨.refl db, rfl, ?_⟩
      intro m member isAccount
      rw [pointed] at points
      have other := List.findIdx?_eq_none_iff.mp points.symm m member
      simp [isMemberOf, isAccount] at other
  | some id =>
      simp only [pointed, bind_eq_ok, getCommitteeMember_eq_ok] at returns
      obtain ⟨m, found, returns⟩ := returns
      cases returns
      refine ⟨roleChange_setCommitteeMember found rfl, rfl, ?_⟩
      intro other member isAccount
      rw [pointed] at points
      have isFresh :=
        eq_fresh_of_mem_set nodes.committeeMembers points.symm member
          isAccount
      rw [isFresh]

theorem applyWithdraw_withdraws (nodes : TrustNodes db)
    (fits : FitsWithdraw helper db account)
    (returns : helper.applyWithdraw db account = .ok after) :
    Withdraws db after account := by
  obtain ⟨p, found, isHelper⟩ := fits
  obtain ⟨isOwner, _, _⟩ := nodes.pledged_of_find found
  simp only [applyWithdraw, isHelper, isOwner, bind_eq_ok, orThrow_eq_ok,
    Option.some.injEq, Prod.exists] at returns
  obtain ⟨_, rfl, q, foundAgain, newVbid, middle, deposits, unwitnessed,
    witnessDone, memberDone⟩ := returns
  cases found.symm.trans foundAgain
  obtain ⟨wealth, nodesMiddle⟩ := withdrawPledge nodes found deposits
  have frame := depositLazyVesting_frame deposits
  have sameWitnesses : middle.witnesses = db.witnesses := by
    rw [frame]
  have sameMembers : middle.committeeMembers = db.committeeMembers := by
    rw [frame]
  obtain ⟨change, keptMembers, noWitness⟩ :=
    invalidateWitness_ok nodesMiddle (by rw [← sameWitnesses]) witnessDone
  obtain ⟨changeLater, keptWitnesses, noMember⟩ :=
    invalidateCommitteeMember_ok (change.trustNodes nodesMiddle)
      (by rw [keptMembers, ← sameMembers]) memberDone
  refine ⟨?_, ?_, ?_⟩
  · intro isCore owner
    rw [changeLater.coreWealth_eq, change.coreWealth_eq]
    exact wealth isCore owner
  · exact changeLater.trustNodes (change.trustNodes nodesMiddle)
  · rintro (⟨w, member, isAccount, isValid⟩ | ⟨m, member, isAccount, isValid⟩)
    · rw [keptWitnesses] at member
      rw [noWitness w member isAccount] at isValid
      cases isValid
    · rw [noMember m member isAccount] at isValid
      cases isValid

end Withdraw

section Evaluation

variable {db after : Database} {before : PledgeHelper} {account : AccountId}
  {check : Except Fault Unit}

theorem unless_ok {rest : Evaluation}
    (evaluated : (Evaluation.unless before check rest).2 = .ok ()) :
    Evaluation.unless before check rest = rest := by
  cases check with
  | error fault => cases evaluated
  | ok _ => rfl

theorem andThen_ok {first : Evaluation}
    (evaluated : (first.andThen check).2 = .ok ()) : first.2 = .ok () := by
  unfold Evaluation.andThen at evaluated
  cases isFirst : first.2 with
  | error fault =>
      rw [isFirst] at evaluated
      cases evaluated
  | ok _ => rfl

theorem unless_gated_fits
    (evaluated :
      (Evaluation.unless before check (evaluateGated before db account)).2 =
        .ok ())
    (late : afterHardfork1129 db = true) :
    HelperFits
      (Evaluation.unless before check (evaluateGated before db account)).1
      db account := by
  have same := unless_ok evaluated
  rw [same] at evaluated ⊢
  unfold evaluateGated at evaluated ⊢
  rw [if_pos late] at evaluated ⊢
  exact evaluateAccount_fits evaluated

/-- What an operation does to the pledges, once its fee is booked. -/
theorem doApply_cases {op : TrustNodeOperation} {assets : List AssetObject}
    {accounts : List AccountObject} (nodes : TrustNodes db)
    (evaluated : (op.doEvaluate before db).2 = .ok ())
    (returns :
      op.doApply (op.doEvaluate before db).1
        { db with assets := assets, accounts := accounts } = .ok after) :
    (∃ withdraw, op = .pledgeWithdraw withdraw ∧
        Withdraws { db with assets := assets, accounts := accounts } after
          op.account) ∨
      (∀ withdraw, op ≠ .pledgeWithdraw withdraw) ∧
        (Settles { db with assets := assets, accounts := accounts } after
            op.account ∨
          Brings { db with assets := assets, accounts := accounts } after
            op.account) := by
  have booked : TrustNodes { db with assets := assets, accounts := accounts } :=
    { nodes with }
  cases op with
  | witnessCreate op =>
      refine .inr ⟨nofun, .inr (witnessCreate_brings booked ?_ returns)⟩
      exact unless_gated_fits evaluated
  | witnessUpdate op =>
      refine .inr ⟨nofun, .inr (witnessUpdate_brings booked ?_ returns)⟩
      exact unless_gated_fits evaluated
  | witnessSetCommission op =>
      refine .inr
        ⟨nofun, .inl (witnessSetCommission_settles booked ?_ returns)⟩
      simp only [TrustNodeOperation.doEvaluate,
        WitnessSetCommissionOperation.doEvaluate] at evaluated ⊢
      have same := unless_ok evaluated
      rw [same] at evaluated ⊢
      exact evaluateAccount_fits (andThen_ok evaluated)
  | witnessUnbanned op =>
      refine .inr ⟨nofun, .inl (witnessUnbanned_settles booked ?_ returns)⟩
      exact evaluateAccount_fits (andThen_ok evaluated)
  | pledgeWithdraw op =>
      refine .inl ⟨op, rfl, applyWithdraw_withdraws booked ?_ returns⟩
      exact evaluateWithdraw_fits evaluated
  | committeeMemberCreate op =>
      refine .inr
        ⟨nofun, .inr (committeeMemberCreate_brings booked ?_ returns)⟩
      exact unless_gated_fits evaluated
  | committeeMemberUpdate op =>
      refine .inr
        ⟨nofun, .inr (committeeMemberUpdate_brings booked ?_ returns)⟩
      exact unless_gated_fits evaluated

end Evaluation

section Runs

variable {db after : Database} {op : TrustNodeOperation}
  {requiredFee : Option Int} {helper : PledgeHelper}

/-- What the fee of the operation takes from an account in the core asset. -/
def TrustNodeOperation.feeTaken (op : TrustNodeOperation)
    (account : AccountId) : Int :=
  if account = op.account then inAsset 1 op.fee.assetId op.fee.amount else 0

theorem run_trustNodes (nodes : TrustNodes db)
    (returns : op.run requiredFee helper db = .ok after) :
    TrustNodes after := by
  obtain ⟨coreFee, assets, accounts, applied, evaluated, applies, charges⟩ :=
    run_applies (fun _ _ => rfl) returns
  have nodesApplied : TrustNodes applied := by
    rcases doApply_cases nodes evaluated applies with
      ⟨_, _, withdraws⟩ | ⟨_, settles | brings⟩
    · exact withdraws.trustNodes
    · exact settles.trustNodes
    · unfold Brings at brings
      split at brings
      · exact brings.trustNodes
      · exact brings.trustNodes { nodes with }
  rw [adjustBalance_frame charges]
  exact { nodesApplied with }

theorem fee_coreWealth {applied : Database} {account : AccountId}
    {fee : Asset} (charges : applied.adjustBalance account fee.neg = .ok after)
    (owner : AccountId) :
    after.coreWealth owner =
      applied.coreWealth owner -
        if owner = account then inAsset 1 fee.assetId fee.amount else 0 := by
  have balance := adjustBalance_getBalance charges owner 1
  have frame := adjustBalance_frame charges
  have same : after.coreWealth owner =
      (after.getBalance owner 1).amount + applied.pledged owner +
        applied.vesting owner := by
    unfold coreWealth
    rw [frame]
    rfl
  rw [same, balance]
  unfold coreWealth
  simp only [Asset.neg, inAsset]
  by_cases isOwner : owner = account
  · by_cases inCore : fee.assetId = 1
    · simp [isOwner, inCore]
      omega
    · simp [isOwner, inCore, Ne.symm inCore]
  · simp [isOwner]

theorem core_of_late (late : HARDFORK_1129_TIME < db.headBlockTime) :
    db.currentCoreAssetId = 1 := by
  unfold currentCoreAssetId
  refine if_pos ?_
  have order : HARDFORK_1008_TIME < HARDFORK_1129_TIME := by decide
  exact UInt32.lt_trans order late

theorem run_late (nodes : TrustNodes db)
    (late : HARDFORK_1129_TIME < db.headBlockTime)
    (returns : op.run requiredFee helper db = .ok after) :
    (∀ account,
      after.coreWealth account =
        db.coreWealth account - op.feeTaken account) ∧
    ((∃ withdraw, op = .pledgeWithdraw withdraw) →
      ¬ after.HasValidRole op.account) ∧
    ((∀ withdraw, op ≠ .pledgeWithdraw withdraw) →
      after.pledged op.account = after.parameters.trustNodePledge) := by
  obtain ⟨coreFee, assets, accounts, applied, evaluated, applies, charges⟩ :=
    run_applies (fun _ _ => rfl) returns
  have frame := adjustBalance_frame charges
  have wealth := fee_coreWealth charges
  rcases doApply_cases nodes evaluated applies with
    ⟨withdraw, isWithdraw, withdraws⟩ | ⟨notWithdraw, settled⟩
  · refine ⟨?_, ?_, ?_⟩
    · intro account
      rw [wealth account, withdraws.coreWealth (core_of_late late) account]
      rfl
    · intro _
      rw [frame]
      exact withdraws.invalid
    · intro others
      exact absurd isWithdraw (others withdraw)
  · have settles :
        Settles { db with assets := assets, accounts := accounts } applied
          op.account := by
      rcases settled with settles | brings
      · exact settles
      · unfold Brings at brings
        have isLate : afterHardfork1129
            { db with assets := assets, accounts := accounts } = true :=
          decide_eq_true late
        rw [if_pos isLate] at brings
        exact brings
    refine ⟨?_, ?_, ?_⟩
    · intro account
      rw [wealth account, settles.coreWealth account]
      rfl
    · rintro ⟨withdraw, isWithdraw⟩
      exact absurd isWithdraw (notWithdraw withdraw)
    · intro _
      rw [frame]
      change applied.pledged op.account = applied.parameters.trustNodePledge
      rw [settles.pledged, settles.parameters]

/-- The states reached by operations of trust nodes, with anything in between
that leaves pledges and the accounts of the roles alone.  An operation may find
anything in the static members. -/
inductive TrustRun : Database → Prop
  | start (db : Database) (noPledge : db.pledges = [])
      (witnesses : (db.witnesses.map (·.witnessAccount)).Nodup)
      (committeeMembers :
        (db.committeeMembers.map (·.committeeMemberAccount)).Nodup) :
      TrustRun db
  | operation {db after : Database} (before : TrustRun db)
      (op : TrustNodeOperation) (requiredFee : Option Int)
      (helper : PledgeHelper)
      (returns : op.run requiredFee helper db = .ok after) :
      TrustRun after
  | elsewhere {db after : Database} (before : TrustRun db)
      (pledges : after.pledges = db.pledges)
      (witnesses :
        after.witnesses.map (·.witnessAccount) =
          db.witnesses.map (·.witnessAccount))
      (committeeMembers :
        after.committeeMembers.map (·.committeeMemberAccount) =
          db.committeeMembers.map (·.committeeMemberAccount)) :
      TrustRun after

theorem TrustRun.trustNodes (run : TrustRun db) : TrustNodes db := by
  induction run with
  | start db noPledge witnesses committeeMembers =>
      refine ⟨?_, ?_, witnesses, committeeMembers⟩
      · rw [noPledge]
        exact List.nodup_nil
      · rw [noPledge]
        intro p member
        cases member
  | operation before op requiredFee helper returns ih =>
      exact run_trustNodes ih returns
  | elsewhere before pledges witnesses committeeMembers ih =>
      refine ⟨?_, ?_, ?_, ?_⟩
      · rw [pledges]
        exact ih.pledges
      · rw [pledges]
        exact ih.inCore
      · rw [witnesses]
        exact ih.witnesses
      · rw [committeeMembers]
        exact ih.committeeMembers

/-- An account has at most one pledge.  After the hard fork an operation takes
its fee and otherwise leaves everybody what they have, the pledge of its account
is what is required if a role of it is valid, and after a withdrawal none is. -/
theorem trust_node_pledges (run : TrustRun db) :
    (∀ account, db.pledges.countP (isPledgeOf account) ≤ 1) ∧
    ∀ (op : TrustNodeOperation) (requiredFee : Option Int)
      (helper : PledgeHelper) (after : Database),
      HARDFORK_1129_TIME < db.headBlockTime →
      op.run requiredFee helper db = .ok after →
        (∀ account,
          after.coreWealth account =
            db.coreWealth account - op.feeTaken account) ∧
        (after.HasValidRole op.account →
          after.pledged op.account = after.parameters.trustNodePledge) ∧
        ((∃ withdraw, op = .pledgeWithdraw withdraw) →
          ¬ after.HasValidRole op.account) := by
  have nodes := run.trustNodes
  constructor
  · intro account
    have once := List.nodup_iff_count.mp nodes.pledges account
    rw [List.count_eq_countP, List.countP_map] at once
    exact once
  · intro op requiredFee helper after late returns
    obtain ⟨wealth, withdrawn, pledged⟩ := run_late nodes late returns
    refine ⟨wealth, ?_, withdrawn⟩
    intro hasRole
    refine pledged ?_
    intro withdraw isWithdraw
    exact withdrawn ⟨withdraw, isWithdraw⟩ hasRole

end Runs

section Sample

def pledgeChain (required balance : Int) : Database :=
  { plainDatabase with
    accounts := [plainAccount 7]
    balances := [⟨0, 1, balance⟩]
    parameters := { plainParameters with trustNodePledge := required } }

/-- Account 0 has become a witness, with a pledge of 100 and a fee of 5. -/
def witnessChain (required : Int) : Database :=
  { pledgeChain required 895 with
    accounts := [{ plainAccount 7 with pendingFees := 5 }]
    pledges := [⟨0, ⟨100, 1⟩⟩]
    witnesses := [⟨0, none, 0, 0, 0, true, false, 0, 0, 0, 0⟩]
    nextAvailableVoteId := 1 }

theorem witnessChain_run (required : Int) :
    TrustRun (witnessChain required) := by
  have created : TrustRun (witnessChain 100) :=
    .operation (.start (pledgeChain 100 1000) rfl (by decide) (by decide))
      (.witnessCreate ⟨⟨5, 1⟩, 0⟩) none reset (by decide)
  exact .elsewhere created rfl rfl rfl

/-- The requirement falls to 40, and an update of the witness gives 60 back. -/
theorem trust_node_pledges_falling :
    ∃ after,
      (TrustNodeOperation.witnessUpdate ⟨⟨1, 1⟩, 0, 0⟩).run none reset
          (witnessChain 40) = .ok after ∧
        after.pledged 0 = 40 ∧
        after.coreWealth 0 = (witnessChain 40).coreWealth 0 - 1 := by
  have returns :
      (TrustNodeOperation.witnessUpdate ⟨⟨1, 1⟩, 0, 0⟩).run none reset
          (witnessChain 40) =
        .ok { witnessChain 40 with
          accounts := [{ plainAccount 7 with pendingFees := 6 }]
          balances := [⟨0, 1, 954⟩]
          pledges := [⟨0, ⟨40, 1⟩⟩] } := by
    decide
  obtain ⟨wealth, pledged, _⟩ :=
    (trust_node_pledges (witnessChain_run 40)).2 _ none reset _ (by decide)
      returns
  refine ⟨_, returns, pledged ?_, wealth 0⟩
  exact .inl ⟨_, List.mem_singleton_self _, rfl, rfl⟩

end Sample

end GxbCore.Ledger
