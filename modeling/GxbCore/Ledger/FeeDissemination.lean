import GxbCore.Ledger.FbaDistribution
import GxbCore.Ledger.FeePercentages

/-!
# Dissemination of fees

The pending fees of an account are split between the network, the lifetime
referrer, the referrer and the registrar.  The cut of the network is added to
the accumulated fees of the core asset.  The others are deposited one after the
other: a recipient may be the account itself, and may get more than one cut, and
each deposit finds the cashback balance as the one before left it.
-/

namespace GxbCore.Ledger

open Database

section Model

/-- `deposit_cashback(d.get(acct), ..)` -/
def Database.payCashback
    (db : Database) (acct : AccountId) (amount : Int) (requireVesting : Bool) :
    Except Fault Database := do
  let _ ← db.getAccount acct
  db.depositCashback acct amount requireVesting

/-- If the referrer is no longer a member, the lifetime referrer takes his
place. -/
def Database.renewReferrer (db : Database) (id : AccountId) :
    Except Fault Database := do
  let account ← db.getAccount id
  let referrer ← db.getAccount account.referrer
  return if referrer.isBasicAccount db.headBlockTime then
    db.setAccount id { account with referrer := account.lifetimeReferrer }
  else
    db

def Database.accumulateFees (db : Database) (networkCut : Int) :
    Except Fault Database :=
  db.modifyDynamicData db.currentCoreAssetId fun d => do
    let accumulatedFees ← share (d.accumulatedFees + networkCut)
    return { d with accumulatedFees := accumulatedFees }

def Database.payOutFees
    (db : Database) (id : AccountId) (coreFeeTotal : Int)
    (requireVesting : Bool) : Except Fault Database := do
  let db ← db.renewReferrer id
  let account ← db.getAccount id
  let networkCut ←
    cutFee coreFeeTotal account.feeSplit.networkFeePercentage
  let lifetimeCut ←
    cutFee coreFeeTotal account.feeSplit.lifetimeReferrerFeePercentage
  let rest ← share (coreFeeTotal - networkCut)
  let referral ← share (rest - lifetimeCut)
  let db ← db.accumulateFees networkCut
  let referrerCut ← cutFee referral account.feeSplit.referrerRewardsPercentage
  let registrarCut ← share (referral - referrerCut)
  let db ←
    db.payCashback account.lifetimeReferrer lifetimeCut requireVesting
  let db ← db.payCashback account.referrer referrerCut requireVesting
  db.payCashback account.registrar registrarCut requireVesting

/-- `account_statistics_object::process_fees` -/
def Database.processFees (db : Database) (id : AccountId) :
    Except Fault Database := do
  let a ← db.getAccount id
  if a.pendingFees > 0 ∨ a.pendingVestedFees > 0 then do
    let db ← db.payOutFees id a.pendingFees true
    let db ← db.payOutFees id a.pendingVestedFees false
    let paid ← share (a.pendingFees + a.pendingVestedFees)
    let lifetimeFeesPaid ← share (a.lifetimeFeesPaid + paid)
    let account ← db.getAccount id
    return db.setAccount id
      { account with
        lifetimeFeesPaid := lifetimeFeesPaid
        pendingFees := 0
        pendingVestedFees := 0 }
  else
    return db

def FeeSplit.upgraded (split : FeeSplit) : FeeSplit where
  networkFeePercentage := split.networkFeePercentage
  lifetimeReferrerFeePercentage :=
    GRAPHENE_100_PERCENT - split.networkFeePercentage
  referrerRewardsPercentage := split.referrerRewardsPercentage
  network_add_lifetime_le := by
    have within := split.network_add_lifetime_le
    omega
  referrer_le := split.referrer_le

/-- `account_upgrade_evaluator::do_apply`: the fees are processed inside of the
modification of the account, which goes on with what they left. -/
def Database.upgradeAccount
    (db : Database) (id : AccountId) (upgradeToLifetimeMember : Bool) :
    Except Fault Database :=
  if upgradeToLifetimeMember then do
    let db ← db.processFees id
    let account ← db.getAccount id
    return db.setAccount id
      { account with
        membershipExpirationDate := 0xffffffff
        registrar := id
        referrer := id
        lifetimeReferrer := id
        feeSplit := account.feeSplit.upgraded }
  else
    .ok db

end Model

section Cuts

structure FeeCuts where
  network : Int
  lifetime : Int
  referrer : Int
  registrar : Int
  deriving DecidableEq, Repr

def feeCuts (split : FeeSplit) (fees : Int) : FeeCuts :=
  let network :=
    portion fees split.networkFeePercentage GRAPHENE_100_PERCENT
  let lifetime :=
    portion fees split.lifetimeReferrerFeePercentage GRAPHENE_100_PERCENT
  let referral := fees - network - lifetime
  let referrer :=
    portion referral split.referrerRewardsPercentage GRAPHENE_100_PERCENT
  ⟨network, lifetime, referrer, referral - referrer⟩

structure FeeCuts.Exact (cuts : FeeCuts) (fees : Int) : Prop where
  network : 0 ≤ cuts.network
  lifetime : 0 ≤ cuts.lifetime
  referrer : 0 ≤ cuts.referrer
  registrar : 0 ≤ cuts.registrar
  total :
    cuts.network + cuts.lifetime + cuts.referrer + cuts.registrar = fees

theorem feeCuts_exact (split : FeeSplit) {fees : Int} (nonneg : 0 ≤ fees) :
    (feeCuts split fees).Exact fees := by
  have positive : (0 : Int) < GRAPHENE_100_PERCENT := by decide
  have network :=
    @portion_nonneg fees split.networkFeePercentage _ nonneg
      (Int.natCast_nonneg _) positive
  have lifetime :=
    @portion_nonneg fees split.lifetimeReferrerFeePercentage _ nonneg
      (Int.natCast_nonneg _) positive
  have networkLe :=
    @portion_mul_le fees split.networkFeePercentage _ positive
  have lifetimeLe :=
    @portion_mul_le fees split.lifetimeReferrerFeePercentage _ positive
  have whole :
      fees * split.networkFeePercentage +
          fees * split.lifetimeReferrerFeePercentage ≤
        fees * GRAPHENE_100_PERCENT := by
    rw [← Int.mul_add]
    exact Int.mul_le_mul_of_nonneg_left
      (by exact_mod_cast split.network_add_lifetime_le) nonneg
  have referral :
      0 ≤ fees -
          portion fees split.networkFeePercentage GRAPHENE_100_PERCENT -
        portion fees split.lifetimeReferrerFeePercentage
          GRAPHENE_100_PERCENT := by
    rw [GRAPHENE_100_PERCENT] at *
    omega
  have referrer :=
    @portion_nonneg _ split.referrerRewardsPercentage _ referral
      (Int.natCast_nonneg _) positive
  have referrerLe :=
    @portion_le _ split.referrerRewardsPercentage _ referral positive
      (by exact_mod_cast split.referrer_le)
  refine ⟨network, lifetime, referrer, ?_, ?_⟩
  · simp only [feeCuts]
    omega
  · simp only [feeCuts]
    omega

/-- `cut_fee` is a portion, whichever way it goes. -/
theorem cutFee_eq {amount : Int} {pct : Nat} (nonneg : 0 ≤ amount)
    (fits : amount < 2 ^ 63) (valid : pct ≤ GRAPHENE_100_PERCENT) :
    cutFee amount pct = .ok (portion amount pct GRAPHENE_100_PERCENT) := by
  unfold cutFee
  split
  · next nothing =>
      rcases nothing with rfl | rfl
      · rw [portion_zero]
      · simp [portion]
  · split
    · next whole =>
        rw [whole, portion_self _ (by decide)]
    · exact percentage_eq nonneg fits valid

end Cuts

section Credits

variable {db : Database} {acct : AccountId} {amount : Int}
  {requireVesting : Bool}

/-- What an account gets: an account of the blockchain lowers the supply, and
any other one has the amount added to its cashback balance, which may be a new
one. -/
inductive Credited (before : Database) (acct : AccountId) (amount : Int) :
    Database → Prop
  | nothing (zero : amount = 0) : Credited before acct amount before
  | reserve {a : AssetObject}
      (special : isBlockchainAccount acct = true)
      (found : before.assets[before.currentCoreAssetId]? = some a) :
      Credited before acct amount
        (before.setAsset before.currentCoreAssetId
          { a with dynamicData :=
            { a.dynamicData with
              currentSupply := a.dynamicData.currentSupply - amount } })
  | cashback {account : AccountObject} {vb : VestingBalanceId}
      {vestings : List VestingBalance} {deposited : VestingBalance}
      (ordinary : isBlockchainAccount acct = false)
      (found : before.accounts[acct]? = some account)
      (isCashback : vestings[vb]? = some deposited)
      (owner : deposited.owner = acct)
      (balance :
        deposited.balance =
          ⟨(before.vestings[vb]?.map (·.balance.amount)).getD 0 + amount,
            before.currentCoreAssetId⟩)
      (inCore :
        ∀ v, before.vestings[vb]? = some v →
          v.balance.assetId = before.currentCoreAssetId)
      (others :
        ∀ other, other ≠ vb → vestings[other]? = before.vestings[other]?) :
      Credited before acct amount
        { before with
          accounts :=
            before.accounts.set acct { account with cashbackVb := some vb }
          vestings := vestings }

/-- Amounts are credited one after the other. -/
inductive CreditedAll : Database → List (AccountId × Int) → Database → Prop
  | nil {db : Database} : CreditedAll db [] db
  | cons {db middle after : Database} {acct : AccountId} {amount : Int}
      {later : List (AccountId × Int)}
      (first : Credited db acct amount middle)
      (rest : CreditedAll middle later after) :
      CreditedAll db ((acct, amount) :: later) after

/-- An account less what the dissemination changes. -/
def AccountObject.terms (a : AccountObject) : AccountObject :=
  { a with referrer := 0, cashbackVb := none }

theorem map_terms_set {accounts : List AccountObject} {id : AccountId}
    {account fresh : AccountObject} (found : accounts[id]? = some account)
    (same : fresh.terms = account.terms) :
    (accounts.set id fresh).map AccountObject.terms =
      accounts.map AccountObject.terms := by
  obtain ⟨inside, isAccount⟩ := List.getElem?_eq_some_iff.mp found
  rw [List.map_set, same, ← isAccount]
  have again := List.set_getElem_self
    (show id < (accounts.map AccountObject.terms).length by simpa using inside)
  rwa [List.getElem_map] at again

theorem Credited.terms {after : Database}
    (credited : Credited db acct amount after) :
    after.accounts.map AccountObject.terms =
      db.accounts.map AccountObject.terms := by
  cases credited with
  | nothing => rfl
  | reserve => rfl
  | cashback _ found => exact map_terms_set found rfl

variable {seconds : UInt32}

theorem isReusable_eq_true {v : VestingBalance}
    (reusable : db.isReusable v seconds acct = true) :
    v.owner = acct ∧ (∃ policy, v.policy = .cdd policy) ∧
      (db.headBlockTime ≤ HARDFORK_1008_TIME ∨ v.balance.assetId = 1) := by
  simp only [isReusable, Bool.and_eq_true, beq_iff_eq, Bool.or_eq_true,
    decide_eq_true_eq] at reusable
  obtain ⟨⟨isOwner, isPolicy⟩, inCore⟩ := reusable
  refine ⟨isOwner, ?_, inCore⟩
  cases isCdd : v.policy with
  | linear policy => simp [isCdd] at isPolicy
  | cdd policy => exact ⟨policy, rfl⟩

theorem findReusable_place {ovbid : Option VestingBalanceId}
    {vb : VestingBalanceId} {v : VestingBalance}
    (search : db.findReusable ovbid seconds acct = .ok (some (vb, v))) :
    ovbid = some vb ∧ db.vestings[vb]? = some v ∧
      db.isReusable v seconds acct = true := by
  cases ovbid with
  | none => cases search
  | some named =>
      obtain ⟨found, isFound, search⟩ := bind_eq_ok.mp search
      rw [orThrow_eq_ok] at isFound
      by_cases reusable : db.isReusable found seconds acct = true
      · rw [if_pos reusable] at search
        cases search
        exact ⟨rfl, isFound, reusable⟩
      · rw [if_neg reusable] at search
        cases search

/-- A new balance of the amount, which the account is pointed at. -/
theorem credited_fresh {account : AccountObject}
    (ordinary : isBlockchainAccount acct = false)
    (found : db.accounts[acct]? = some account) :
    Credited db acct amount
      { db with
        accounts :=
          db.accounts.set acct
            { account with cashbackVb := some db.vestings.length }
        vestings :=
          db.vestings ++ [db.lazyVesting amount seconds acct requireVesting] } :=
  by
  refine .cashback ordinary found (List.getElem?_concat_length ..) rfl ?_ ?_ ?_
  · simp [lazyVesting]
  · simp
  · intro other differs
    rcases Nat.lt_or_gt_of_ne differs with before | beyond
    · exact List.getElem?_append_left before
    · rw [List.getElem?_eq_none (by simp; omega),
        List.getElem?_eq_none (by omega)]

theorem credited_reused {account : AccountObject} {vb : VestingBalanceId}
    {v deposited : VestingBalance} {now : Time}
    (ordinary : isBlockchainAccount acct = false)
    (found : db.accounts[acct]? = some account)
    (isCashback : account.cashbackVb = some vb)
    (isVb : db.vestings[vb]? = some v) (isOwner : v.owner = acct)
    (added :
      v.depositWith requireVesting now ⟨amount, db.currentCoreAssetId⟩ =
        .ok deposited) :
    Credited db acct amount (db.setVesting vb deposited) := by
  obtain ⟨asset, balance⟩ := VestingBalance.depositWith_balance added
  obtain ⟨inside, _⟩ := List.getElem?_eq_some_iff.mp isVb
  obtain ⟨known, isAccount⟩ := List.getElem?_eq_some_iff.mp found
  have unchanged :
      db.accounts.set acct { account with cashbackVb := some vb } =
        db.accounts := by
    rw [← isCashback]
    exact isAccount ▸ List.set_getElem_self known
  have credit :=
    @Credited.cashback db acct amount account vb
      (db.vestings.set vb deposited) deposited ordinary found
      (List.getElem?_set_self inside)
      ((VestingBalance.depositWith_owner added).trans isOwner)
      (by simp [balance, isVb])
      (fun other isOther => by
        cases isVb.symm.trans isOther
        exact asset)
      (fun other differs => List.getElem?_set_ne (Ne.symm differs))
  rw [unchanged] at credit
  exact credit

theorem credited_of_deposit {after : Database}
    (returns : db.depositCashback acct amount requireVesting = .ok after) :
    Credited db acct amount after := by
  unfold depositCashback at returns
  split at returns
  · next zero =>
      cases returns
      exact .nothing zero
  · next notZero =>
    split at returns
    · next special =>
        rw [modifyDynamicData_eq_ok] at returns
        obtain ⟨a, found, d, changed, rfl⟩ := returns
        obtain ⟨supply, checked, changed⟩ := bind_eq_ok.mp changed
        cases changed
        rw [eq_of_share checked]
        exact .reserve special found
    · next ordinary =>
        have ordinary := eq_false_of_ne_true ordinary
        simp only [bind_eq_ok, getAccount_eq_ok] at returns
        obtain ⟨account, found, ⟨newVbid, middle⟩, deposits, returns⟩ := returns
        rw [depositLazyVesting, if_neg notZero] at deposits
        obtain ⟨reusable, search, deposits⟩ := bind_eq_ok.mp deposits
        cases reusable with
        | none =>
            cases deposits
            cases returns
            exact credited_fresh ordinary found
        | some place =>
            obtain ⟨isCashback, isVb, reusable⟩ := findReusable_place search
            obtain ⟨isOwner, _, _⟩ := isReusable_eq_true reusable
            obtain ⟨deposited, added, deposits⟩ := bind_eq_ok.mp deposits
            cases deposits
            cases returns
            exact credited_reused ordinary found isCashback isVb isOwner added

end Credits

section Disburse

variable {db : Database} {id acct : AccountId} {account : AccountObject}
  {amount fees : Int} {requireVesting : Bool}

/-- The referrer who is paid: the lifetime referrer, where the referrer is a
basic account. -/
def Database.paidReferrer (db : Database) (account : AccountObject) :
    AccountId :=
  if (db.accounts[account.referrer]?).any (·.isBasicAccount db.headBlockTime)
  then account.lifetimeReferrer else account.referrer

/-- The state in which the cuts are credited: the referrer is renewed, and the
network has its cut. -/
def Database.withNetworkCut (db : Database) (id : AccountId)
    (account : AccountObject) (asset : AssetObject) (network : Int) : Database :=
  (db.setAccount id
      { account with referrer := db.paidReferrer account }).setAsset
    db.currentCoreAssetId
    { asset with dynamicData :=
      { asset.dynamicData with
        accumulatedFees := asset.dynamicData.accumulatedFees + network } }

/-- Fees of an account are paid out by its split: the network's cut to the
accumulated fees of the core asset, the others to the three recipients. -/
inductive Disbursed (before : Database) (id : AccountId) (split : FeeSplit)
    (fees : Int) (after : Database) : Prop where
  | intro {account : AccountObject} {asset : AssetObject}
      (found : before.accounts[id]? = some account)
      (isSplit : account.feeSplit = split)
      (isCore : before.assets[before.currentCoreAssetId]? = some asset)
      (credits :
        CreditedAll
          (before.withNetworkCut id account asset (feeCuts split fees).network)
          [(account.lifetimeReferrer, (feeCuts split fees).lifetime),
            (before.paidReferrer account, (feeCuts split fees).referrer),
            (account.registrar, (feeCuts split fees).registrar)]
          after)

theorem payCashback_credited {after : Database}
    (returns : db.payCashback acct amount requireVesting = .ok after) :
    Credited db acct amount after := by
  obtain ⟨_, _, returns⟩ := bind_eq_ok.mp returns
  exact credited_of_deposit returns

theorem renewReferrer_eq_ok {renewed : Database}
    (found : db.accounts[id]? = some account)
    (returns : db.renewReferrer id = .ok renewed) :
    renewed =
      db.setAccount id
        { account with referrer := db.paidReferrer account } := by
  simp only [renewReferrer, bind_eq_ok, getAccount_eq_ok] at returns
  obtain ⟨same, alsoFound, referrer, isReferrer, returns⟩ := returns
  cases found.symm.trans alsoFound
  simp only [paidReferrer, isReferrer, Option.any_some]
  split at returns
  · next basic =>
      cases returns
      rw [if_pos basic]
  · next member =>
      cases returns
      rw [if_neg member]
      obtain ⟨inside, isAccount⟩ := List.getElem?_eq_some_iff.mp found
      have unchanged : db.accounts.set id account = db.accounts :=
        isAccount ▸ List.set_getElem_self inside
      rw [setAccount, unchanged]

/-- The cuts as `pay_out_fees` computes them. -/
structure Computes (split : FeeSplit) (fees : Int) (cuts : FeeCuts) : Prop where
  network : cutFee fees split.networkFeePercentage = .ok cuts.network
  lifetime : cutFee fees split.lifetimeReferrerFeePercentage = .ok cuts.lifetime
  rest : share (fees - cuts.network) = .ok (fees - cuts.network)
  referral :
    share (fees - cuts.network - cuts.lifetime) =
      .ok (fees - cuts.network - cuts.lifetime)
  referrer :
    cutFee (fees - cuts.network - cuts.lifetime)
        split.referrerRewardsPercentage = .ok cuts.referrer
  registrar :
    share (fees - cuts.network - cuts.lifetime - cuts.referrer) =
      .ok cuts.registrar

theorem computes_feeCuts (split : FeeSplit) (nonneg : 0 ≤ fees)
    (fits : fees < 2 ^ 63) : Computes split fees (feeCuts split fees) := by
  obtain ⟨network, lifetime, referrer, registrar, whole⟩ :=
    feeCuts_exact split nonneg
  have splits := split.network_add_lifetime_le
  have isRegistrar :
      fees - (feeCuts split fees).network - (feeCuts split fees).lifetime -
          (feeCuts split fees).referrer =
        (feeCuts split fees).registrar := rfl
  constructor
  · exact cutFee_eq nonneg fits (Nat.le_trans (Nat.le_add_right _ _) splits)
  · exact cutFee_eq nonneg fits (Nat.le_trans (Nat.le_add_left _ _) splits)
  · exact if_pos ⟨by omega, by omega⟩
  · exact if_pos ⟨by omega, by omega⟩
  · exact cutFee_eq (by omega) (by omega) split.referrer_le
  · rw [isRegistrar]
    exact if_pos ⟨by omega, by omega⟩

theorem payOutFees_disbursed {after : Database} (nonneg : 0 ≤ fees)
    (fits : fees < 2 ^ 63) (found : db.accounts[id]? = some account)
    (returns : db.payOutFees id fees requireVesting = .ok after) :
    Disbursed db id account.feeSplit fees after ∧
      after.accounts.map AccountObject.terms =
        db.accounts.map AccountObject.terms := by
  obtain ⟨inside, _⟩ := List.getElem?_eq_some_iff.mp found
  obtain ⟨renewed, renews, returns⟩ := bind_eq_ok.mp returns
  cases renewReferrer_eq_ok found renews
  obtain ⟨row, isRow, returns⟩ := bind_eq_ok.mp returns
  have isRenewed :
      (db.setAccount id
        { account with referrer := db.paidReferrer account }).accounts[id]? =
        some { account with referrer := db.paidReferrer account } :=
    List.getElem?_set_self inside
  cases isRenewed.symm.trans (getAccount_eq_ok.mp isRow)
  have computes := computes_feeCuts account.feeSplit nonneg fits
  simp only [computes.network, computes.lifetime, computes.rest,
    computes.referral, computes.referrer, computes.registrar, bind_eq_ok,
    Except.ok.injEq, exists_eq_left', accumulateFees,
    modifyDynamicData_eq_ok] at returns
  obtain ⟨middle, ⟨asset, isAsset, d, ⟨accumulated, checked, changed⟩, rfl⟩,
    first, paysFirst, second, paysSecond, paysLast⟩ := returns
  cases changed
  rw [eq_of_share checked] at paysFirst
  have creditedFirst := payCashback_credited paysFirst
  have creditedSecond := payCashback_credited paysSecond
  have creditedLast := payCashback_credited paysLast
  constructor
  · exact .intro found rfl isAsset
      (.cons creditedFirst (.cons creditedSecond (.cons creditedLast .nil)))
  · rw [creditedLast.terms, creditedSecond.terms, creditedFirst.terms]
    exact map_terms_set found rfl

end Disburse

section Exactness

variable {db : Database} {id : AccountId} {account : AccountObject}

/-- The pending fees of an account are paid out by its split, with no part
negative and nothing left, and they are booked as paid. -/
structure Disseminated (before : Database) (id : AccountId)
    (account : AccountObject) (after : Database) : Prop where
  pendingCuts :
    (feeCuts account.feeSplit account.pendingFees).Exact account.pendingFees
  vestedCuts :
    (feeCuts account.feeSplit account.pendingVestedFees).Exact
      account.pendingVestedFees
  paid :
    (account.pendingFees = 0 ∧ account.pendingVestedFees = 0 ∧
        after = before) ∨
      ∃ middle last row,
        Disbursed before id account.feeSplit account.pendingFees middle ∧
          Disbursed middle id account.feeSplit account.pendingVestedFees
            last ∧
          last.accounts[id]? = some row ∧ row.terms = account.terms ∧
          after =
            last.setAccount id
              { row with
                lifetimeFeesPaid :=
                  account.lifetimeFeesPaid +
                    (account.pendingFees + account.pendingVestedFees)
                pendingFees := 0
                pendingVestedFees := 0 }
  settled :
    ∃ row, after.accounts[id]? = some row ∧ row.pendingFees = 0 ∧
      row.pendingVestedFees = 0 ∧
      row.lifetimeFeesPaid =
        account.lifetimeFeesPaid +
          (account.pendingFees + account.pendingVestedFees)

theorem row_of_terms {before after : Database}
    (sameTerms :
      after.accounts.map AccountObject.terms =
        before.accounts.map AccountObject.terms)
    (found : before.accounts[id]? = some account) :
    ∃ row, after.accounts[id]? = some row ∧ row.terms = account.terms := by
  have same := congrArg (·[id]?) sameTerms
  simp only [List.getElem?_map, found, Option.map_some] at same
  obtain ⟨row, isRow, terms⟩ := Option.map_eq_some_iff.mp same
  exact ⟨row, isRow, terms⟩

theorem feeSplit_of_terms {row : AccountObject}
    (terms : row.terms = account.terms) : row.feeSplit = account.feeSplit := by
  have same : row.terms.feeSplit = account.terms.feeSplit :=
    congrArg AccountObject.feeSplit terms
  exact same

/-- What `process_fees` disseminates it disseminates exactly. -/
theorem processFees_disseminated {after : Database}
    (found : db.accounts[id]? = some account)
    (fees : 0 ≤ account.pendingFees ∧ account.pendingFees < 2 ^ 63)
    (vested :
      0 ≤ account.pendingVestedFees ∧ account.pendingVestedFees < 2 ^ 63)
    (returns : db.processFees id = .ok after) :
    Disseminated db id account after := by
  have cuts := feeCuts_exact account.feeSplit fees.1
  have vestedCuts := feeCuts_exact account.feeSplit vested.1
  obtain ⟨same, alsoFound, returns⟩ := bind_eq_ok.mp returns
  cases found.symm.trans (getAccount_eq_ok.mp alsoFound)
  split at returns
  · simp only [bind_eq_ok, getAccount_eq_ok] at returns
    obtain ⟨middle, paysFees, last, paysVested, paid, isPaid, lifetime,
      isLifetime, row, isRow, returns⟩ := returns
    cases returns
    rw [eq_of_share isLifetime, eq_of_share isPaid]
    obtain ⟨disbursed, middleTerms⟩ :=
      payOutFees_disbursed fees.1 fees.2 found paysFees
    obtain ⟨middleRow, isMiddle, rowTerms⟩ := row_of_terms middleTerms found
    obtain ⟨disbursedVested, lastTerms⟩ :=
      payOutFees_disbursed vested.1 vested.2 isMiddle paysVested
    obtain ⟨lastRow, isLast, lastRowTerms⟩ := row_of_terms lastTerms isMiddle
    cases isRow.symm.trans isLast
    rw [feeSplit_of_terms rowTerms] at disbursedVested
    have inside := (List.getElem?_eq_some_iff.mp isRow).1
    exact ⟨cuts, vestedCuts,
      .inr ⟨middle, last, row, disbursed, disbursedVested, isRow,
        lastRowTerms.trans rowTerms, rfl⟩,
      ⟨_, List.getElem?_set_self inside, rfl, rfl, rfl⟩⟩
  · next nothing =>
      cases returns
      have noFees : account.pendingFees = 0 := by omega
      have noVested : account.pendingVestedFees = 0 := by omega
      exact ⟨cuts, vestedCuts, .inl ⟨noFees, noVested, rfl⟩,
        ⟨account, found, noFees, noVested, by omega⟩⟩

end Exactness

end GxbCore.Ledger
