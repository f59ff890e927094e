import GxbCore.Ledger.FeeDissemination

/-!
# Room for the fees

The dissemination of fees returns where nothing leaves 64 bits and every account
and cashback balance that is named exists.  In a sound state whose supply covers
what is held there is room for the pending fees of every account: they, and
whatever they are added to, are parts of the supply.
-/

namespace GxbCore.Ledger

open Database

section Room

variable {core : AssetId} {db : Database} {id acct : AccountId}
  {account : AccountObject} {amount fees rest : Int} {requireVesting : Bool}

/-- The state has room for fees that are still to be paid out: the accumulated
fees and the vesting balances in the core asset can take them all, the supply
covers them, and accounts and cashback balances that are named exist. -/
structure FeeRoom (core : AssetId) (fees : Int) (db : Database) : Prop where
  isCore : db.currentCoreAssetId = core
  coreData :
    ∃ a, db.assets[core]? = some a ∧
      0 ≤ a.dynamicData.accumulatedFees ∧
      a.dynamicData.accumulatedFees + fees < 2 ^ 63 ∧
      fees ≤ a.dynamicData.currentSupply ∧
      a.dynamicData.currentSupply < 2 ^ 63
  recipients :
    ∀ a ∈ db.accounts,
      a.registrar < db.accounts.length ∧ a.referrer < db.accounts.length ∧
        a.lifetimeReferrer < db.accounts.length
  cashbacks :
    ∀ a ∈ db.accounts, ∀ vb, a.cashbackVb = some vb →
      ∃ v, db.vestings[vb]? = some v ∧
        (db.headBlockTime ≤ HARDFORK_1008_TIME → v.balance.assetId = core)
  vestings :
    ∀ v ∈ db.vestings, v.balance.assetId = core →
      0 ≤ v.balance.amount ∧ v.balance.amount + fees < 2 ^ 63

theorem FeeRoom.less (room : FeeRoom core (amount + rest) db)
    (nonneg : 0 ≤ amount) : FeeRoom core rest db where
  isCore := room.isCore
  coreData := by
    obtain ⟨a, found, accumulated, fits, covered, supply⟩ := room.coreData
    exact ⟨a, found, accumulated, by omega, by omega, supply⟩
  recipients := room.recipients
  cashbacks := room.cashbacks
  vestings v member inCore := by
    obtain ⟨low, high⟩ := room.vestings v member inCore
    exact ⟨low, by omega⟩

theorem depositWith_returns {v : VestingBalance} {policy : CddVestingPolicy}
    {now : Time} (isCdd : v.policy = .cdd policy)
    (sameAsset : v.balance.assetId = core)
    (low : -2 ^ 63 ≤ v.balance.amount + amount)
    (high : v.balance.amount + amount < 2 ^ 63) :
    ∃ deposited,
      v.depositWith requireVesting now ⟨amount, core⟩ = .ok deposited := by
  have added :
      v.balance.plus ⟨amount, core⟩ =
        .ok ⟨v.balance.amount + amount, core⟩ := by
    rw [Asset.plus, fcAssert, require, if_pos sameAsset]
    change (share _ >>= fun amount => _) = _
    rw [share, if_pos ⟨low, high⟩, ← sameAsset]
    rfl
  unfold VestingBalance.depositWith
  split
  · rw [VestingBalance.deposit, added]
    exact ⟨_, rfl⟩
  · rw [VestingBalance.depositVested, isCdd, added]
    exact ⟨_, rfl⟩

theorem Credited.room {after : Database}
    (credited : Credited db acct amount after)
    (room : FeeRoom core (amount + rest) db) (nonneg : 0 ≤ amount) :
    FeeRoom core rest after := by
  cases credited with
  | nothing zero => exact room.less nonneg
  | @reserve a special found =>
      rw [room.isCore] at found ⊢
      obtain ⟨other, alsoFound, accumulated, fits, covered, supply⟩ :=
        room.coreData
      cases found.symm.trans alsoFound
      obtain ⟨inside, _⟩ := List.getElem?_eq_some_iff.mp found
      refine { room.less nonneg with coreData := ?_ }
      refine ⟨_, List.getElem?_set_self inside, accumulated, ?_, ?_, ?_⟩
      · simp only
        omega
      · simp only
        omega
      · simp only
        omega
  | @cashback account vb vestings deposited ordinary found isCashback owner
      balance inCore others =>
      have less := room.less nonneg
      have member := List.mem_of_getElem? found
      refine ⟨room.isCore, less.coreData, ?_, ?_, ?_⟩
      · intro a inside
        simp only [List.length_set]
        rcases List.mem_or_eq_of_mem_set inside with older | rfl
        · exact room.recipients a older
        · exact room.recipients account member
      · intro a inside other named
        by_cases same : other = vb
        · rw [same]
          exact ⟨deposited, isCashback, fun _ => by
            rw [balance]
            exact room.isCore⟩
        · rcases List.mem_or_eq_of_mem_set inside with older | rfl
          · obtain ⟨v, isThere, asset⟩ := room.cashbacks a older other named
            exact ⟨v, (others other same).trans isThere, asset⟩
          · cases named
            exact absurd rfl same
      · intro v inside asset
        obtain ⟨place, isPlace⟩ := List.mem_iff_getElem?.mp inside
        by_cases same : place = vb
        · rw [same, isCashback] at isPlace
          cases isPlace
          rw [balance]
          cases earlier : db.vestings[vb]? with
          | none =>
              obtain ⟨_, _, accumulated, fits, _⟩ := room.coreData
              simp only [Option.map_none, Option.getD_none]
              omega
          | some old =>
              obtain ⟨low, high⟩ :=
                room.vestings old (List.mem_of_getElem? earlier)
                  ((inCore old earlier).trans room.isCore)
              simp only [Option.map_some, Option.getD_some]
              omega
        · rw [others place same] at isPlace
          exact less.vestings v (List.mem_of_getElem? isPlace) asset

theorem FeeRoom.reusable_inCore {fees : Int} {account : AccountObject}
    {vb : VestingBalanceId} {v : VestingBalance} (room : FeeRoom core fees db)
    (found : db.accounts[acct]? = some account)
    (isCashback : account.cashbackVb = some vb)
    (isVb : db.vestings[vb]? = some v)
    (inCore : db.headBlockTime ≤ HARDFORK_1008_TIME ∨ v.balance.assetId = 1) :
    v.balance.assetId = core := by
  obtain ⟨other, alsoVb, before⟩ :=
    room.cashbacks account (List.mem_of_getElem? found) vb isCashback
  cases isVb.symm.trans alsoVb
  by_cases early : db.headBlockTime ≤ HARDFORK_1008_TIME
  · exact before early
  · rcases inCore with isEarly | isOne
    · exact absurd isEarly early
    · rw [isOne, ← room.isCore, currentCoreAssetId,
        if_pos (UInt32.not_le.mp early)]

theorem FeeRoom.depositsLazily {account : AccountObject} {seconds : UInt32}
    (room : FeeRoom core (amount + rest) db) (nonneg : 0 ≤ amount)
    (restNonneg : 0 ≤ rest) (found : db.accounts[acct]? = some account) :
    ∃ newVbid middle,
      db.depositLazyVesting account.cashbackVb amount seconds acct
        requireVesting = .ok (newVbid, middle) := by
  have isCore := room.isCore
  unfold depositLazyVesting
  split
  · exact ⟨_, _, rfl⟩
  cases isCashback : account.cashbackVb with
  | none => exact ⟨_, _, rfl⟩
  | some vb =>
      obtain ⟨v, isVb, _⟩ :=
        room.cashbacks account (List.mem_of_getElem? found) vb isCashback
      have search :
          db.findReusable (some vb) seconds acct =
            .ok (if db.isReusable v seconds acct then some (vb, v)
              else none) := by
        rw [findReusable, isVb]
        rfl
      rw [search]
      by_cases reusable : db.isReusable v seconds acct = true
      · obtain ⟨_, ⟨policy, isCdd⟩, inCore⟩ := isReusable_eq_true reusable
        have asset := room.reusable_inCore found isCashback isVb inCore
        obtain ⟨low, high⟩ :=
          room.vestings v (List.mem_of_getElem? isVb) asset
        obtain ⟨deposited, returns⟩ :=
          @depositWith_returns core amount requireVesting v policy
            db.headBlockTime isCdd asset (by omega) (by omega)
        rw [if_pos reusable, isCore]
        change ∃ newVbid middle, (v.depositWith _ _ _ >>= fun _ => _) = _
        rw [returns]
        exact ⟨_, _, rfl⟩
      · rw [if_neg reusable]
        exact ⟨_, _, rfl⟩

theorem FeeRoom.deposits (room : FeeRoom core (amount + rest) db)
    (nonneg : 0 ≤ amount) (restNonneg : 0 ≤ rest)
    (known : acct < db.accounts.length) :
    ∃ after, db.depositCashback acct amount requireVesting = .ok after := by
  unfold depositCashback
  split
  · exact ⟨db, rfl⟩
  split
  · obtain ⟨a, found, accumulated, fits, covered, supply⟩ := room.coreData
    have lowered :
        share (a.dynamicData.currentSupply - amount) =
          .ok (a.dynamicData.currentSupply - amount) :=
      if_pos ⟨by omega, by omega⟩
    rw [modifyDynamicData, room.isCore, getAsset_eq_ok.mpr found]
    change ∃ after, ((share _ >>= fun _ => _) >>= fun _ => _) = _
    rw [lowered]
    exact ⟨_, rfl⟩
  · have found : db.accounts[acct]? = some db.accounts[acct] :=
      List.getElem?_eq_getElem known
    obtain ⟨newVbid, middle, deposits⟩ :=
      @FeeRoom.depositsLazily core db acct amount rest requireVesting _
        db.parameters.cashbackVestingPeriodSeconds room nonneg restNonneg found
    rw [getAccount_eq_ok.mpr found]
    change ∃ after, (db.depositLazyVesting _ _ _ _ _ >>= fun _ => _) = _
    rw [deposits]
    cases newVbid with
    | none => exact ⟨_, rfl⟩
    | some id => exact ⟨_, rfl⟩

theorem FeeRoom.pays (room : FeeRoom core (amount + rest) db)
    (nonneg : 0 ≤ amount) (restNonneg : 0 ≤ rest)
    (known : acct < db.accounts.length) :
    ∃ after, db.payCashback acct amount requireVesting = .ok after ∧
      FeeRoom core rest after ∧
      after.accounts.length = db.accounts.length := by
  obtain ⟨after, returns⟩ :=
    @FeeRoom.deposits core db acct amount rest requireVesting room nonneg
      restNonneg known
  have credited := credited_of_deposit returns
  have sameLength := congrArg List.length credited.terms
  simp only [List.length_map] at sameLength
  refine ⟨after, ?_, credited.room room nonneg, sameLength⟩
  have found : db.accounts[acct]? = some db.accounts[acct] :=
    List.getElem?_eq_getElem known
  rw [payCashback, getAccount_eq_ok.mpr found]
  exact returns

theorem FeeRoom.renews (room : FeeRoom core fees db)
    (found : db.accounts[id]? = some account) :
    db.renewReferrer id =
        .ok (db.setAccount id
          { account with referrer := db.paidReferrer account }) ∧
      FeeRoom core fees
        (db.setAccount id
          { account with referrer := db.paidReferrer account }) := by
  have member := List.mem_of_getElem? found
  obtain ⟨registrar, referrer, lifetime⟩ := room.recipients account member
  have isReferrer := List.getElem?_eq_getElem referrer
  constructor
  · have returns : ∃ renewed, db.renewReferrer id = .ok renewed := by
      rw [renewReferrer, getAccount_eq_ok.mpr found]
      change ∃ renewed, (db.getAccount account.referrer >>= fun _ => _) = _
      rw [getAccount_eq_ok.mpr isReferrer]
      exact ⟨_, rfl⟩
    obtain ⟨renewed, returns⟩ := returns
    rw [returns, renewReferrer_eq_ok found returns]
  · refine { room with recipients := ?_, cashbacks := ?_ }
    · intro a inside
      simp only [setAccount, List.length_set]
      rcases List.mem_or_eq_of_mem_set inside with older | rfl
      · exact room.recipients a older
      · refine ⟨registrar, ?_, lifetime⟩
        simp only [paidReferrer]
        split
        · exact lifetime
        · exact referrer
    · intro a inside vb named
      rcases List.mem_or_eq_of_mem_set inside with older | rfl
      · exact room.cashbacks a older vb named
      · exact room.cashbacks account member vb named

theorem FeeRoom.accumulates (room : FeeRoom core (amount + rest) db)
    (nonneg : 0 ≤ amount) (restNonneg : 0 ≤ rest) :
    ∃ asset, db.assets[core]? = some asset ∧
      db.accumulateFees amount =
        .ok (db.setAsset core
          { asset with dynamicData :=
            { asset.dynamicData with
              accumulatedFees :=
                asset.dynamicData.accumulatedFees + amount } }) ∧
      FeeRoom core rest
        (db.setAsset core
          { asset with dynamicData :=
            { asset.dynamicData with
              accumulatedFees :=
                asset.dynamicData.accumulatedFees + amount } }) := by
  obtain ⟨a, found, accumulated, fits, covered, supply⟩ := room.coreData
  refine ⟨a, found, ?_, ?_⟩
  · rw [accumulateFees, modifyDynamicData_eq_ok, room.isCore]
    refine ⟨a, found, _, ?_, rfl⟩
    rw [share, if_pos ⟨by omega, by omega⟩]
    rfl
  · obtain ⟨inside, _⟩ := List.getElem?_eq_some_iff.mp found
    refine { room.less nonneg with coreData := ?_ }
    refine ⟨_, List.getElem?_set_self inside, ?_, ?_, ?_, supply⟩
    · simp only
      omega
    · simp only
      omega
    · simp only
      omega

/-- Fees for which there is room are paid out, and leave room for the rest. -/
theorem FeeRoom.disburses (room : FeeRoom core (fees + rest) db)
    (nonneg : 0 ≤ fees) (restNonneg : 0 ≤ rest)
    (found : db.accounts[id]? = some account) :
    ∃ after, db.payOutFees id fees requireVesting = .ok after ∧
      FeeRoom core rest after := by
  have fits : fees < 2 ^ 63 := by
    obtain ⟨_, _, accumulated, within, _⟩ := room.coreData
    omega
  obtain ⟨networkNonneg, lifetimeNonneg, referrerNonneg, registrarNonneg,
    whole⟩ := feeCuts_exact account.feeSplit nonneg
  have computes := computes_feeCuts account.feeSplit nonneg fits
  obtain ⟨renews, renewedRoom⟩ := room.renews found
  have isRow :
      (db.setAccount id
        { account with referrer := db.paidReferrer account }).accounts[id]? =
        some { account with referrer := db.paidReferrer account } :=
    List.getElem?_set_self (List.getElem?_eq_some_iff.mp found).1
  obtain ⟨registrarKnown, referrerKnown, lifetimeKnown⟩ :=
    renewedRoom.recipients _ (List.mem_of_getElem? isRow)
  generalize feeCuts account.feeSplit fees = cuts at *
  have order :
      fees + rest =
        cuts.network +
          (cuts.lifetime + (cuts.referrer + (cuts.registrar + rest))) := by
    omega
  rw [order] at renewedRoom
  obtain ⟨asset, isAsset, accumulates, networkRoom⟩ :=
    renewedRoom.accumulates networkNonneg (by omega)
  obtain ⟨first, paysFirst, firstRoom, firstLength⟩ :=
    @FeeRoom.pays core _ account.lifetimeReferrer cuts.lifetime
      (cuts.referrer + (cuts.registrar + rest)) requireVesting networkRoom
      lifetimeNonneg (by omega) lifetimeKnown
  obtain ⟨second, paysSecond, secondRoom, secondLength⟩ :=
    @FeeRoom.pays core first (db.paidReferrer account) cuts.referrer
      (cuts.registrar + rest) requireVesting firstRoom referrerNonneg
      (by omega) (firstLength ▸ referrerKnown)
  obtain ⟨last, paysLast, lastRoom, _⟩ :=
    @FeeRoom.pays core second account.registrar cuts.registrar rest
      requireVesting secondRoom registrarNonneg restNonneg
      (secondLength ▸ firstLength ▸ registrarKnown)
  refine ⟨last, ?_, lastRoom⟩
  simp only [payOutFees, renews, getAccount_eq_ok.mpr isRow,
    computes.network, computes.lifetime, computes.rest, computes.referral,
    computes.referrer, computes.registrar, accumulates, bind, Except.bind,
    paysFirst, paysSecond, paysLast]

/-- `process_fees` returns where there is room. -/
theorem FeeRoom.processes
    (room : FeeRoom core (account.pendingFees + account.pendingVestedFees) db)
    (found : db.accounts[id]? = some account)
    (feesNonneg : 0 ≤ account.pendingFees)
    (vestedNonneg : 0 ≤ account.pendingVestedFees)
    (paidNonneg : 0 ≤ account.lifetimeFeesPaid)
    (paidFits :
      account.lifetimeFeesPaid +
          (account.pendingFees + account.pendingVestedFees) < 2 ^ 63) :
    ∃ after, db.processFees id = .ok after := by
  have fits :
      account.pendingFees < 2 ^ 63 ∧ account.pendingVestedFees < 2 ^ 63 := by
    omega
  by_cases something :
      account.pendingFees > 0 ∨ account.pendingVestedFees > 0
  · obtain ⟨middle, paysFees, middleRoom⟩ :=
      @FeeRoom.disburses core db id account account.pendingFees
        (account.pendingVestedFees + 0) true (by simpa using room) feesNonneg
        (by omega) found
    obtain ⟨_, middleTerms⟩ :=
      payOutFees_disbursed feesNonneg fits.1 found paysFees
    obtain ⟨middleRow, isMiddle, _⟩ := row_of_terms middleTerms found
    obtain ⟨last, paysVested, _⟩ :=
      @FeeRoom.disburses core middle id middleRow account.pendingVestedFees 0
        false middleRoom vestedNonneg le_rfl isMiddle
    obtain ⟨_, lastTerms⟩ :=
      payOutFees_disbursed vestedNonneg fits.2 isMiddle paysVested
    obtain ⟨row, isRow, _⟩ := row_of_terms lastTerms isMiddle
    have isPaid :
        share (account.pendingFees + account.pendingVestedFees) =
          .ok (account.pendingFees + account.pendingVestedFees) :=
      if_pos ⟨by omega, by omega⟩
    have isLifetime :
        share (account.lifetimeFeesPaid +
            (account.pendingFees + account.pendingVestedFees)) =
          .ok (account.lifetimeFeesPaid +
            (account.pendingFees + account.pendingVestedFees)) :=
      if_pos ⟨by omega, paidFits⟩
    simp only [processFees, getAccount_eq_ok.mpr found, bind, Except.bind,
      if_pos something, paysFees, paysVested, isPaid, isLifetime,
      getAccount_eq_ok.mpr isRow]
    exact ⟨_, rfl⟩
  · simp only [processFees, getAccount_eq_ok.mpr found, bind, Except.bind,
      if_neg something]
    exact ⟨_, rfl⟩

end Room

section Sound

variable {core : AssetId} {db : Database} {id : AccountId}
  {account : AccountObject}

/-- The accounts and the cashback balances that accounts name exist; before hard
fork 1008 the cashback balances are in asset 1.3.0. -/
structure References (db : Database) : Prop where
  recipients :
    ∀ a ∈ db.accounts,
      a.registrar < db.accounts.length ∧ a.referrer < db.accounts.length ∧
        a.lifetimeReferrer < db.accounts.length
  cashbacks :
    ∀ a ∈ db.accounts, ∀ vb, a.cashbackVb = some vb →
      ∃ v, db.vestings[vb]? = some v ∧
        (db.headBlockTime ≤ HARDFORK_1008_TIME → v.balance.assetId = 0)

/-- Where the supply covers what is held, whatever is held in the core asset,
and the pending fees of an account beside it, stay below the maximum. -/
theorem FeeRoom.of_sound (isCore : db.currentCoreAssetId = core)
    (sound : Sound core db) (covered : 0 ≤ surplus core db core)
    (exists_core : core < db.assets.length) (references : References db)
    (found : db.accounts[id]? = some account) :
    FeeRoom core (account.pendingFees + account.pendingVestedFees) db := by
  have isAsset : db.assets[core]? = some db.assets[core] :=
    List.getElem?_eq_getElem exists_core
  generalize db.assets[core] = asset at isAsset
  have inOrder := sound.assets asset (List.mem_of_getElem? isAsset)
  have bound : asset.dynamicData.currentSupply ≤ GRAPHENE_MAX_SHARE_SUPPLY :=
    inOrder.supply_le.trans inOrder.maxSupply_le
  have accumulated := inOrder.accumulatedFees
  have confidential := inOrder.confidentialSupply
  obtain ⟨balances, vestings, stakings, locks, pledges⟩ :=
    held_terms_nonneg sound core
  obtain ⟨pools, _, rewards, fbas⟩ := coreHeld_terms_nonneg sound
  have fees : pending account ≤ total pending db.accounts :=
    le_total_of_mem
      (fun a member => by
        obtain ⟨⟨low, _⟩, vestedLow, _⟩ := sound.accounts a member
        unfold pending
        omega)
      (List.mem_of_getElem? found)
  obtain ⟨⟨feesLow, _⟩, vestedLow, _⟩ :=
    sound.accounts account (List.mem_of_getElem? found)
  have budget := sound.witnessBudget
  have pool := sound.stakingRewardPool.1
  have supply : outstandingOf db.assets core = outstanding asset := by
    rw [outstandingOf, isAsset]
    rfl
  have all :
      inAsset core core (db.coreHeld + db.fbaHeld) =
        db.coreHeld + db.fbaHeld :=
    if_pos rfl
  rw [surplus, supply, all, outstanding, held, coreHeld, fbaHeld] at covered
  unfold pending at fees
  unfold GRAPHENE_MAX_SHARE_SUPPLY at bound
  refine ⟨isCore, ⟨asset, isAsset, accumulated, ?_, ?_, ?_⟩,
    references.recipients, ?_, ?_⟩
  · unfold pending at covered
    omega
  · unfold pending at covered
    omega
  · omega
  · intro a member vb named
    obtain ⟨v, isVb, before⟩ := references.cashbacks a member vb named
    refine ⟨v, isVb, fun early => (before early).trans ?_⟩
    rw [← isCore, currentCoreAssetId, if_neg (UInt32.not_lt.mpr early)]
  · intro v member inCore
    have nonneg :
        ∀ v ∈ db.vestings,
          0 ≤ inAsset core v.balance.assetId v.balance.amount :=
      fun v member => inAsset_nonneg (sound.vestings v member)
    have below := le_total_of_mem nonneg member
    rw [inAsset, if_pos inCore] at below
    refine ⟨sound.vestings v member, ?_⟩
    unfold pending at covered
    omega

end Sound

section Reached

variable {id : AccountId}

/-- An account of a state that is in order: no holder holds less than nothing,
the supply of the core asset covers what is held, and what is named exists. -/
structure InOrder (core : AssetId) (db : Database)
    (account : AccountObject) : Prop where
  isCore : db.currentCoreAssetId = core
  exists_core : core < db.assets.length
  sound : Sound core db
  covered : 0 ≤ surplus core db core
  references : References db
  paidNonneg : 0 ≤ account.lifetimeFeesPaid
  paidFits :
    account.lifetimeFeesPaid +
        (account.pendingFees + account.pendingVestedFees) < 2 ^ 63

structure FeeSplit.Of (split : FeeSplit) (p : FeePercentages) : Prop where
  network : split.networkFeePercentage = p.networkFeePercentage.toNat
  lifetime :
    split.lifetimeReferrerFeePercentage =
      p.lifetimeReferrerFeePercentage.toNat
  referrer :
    split.referrerRewardsPercentage = p.referrerRewardsPercentage.toNat

/-- The percentages of every account that a chain reaches are a split.  The fees
of every account with this split are disseminated exactly when `process_fees`
returns, as such or inside of the modification of an upgrade, which goes on with
the account as the dissemination left it; and in a state that is in order it
returns. -/
theorem fees_disseminated_exactly
    {state : PercentState} (reached : ReachedPercentages state)
    {percentages : FeePercentages}
    (listed : state.accounts[id]? = some percentages) :
    ∃ split : FeeSplit, split.Of percentages ∧
      ∀ db account,
        db.accounts[id]? = some account → account.feeSplit = split →
        0 ≤ account.pendingFees ∧ account.pendingFees < 2 ^ 63 →
        0 ≤ account.pendingVestedFees ∧
          account.pendingVestedFees < 2 ^ 63 →
        (∀ after, db.processFees id = .ok after →
          Disseminated db id account after ∧
            ∃ row, after.accounts[id]? = some row ∧
              db.upgradeAccount id true =
                .ok (after.setAccount id
                  { row with
                    membershipExpirationDate := 0xffffffff
                    registrar := id
                    referrer := id
                    lifetimeReferrer := id
                    feeSplit := row.feeSplit.upgraded })) ∧
          ∀ core, InOrder core db account →
            ∃ after, db.processFees id = .ok after := by
  have valid :=
    reached.valid.accounts percentages (List.mem_of_getElem? listed)
  refine ⟨percentages.toSplit valid, ⟨rfl, rfl, rfl⟩, ?_⟩
  intro db account found _ fees vested
  constructor
  · intro after returns
    have disseminated := processFees_disseminated found fees vested returns
    obtain ⟨row, isRow, _⟩ := disseminated.settled
    refine ⟨disseminated, row, isRow, ?_⟩
    simp only [upgradeAccount, if_true, returns, bind, Except.bind,
      getAccount_eq_ok.mpr isRow]
    rfl
  · intro core inOrder
    have room :=
      FeeRoom.of_sound inOrder.isCore inOrder.sound inOrder.covered
        inOrder.exists_core inOrder.references found
    exact room.processes found fees.1 vested.1 inOrder.paidNonneg
      inOrder.paidFits

theorem FeeSplit.Of.unique {split other : FeeSplit} {p : FeePercentages}
    (isSplit : split.Of p) (isOther : other.Of p) : split = other := by
  obtain ⟨network, lifetime, referrer⟩ := isSplit
  obtain ⟨otherNetwork, otherLifetime, otherReferrer⟩ := isOther
  cases split
  cases other
  simp only [FeeSplit.mk.injEq]
  exact ⟨network.trans otherNetwork.symm, lifetime.trans otherLifetime.symm,
    referrer.trans otherReferrer.symm⟩

end Reached

section Sample

/-- An account that referred itself, with fees of both kinds pending. -/
def payingAccount : AccountObject :=
  { plainAccount 2 with
    registrar := 5
    referrer := 6
    lifetimeReferrer := 6
    pendingFees := 11
    pendingVestedFees := 3 }

def payingDatabase : Database :=
  { plainDatabase with
    accounts := List.replicate 6 (plainAccount 1) ++ [payingAccount] }

theorem payingAccount_inOrder : InOrder 1 payingDatabase payingAccount where
  isCore := by decide
  exists_core := by decide
  sound := { plainDatabase_sound with accounts := by decide }
  covered := by decide
  references := ⟨by decide, fun a member vb named => by
    have none : ∀ a ∈ payingDatabase.accounts, a.cashbackVb = .none := by
      decide
    rw [none a member] at named
    cases named⟩
  paidNonneg := by decide
  paidFits := by decide

/-- The six special accounts, and one more that was created. -/
theorem payingPercentages_reached :
    ReachedPercentages
      (PercentState.createAccount
        ⟨⟨2000, 3000⟩, none, List.replicate 6 ⟨2000, 8000, 0⟩⟩ 1610000000
        ⟨5, 6, 0⟩) :=
  .create
    (.genesis rfl fun account member => by
      rw [List.eq_of_mem_replicate member]
      exact .paying)
    1610000000 ⟨5, 6, 0⟩ rfl

theorem fees_disseminated_exactly_paying :
    ∃ after, payingDatabase.processFees 6 = .ok after ∧
      Disseminated payingDatabase 6 payingAccount after := by
  obtain ⟨split, isSplit, disseminates⟩ :=
    @fees_disseminated_exactly 6 _ payingPercentages_reached ⟨2000, 3000, 0⟩ rfl
  obtain ⟨exactly, room⟩ :=
    disseminates payingDatabase payingAccount rfl
      (FeeSplit.Of.unique ⟨rfl, rfl, rfl⟩ isSplit) (by decide) (by decide)
  obtain ⟨after, returns⟩ := room 1 payingAccount_inOrder
  exact ⟨after, returns, (exactly after returns).1⟩

end Sample

end GxbCore.Ledger
