import GxbCore.Lib.Exchange
import GxbCore.Ledger.HolderOps

/-!
# Distribution of the fee-backed assets

At a maintenance what has been accumulated for a fee-backed asset is split: parts
for the buyback account and for the issuer of the designated asset, rounded down,
and the rest for the network, by which the supply of the core asset is lowered.
The accumulator is filled with core fees; the parts are credited as `asset(x)`,
which is asset 1.3.0.
-/

namespace GxbCore.Ledger

open Database

section Distribution

def fbaPart (accumulated : Int) (pct : UInt16) : Except Fault Int := do
  let amount ←
    toUint64
      (uint128 (uint128 accumulated * pct.toNat) / GRAPHENE_100_PERCENT)
  return int64 amount

/-- The accumulator starts anew. -/
def Database.clearFba (db : Database) (fbaId : Nat) (fba : FbaAccumulator) :
    Database :=
  { db with fbas := db.fbas.set fbaId { fba with accumulatedFbaFees := 0 } }

def Database.lowerSupply (db : Database) (amount : Int) :
    Except Fault Database :=
  db.modifyDynamicData db.currentCoreAssetId fun d => do
    let currentSupply ← share (d.currentSupply - amount)
    return { d with currentSupply := currentSupply }

/-- The network's part, if there is one. -/
def Database.payNetwork (db : Database) (networkAmount : Int) :
    Except Fault Database :=
  if networkAmount ≠ 0 then db.lowerSupply networkAmount else .ok db

/-- The part of an account, if there is one, as `asset(amount)`. -/
def Database.payPart (db : Database) (account : AccountId) (amount : Int) :
    Except Fault Database :=
  if amount ≠ 0 then db.adjustBalance account ⟨amount, 0⟩ else .ok db

/-- `split_fba_balance`, less the virtual operations that record the parts. -/
def Database.splitFbaBalance
    (db : Database) (fbaId : Nat)
    (networkPct designatedAssetBuybackPct designatedAssetIssuerPct : UInt16) :
    Except Fault Database := do
  fcAssert
    (networkPct.toNat + designatedAssetBuybackPct.toNat +
        designatedAssetIssuerPct.toNat = GRAPHENE_100_PERCENT) ""
  let fba ← orThrow db.fbas[fbaId]? .notFound
  if fba.accumulatedFbaFees = 0 then
    return db
  else do
    let _core ← db.getAsset db.currentCoreAssetId
    if !(← db.isConfigured fba) then do
      let lowered ← db.lowerSupply fba.accumulatedFbaFees
      return lowered.clearFba fbaId fba
    else do
      let buybackAmount ←
        fbaPart fba.accumulatedFbaFees designatedAssetBuybackPct
      let issuerAmount ←
        fbaPart fba.accumulatedFbaFees designatedAssetIssuerPct
      let both ← share (buybackAmount + issuerAmount)
      -- this assert should never fail
      fcAssert (both ≤ fba.accumulatedFbaFees) ""
      let networkAmount ← share (fba.accumulatedFbaFees - both)
      let designated ← orThrow fba.designatedAsset .notFound
      let designatedAsset ← db.getAsset designated
      let lowered ← db.payNetwork networkAmount
      let buybackAccount ← orThrow designatedAsset.buybackAccount .notFound
      let bought ← lowered.payPart buybackAccount buybackAmount
      let issued ← bought.payPart designatedAsset.issuer issuerAmount
      return issued.clearFba fbaId fba

def Database.distributeFbaBalances (db : Database) : Except Fault Database := do
  let db ←
    db.splitFbaBalance fbaAccumulatorIdTransferToBlind 2000 6000 2000
  let db ← db.splitFbaBalance fbaAccumulatorIdBlindTransfer 2000 6000 2000
  db.splitFbaBalance fbaAccumulatorIdTransferFromBlind 2000 6000 2000

end Distribution

section Parts

structure FbaParts where
  buyback : Int
  issuer : Int
  network : Int
  deriving DecidableEq, Repr

/-- The parts of a configured accumulator; otherwise all is for the network. -/
def fbaParts (configured : Bool) (accumulated : Int)
    (buybackPct issuerPct : UInt16) : FbaParts :=
  if configured then
    let buyback := portion accumulated buybackPct.toNat GRAPHENE_100_PERCENT
    let issuer := portion accumulated issuerPct.toNat GRAPHENE_100_PERCENT
    ⟨buyback, issuer, accumulated - (buyback + issuer)⟩
  else
    ⟨0, 0, accumulated⟩

structure FbaParts.Exact (parts : FbaParts) (accumulated : Int) : Prop where
  buyback : 0 ≤ parts.buyback
  issuer : 0 ≤ parts.issuer
  network : 0 ≤ parts.network
  total : parts.buyback + parts.issuer + parts.network = accumulated

variable {accumulated : Int} {configured : Bool}

theorem fbaParts_exact {buybackPct issuerPct : UInt16}
    (nonneg : 0 ≤ accumulated)
    (valid : buybackPct.toNat + issuerPct.toNat ≤ GRAPHENE_100_PERCENT) :
    (fbaParts configured accumulated buybackPct issuerPct).Exact
      accumulated := by
  cases configured with
  | false => exact ⟨le_rfl, le_rfl, nonneg, by simp [fbaParts]⟩
  | true =>
      have positive : (0 : Int) < GRAPHENE_100_PERCENT := by decide
      have buyback :=
        @portion_nonneg accumulated buybackPct.toNat _ nonneg
          (Int.natCast_nonneg _) positive
      have issuer :=
        @portion_nonneg accumulated issuerPct.toNat _ nonneg
          (Int.natCast_nonneg _) positive
      have buybackLe :=
        @portion_mul_le accumulated buybackPct.toNat _ positive
      have issuerLe := @portion_mul_le accumulated issuerPct.toNat _ positive
      have whole :
          accumulated * buybackPct.toNat + accumulated * issuerPct.toNat ≤
            accumulated * GRAPHENE_100_PERCENT := by
        rw [← Int.mul_add]
        exact Int.mul_le_mul_of_nonneg_left (by exact_mod_cast valid) nonneg
      refine ⟨buyback, issuer, ?_, ?_⟩
      · simp only [fbaParts, if_true]
        rw [GRAPHENE_100_PERCENT] at *
        omega
      · simp only [fbaParts, if_true]
        omega

def NothingForPayees (configured : Bool) (accumulated : Int)
    (buybackPct issuerPct : UInt16) : Prop :=
  configured →
    accumulated * buybackPct.toNat < GRAPHENE_100_PERCENT ∧
      accumulated * issuerPct.toNat < GRAPHENE_100_PERCENT

def NothingForNetwork (configured : Bool) (accumulated : Int)
    (networkPct buybackPct : UInt16) : Prop :=
  accumulated = 0 ∨
    configured ∧ networkPct.toNat = 0 ∧
      (GRAPHENE_100_PERCENT : Int) ∣ accumulated * buybackPct.toNat

theorem nothingForPayees_iff {buybackPct issuerPct : UInt16}
    (nonneg : 0 ≤ accumulated) :
    NothingForPayees configured accumulated buybackPct issuerPct ↔
      (fbaParts configured accumulated buybackPct issuerPct).buyback = 0 ∧
        (fbaParts configured accumulated buybackPct issuerPct).issuer = 0 := by
  have positive : (0 : Int) < GRAPHENE_100_PERCENT := by decide
  cases configured with
  | false => simp [NothingForPayees, fbaParts]
  | true =>
      simp only [NothingForPayees, fbaParts, if_true, true_implies]
      rw [portion_eq_zero_iff nonneg (Int.natCast_nonneg _) positive,
        portion_eq_zero_iff nonneg (Int.natCast_nonneg _) positive]

/-- Two floors leave nothing exactly when the percentages are the whole and
nothing is rounded. -/
theorem nothingForNetwork_iff {networkPct buybackPct issuerPct : UInt16}
    (nonneg : 0 ≤ accumulated)
    (valid :
      networkPct.toNat + buybackPct.toNat + issuerPct.toNat =
        GRAPHENE_100_PERCENT) :
    NothingForNetwork configured accumulated networkPct buybackPct ↔
      (fbaParts configured accumulated buybackPct issuerPct).network = 0 := by
  cases configured with
  | false => simp [NothingForNetwork, fbaParts]
  | true =>
      have whole :
          accumulated * networkPct.toNat + accumulated * buybackPct.toNat +
              accumulated * issuerPct.toNat =
            accumulated * 10000 := by
        rw [← Int.mul_add, ← Int.mul_add]
        congr 1
        rw [GRAPHENE_100_PERCENT] at valid
        omega
      have network : 0 ≤ accumulated * networkPct.toNat :=
        Int.mul_nonneg nonneg (Int.natCast_nonneg _)
      have none :
          accumulated * networkPct.toNat = 0 ↔
            accumulated = 0 ∨ networkPct.toNat = 0 := by
        rw [Int.mul_eq_zero]
        omega
      simp only [NothingForNetwork, fbaParts, if_true, portion,
        GRAPHENE_100_PERCENT, true_and]
      constructor
      · rintro (zero | ⟨noNetwork, divides⟩)
        · simp [zero]
        · rw [none.mpr (.inr noNetwork)] at whole
          omega
      · intro nothing
        have noNetwork : accumulated * networkPct.toNat = 0 := by omega
        rcases none.mp noNetwork with zero | noNetwork
        · exact .inl zero
        · exact .inr ⟨noNetwork, by omega⟩

/-- A percentage of an amount is computed exactly in 128 bits. -/
theorem percentage_eq {amount : Int} {pct : Nat} (nonneg : 0 ≤ amount)
    (fits : amount < 2 ^ 63) (valid : pct ≤ GRAPHENE_100_PERCENT) :
    (do
      let part ←
        toUint64
          (uint128 (uint128 amount * pct) / (GRAPHENE_100_PERCENT : Nat))
      return int64 part) =
      (.ok (portion amount pct GRAPHENE_100_PERCENT) : Except Fault Int) := by
  have positive : (0 : Int) < GRAPHENE_100_PERCENT := by decide
  have small : (pct : Int) ≤ GRAPHENE_100_PERCENT := by exact_mod_cast valid
  have low :=
    @portion_nonneg amount pct _ nonneg (Int.natCast_nonneg _) positive
  have high := portion_le nonneg positive small
  have product : uint128 (uint128 amount * pct) = amount * pct := by
    have atMost : amount * pct ≤ amount * GRAPHENE_100_PERCENT :=
      Int.mul_le_mul_of_nonneg_left small nonneg
    have productNonneg : 0 ≤ amount * pct :=
      Int.mul_nonneg nonneg (Int.natCast_nonneg _)
    rw [GRAPHENE_100_PERCENT] at atMost
    rw [uint128, uint128, Int.emod_eq_of_lt nonneg (by omega)]
    exact Int.emod_eq_of_lt productNonneg (by omega)
  rw [product]
  change (toUint64 (portion _ _ _) >>= fun amount => _) = _
  rw [toUint64, fcAssert, require, if_pos (by omega)]
  change Except.ok (int64 _) = _
  rw [int64_of_range (by omega) (by omega)]

theorem fbaPart_eq {pct : UInt16} (nonneg : 0 ≤ accumulated)
    (fits : accumulated < 2 ^ 63) (valid : pct.toNat ≤ GRAPHENE_100_PERCENT) :
    fbaPart accumulated pct =
      .ok (portion accumulated pct.toNat GRAPHENE_100_PERCENT) :=
  percentage_eq nonneg fits valid

end Parts

section Payments

variable {db after : Database} {fbaId : Nat} {fba : FbaAccumulator}
  {networkPct buybackPct issuerPct : UInt16}

/-- `current_supply` of an asset. -/
def Database.supplyIn (db : Database) (id : AssetId) : Int :=
  (db.assets[id]?.map (·.dynamicData.currentSupply)).getD 0

/-- The buyback account and the issuer of the designated asset. -/
def payees (db : Database) (fba : FbaAccumulator) : AccountId × AccountId :=
  match fba.designatedAsset.bind (db.assets[·]?) with
  | none => (0, 0)
  | some designated =>
      (designated.buybackAccount.getD 0, designated.issuer)

/-- The parts for the two payees are credited in one asset and the network's part
is taken from the supply of another, and nothing else happens to balances and
supplies. -/
structure PaidOut (before after : Database) (fbaId : Nat)
    (fba : FbaAccumulator) (credited lowered : AssetId) (parts : FbaParts) :
    Prop where
  paid :
    ∀ owner id,
      (after.getBalance owner id).amount =
        (before.getBalance owner id).amount +
          (if owner = (payees before fba).1 ∧ id = credited then parts.buyback
            else 0) +
          (if owner = (payees before fba).2 ∧ id = credited then parts.issuer
            else 0)
  supplies :
    ∀ id,
      after.supplyIn id = before.supplyIn id - inAsset id lowered parts.network
  emptied :
    after.fbas[fbaId]?.map (·.accumulatedFbaFees) = some 0

def Database.partsOf (db : Database) (fba : FbaAccumulator)
    (buybackPct issuerPct : UInt16) : FbaParts :=
  fbaParts (db.isConfigured fba = .ok true) fba.accumulatedFbaFees buybackPct
    issuerPct

theorem lowerSupply_eq_ok {amount : Int} {lowered : Database}
    (returns : db.lowerSupply amount = .ok lowered) :
    (∃ assets, lowered = { db with assets := assets }) ∧
      ∀ id,
        lowered.supplyIn id =
          db.supplyIn id - inAsset id db.currentCoreAssetId amount := by
  rw [lowerSupply, modifyDynamicData_eq_ok] at returns
  obtain ⟨a, found, d, changed, rfl⟩ := returns
  obtain ⟨supply, checked, changed⟩ := bind_eq_ok.mp changed
  cases changed
  rw [eq_of_share checked]
  refine ⟨⟨_, rfl⟩, ?_⟩
  intro id
  obtain ⟨inside, _⟩ := List.getElem?_eq_some_iff.mp found
  simp only [supplyIn, setAsset, List.getElem?_set, inAsset]
  by_cases same : db.currentCoreAssetId = id
  · rw [if_pos same, if_pos (same ▸ inside), if_pos same, ← same, found]
    rfl
  · rw [if_neg same, if_neg same, Int.sub_zero]

theorem payNetwork_eq_ok {amount : Int} {lowered : Database}
    (returns : db.payNetwork amount = .ok lowered) :
    (∃ assets, lowered = { db with assets := assets }) ∧
      ∀ id,
        lowered.supplyIn id =
          db.supplyIn id - inAsset id db.currentCoreAssetId amount := by
  unfold payNetwork at returns
  split at returns
  · exact lowerSupply_eq_ok returns
  · next nothing =>
      cases returns
      refine ⟨⟨db.assets, rfl⟩, ?_⟩
      intro id
      rw [not_not.mp nothing, inAsset_zero, Int.sub_zero]

theorem payPart_eq_ok {before credited : Database} {account : AccountId}
    {amount : Int} (returns : before.payPart account amount = .ok credited) :
    credited = { before with balances := credited.balances } ∧
      ∀ owner id,
        (credited.getBalance owner id).amount =
          (before.getBalance owner id).amount +
            if owner = account ∧ id = 0 then amount else 0 := by
  unfold payPart at returns
  split at returns
  · exact ⟨adjustBalance_frame returns, adjustBalance_getBalance returns⟩
  · next nothing =>
      cases returns
      have zero : amount = 0 := not_not.mp nothing
      exact ⟨rfl, by simp [zero]⟩

/-- The parts are credited in asset 1.3.0, and the supply of the core asset is
lowered. -/
theorem splitFbaBalance_paidOut (found : db.fbas[fbaId]? = some fba)
    (nonneg : 0 ≤ fba.accumulatedFbaFees)
    (fits : fba.accumulatedFbaFees < 2 ^ 63)
    (returns :
      db.splitFbaBalance fbaId networkPct buybackPct issuerPct = .ok after) :
    networkPct.toNat + buybackPct.toNat + issuerPct.toNat =
        GRAPHENE_100_PERCENT ∧
      PaidOut db after fbaId fba 0 db.currentCoreAssetId
        (db.partsOf fba buybackPct issuerPct) := by
  simp only [splitFbaBalance, bind_eq_ok, fcAssert_eq_ok, orThrow_eq_ok]
    at returns
  obtain ⟨_, valid, _, sameFba, returns⟩ := returns
  cases found.symm.trans sameFba
  refine ⟨valid, ?_⟩
  obtain ⟨inside, _⟩ := List.getElem?_eq_some_iff.mp found
  split at returns
  · next nothing =>
      cases returns
      have parts : db.partsOf fba buybackPct issuerPct = ⟨0, 0, 0⟩ := by
        rw [partsOf, nothing]
        cases decide (db.isConfigured fba = .ok true) with
        | true => simp [fbaParts]
        | false => simp [fbaParts]
      rw [parts]
      exact ⟨by simp, by simp, by simp [found, nothing]⟩
  · obtain ⟨_, _, returns⟩ := bind_eq_ok.mp returns
    obtain ⟨configured, asked, returns⟩ := bind_eq_ok.mp returns
    cases configured with
    | false =>
        obtain ⟨lowered, lowers, returns⟩ := bind_eq_ok.mp returns
        cases returns
        obtain ⟨⟨assets, rfl⟩, supplies⟩ := lowerSupply_eq_ok lowers
        have parts :
            db.partsOf fba buybackPct issuerPct =
              ⟨0, 0, fba.accumulatedFbaFees⟩ := by
          simp [partsOf, asked, fbaParts]
        rw [parts]
        refine ⟨?_, supplies, ?_⟩
        · intro owner id
          simp [clearFba, getBalance]
        · simp [clearFba, inside]
    | true =>
        simp only [Bool.not_true, Bool.false_eq_true, if_false, bind_eq_ok,
          fcAssert_eq_ok, orThrow_eq_ok] at returns
        obtain ⟨buyback, isBuyback, issuer, isIssuer, both, isBoth, _, _,
          network, isNetwork, designated, isDesignated, asset, isAsset,
          lowered, lowers, account, isAccount, bought, buys, issued, issues,
          returns⟩ := returns
        cases returns
        rw [fbaPart_eq nonneg fits (by omega)] at isBuyback isIssuer
        cases isBuyback
        cases isIssuer
        obtain ⟨rfl, _⟩ := share_eq_ok isBoth
        obtain ⟨rfl, _⟩ := share_eq_ok isNetwork
        have parts :
            db.partsOf fba buybackPct issuerPct =
              fbaParts true fba.accumulatedFbaFees buybackPct issuerPct := by
          simp [partsOf, asked]
        have recipients : payees db fba = (account, asset.issuer) := by
          have isFound := orThrow_eq_ok.mp isAsset
          simp [payees, isDesignated, isFound, isAccount]
        obtain ⟨boughtFrame, boughtBalances⟩ := payPart_eq_ok buys
        obtain ⟨issuedFrame, issuedBalances⟩ := payPart_eq_ok issues
        obtain ⟨⟨assets, rfl⟩, supplies⟩ := payNetwork_eq_ok lowers
        rw [parts]
        refine ⟨?_, ?_, ?_⟩
        · intro owner id
          rw [recipients]
          change (issued.getBalance owner id).amount = _
          rw [issuedBalances, boughtBalances]
          rfl
        · intro id
          have same : issued.supplyIn id = supplyIn _ id :=
            congrArg (supplyIn · id) issuedFrame
          rw [boughtFrame] at same
          exact same.trans (supplies id)
        · rw [issuedFrame, boughtFrame]
          simp [clearFba, inside]

end Payments

section Conservation

variable {db after : Database} {fbaId : Nat} {fba : FbaAccumulator}
  {networkPct buybackPct issuerPct : UInt16} {accumulatedIn : AssetId}

/-- The parts are exact, and they are paid out, and taken from the supply, in the
asset in which the fees were accumulated. -/
structure Conserved (before after : Database) (fbaId : Nat)
    (fba : FbaAccumulator) (accumulatedIn : AssetId) (parts : FbaParts) :
    Prop where
  isExact : parts.Exact fba.accumulatedFbaFees
  paidOut :
    PaidOut before after fbaId fba accumulatedIn accumulatedIn parts

/-- Whatever asset fees were accumulated in, their distribution conserves it
exactly when that is asset 1.3.0, or nothing falls to the two payees, and it is
the core asset, or nothing falls to the network. -/
theorem fba_distribution_conserves
    (found : db.fbas[fbaId]? = some fba)
    (nonneg : 0 ≤ fba.accumulatedFbaFees)
    (fits : fba.accumulatedFbaFees < 2 ^ 63)
    (returns :
      db.splitFbaBalance fbaId networkPct buybackPct issuerPct = .ok after) :
    (db.partsOf fba buybackPct issuerPct).Exact fba.accumulatedFbaFees ∧
      (Conserved db after fbaId fba accumulatedIn
          (db.partsOf fba buybackPct issuerPct) ↔
        (accumulatedIn = 0 ∨
          NothingForPayees (db.isConfigured fba = .ok true)
            fba.accumulatedFbaFees buybackPct issuerPct) ∧
        (accumulatedIn = db.currentCoreAssetId ∨
          NothingForNetwork (db.isConfigured fba = .ok true)
            fba.accumulatedFbaFees networkPct buybackPct)) := by
  obtain ⟨valid, paid, supplies, emptied⟩ :=
    splitFbaBalance_paidOut found nonneg fits returns
  have isExact :
      (db.partsOf fba buybackPct issuerPct).Exact fba.accumulatedFbaFees :=
    fbaParts_exact nonneg (by omega)
  refine ⟨isExact, ?_⟩
  rw [nothingForPayees_iff nonneg, nothingForNetwork_iff nonneg valid]
  change
    Conserved _ _ _ _ _ _ ↔
      (_ ∨ (db.partsOf _ _ _).buyback = 0 ∧ (db.partsOf _ _ _).issuer = 0) ∧
        (_ ∨ (db.partsOf _ _ _).network = 0)
  generalize db.partsOf fba buybackPct issuerPct = parts at *
  constructor
  · rintro ⟨_, paidIn, suppliesIn, _⟩
    constructor
    · have buybackNonneg := isExact.buyback
      have issuerNonneg := isExact.issuer
      by_cases isZero : accumulatedIn = 0
      · exact .inl isZero
      · right
        have buyback := paidIn (payees db fba).1 0
        have issuer := paidIn (payees db fba).2 0
        simp only [paid, Ne.symm isZero, and_true, and_false, if_true,
          if_false] at buyback issuer
        constructor
        · split at buyback
          · omega
          · omega
        · split at issuer
          · omega
          · omega
    · by_cases isCore : accumulatedIn = db.currentCoreAssetId
      · exact .inl isCore
      · right
        have lowered := suppliesIn db.currentCoreAssetId
        rw [supplies] at lowered
        simp only [inAsset, if_true, isCore, if_false] at lowered
        omega
  · rintro ⟨credits, lowers⟩
    refine ⟨isExact, ?_, ?_, emptied⟩
    · intro owner id
      rw [paid]
      rcases credits with isZero | ⟨noBuyback, noIssuer⟩
      · rw [isZero]
      · simp [noBuyback, noIssuer]
    · intro id
      rw [supplies]
      rcases lowers with isCore | noNetwork
      · rw [isCore]
      · simp [noNetwork]

end Conservation

section Sample

/-- A fee-backed asset whose owners control its issuer. -/
def stealthDatabase : Database :=
  { plainDatabase with
    assets :=
      [plainAsset, plainAsset,
        { plainAsset with issuer := 1, buybackAccount := some 2 }]
    accounts :=
      [plainAccount 1,
        { plainAccount 2 with
          ownerSpecialAuthority := some ⟨2, 10⟩
          activeSpecialAuthority := some ⟨2, 10⟩
          topNControlOwner := true
          topNControlActive := true },
        plainAccount 3] }

/-- A hundred units accumulated for the fee-backed asset. -/
def stealthFba : FbaAccumulator :=
  ⟨100, some 2⟩

/-- Without a designated asset the supply of the core asset is lowered by all. -/
theorem fba_distribution_conserves_unconfigured :
    ∃ after,
      Conserved { stealthDatabase with fbas := [⟨100, none⟩] } after 0
        ⟨100, none⟩ 1 ⟨0, 0, 100⟩ :=
  ⟨_,
    (@fba_distribution_conserves { stealthDatabase with fbas := [⟨100, none⟩] }
      _ 0 ⟨100, none⟩ 2000 6000 2000 1 rfl (by decide) (by decide) rfl).2.mpr
      ⟨.inr (fun configured => absurd configured (by decide)),
        .inl (by decide)⟩⟩

/-- A hundred units of the core asset are distributed as twenty that leave its
supply and eighty that are credited in asset 1.3.0. -/
theorem fba_parts_in_other_asset :
    ∃ after,
      Database.splitFbaBalance { stealthDatabase with fbas := [stealthFba] } 0
          2000 6000 2000 = .ok after ∧
        (after.getBalance 2 0).amount = 60 ∧
        (after.getBalance 1 0).amount = 20 ∧
        after.supplyIn 1 = 80 ∧
        ¬ Conserved { stealthDatabase with fbas := [stealthFba] } after 0
            stealthFba stealthDatabase.currentCoreAssetId
            ⟨60, 20, 20⟩ := by
  refine ⟨_, rfl, by decide, by decide, by decide, ?_⟩
  rintro ⟨_, paidIn, _, _⟩
  exact absurd (paidIn 2 0) (by decide)

end Sample

end GxbCore.Ledger
