import GxbCore.Ledger.Surplus

/-!
# Fees and the frame of an evaluator

Every operation is evaluated in the same frame: the fee is prepared, converted
through the fee pool of its asset, booked, the operation is applied, and the fee
is taken from the payer last.  The fee is balanced in itself, so an operation
moves what its own `do_apply` moves.
-/

namespace GxbCore.Ledger

namespace Database

/-- `prepare_fee`: the fee in the core asset. -/
def prepareFee (db : Database) (accountId : AccountId) (fee : Asset) :
    Except Fault Int := do
  fcAssert (0 ≤ fee.amount) ""
  let feePayingAccount ← db.getAccount accountId
  let feeAsset ← db.getAsset fee.assetId
  fcAssert
    (db.headBlockTime > HARDFORK_419_TIME →
      isAuthorizedAsset db feePayingAccount fee.assetId feeAsset)
    "Account ${acct} attempted to pay fee by using asset ${a}, which is unauthorized due to whitelist / blacklist"
  if fee.assetId = db.currentCoreAssetId then
    return fee.amount
  else
    let feeFromPool ← fee.times feeAsset.options.coreExchangeRate
    fcAssert (feeFromPool.assetId = db.currentCoreAssetId) "fee asset id ${f}"
    fcAssert (feeFromPool.amount ≤ feeAsset.dynamicData.feePool)
      "Fee pool balance of ${b} is less than the ${r} required to convert ${c}"
    return feeFromPool.amount

def convertFee (db : Database) (fee : Asset) (coreFeePaid : Int) :
    Except Fault Database :=
  if fee.assetId = db.currentCoreAssetId then
    .ok db
  else
    db.modifyDynamicData fee.assetId fun d => do
      let accumulatedFees ← share (d.accumulatedFees + fee.amount)
      let feePool ← share (d.feePool - coreFeePaid)
      return { d with accumulatedFees := accumulatedFees, feePool := feePool }

def payFee (db : Database) (payer : AccountId) (coreFee : Int) :
    Except Fault Database := do
  let account ← db.getAccount payer
  if coreFee > db.parameters.cashbackVestingThreshold then
    let pendingFees ← share (account.pendingFees + coreFee)
    return db.setAccount payer { account with pendingFees := pendingFees }
  else
    let pendingVestedFees ← share (account.pendingVestedFees + coreFee)
    return db.setAccount payer
      { account with pendingVestedFees := pendingVestedFees }

/-- `fba_accumulator_object::is_configured` -/
def isConfigured (db : Database) (fba : FbaAccumulator) : Except Fault Bool :=
  match fba.designatedAsset with
  | none => .ok false
  | some designated =>
      match db.assets[designated]? with
      | none => .ok false
      | some dasset => do
          if dasset.isMarketIssued then
            return false
          if dasset.options.issuerPermissions &&& chargeMarketFee
              ≠ dasset.options.issuerPermissions then
            return false
          if dasset.options.flags &&& chargeMarketFee
              ≠ dasset.options.flags then
            return false
          if dasset.buybackAccount.isNone then
            return false
          let issuerAcct ← db.getAccount dasset.issuer
          return issuerAcct.ownerSpecialAuthority.any
              (·.asset == designated) &&
            issuerAcct.activeSpecialAuthority.any (·.asset == designated) &&
            issuerAcct.topNControlOwner && issuerAcct.topNControlActive

def payFbaFee
    (db : Database) (fbaId : Nat) (payer : AccountId) (coreFee : Int) :
    Except Fault Database := do
  let fba ← orThrow db.fbas[fbaId]? .notFound
  if ← db.isConfigured fba then
    let accumulatedFbaFees ← share (fba.accumulatedFbaFees + coreFee)
    return { db with
      fbas := db.fbas.set fbaId
        { fba with accumulatedFbaFees := accumulatedFbaFees } }
  else
    db.payFee payer coreFee

end Database

open Database

/-- The parts of an operation that its evaluator supplies. -/
structure Evaluator where
  feePayer : AccountId
  fee : Asset
  /-- `calculate_fee`, when the fee schedule is checked -/
  requiredFee : Option Int
  doEvaluate : Database → Except Fault Unit
  /-- `pay_fee`, with the fee that was paid in the core asset -/
  payFee : Int → Database → Except Fault Database
  /-- `do_apply`, with the same fee -/
  doApply : Int → Database → Except Fault Database

/-- `start_evaluate`: `evaluate`, then `apply`. -/
def Evaluator.run (eval : Evaluator) (db : Database) :
    Except Fault Database := do
  let coreFeePaid ← db.prepareFee eval.feePayer eval.fee
  fcAssert (∀ required ∈ eval.requiredFee, required ≤ coreFeePaid)
    "Insufficient Fee Paid"
  eval.doEvaluate db
  let db ← db.convertFee eval.fee coreFeePaid
  let db ← eval.payFee coreFeePaid db
  let db ← eval.doApply coreFeePaid db
  db.adjustBalance eval.feePayer eval.fee.neg

section Fees

variable {core : AssetId} {db after : Database} {account : AccountId}
  {coreFee : Int} {fee : Asset} {payer : AccountId}

/-- What `prepare_fee` has checked. -/
theorem prepareFee_eq_ok (returns : db.prepareFee account fee = .ok coreFee) :
    0 ≤ fee.amount ∧ 0 ≤ coreFee ∧
      ((fee.assetId = db.currentCoreAssetId ∧ coreFee = fee.amount) ∨
        (fee.assetId ≠ db.currentCoreAssetId ∧
          ∃ a, db.assets[fee.assetId]? = some a ∧
            coreFee ≤ a.dynamicData.feePool)) := by
  simp only [prepareFee, bind_eq_ok, fcAssert_eq_ok, getAccount_eq_ok,
    getAsset_eq_ok] at returns
  obtain ⟨_, nonneg, _, _, a, found, _, _, returns⟩ := returns
  refine ⟨nonneg, ?_⟩
  split at returns
  · next inCore =>
      cases returns
      exact ⟨nonneg, .inl ⟨inCore, rfl⟩⟩
  · next notCore =>
      simp only [bind_eq_ok, fcAssert_eq_ok] at returns
      obtain ⟨fromPool, converted, _, _, _, covered, returns⟩ := returns
      cases returns
      exact ⟨times_nonneg converted, .inr ⟨notCore, a, found, covered⟩⟩

theorem convertFee_cases (prepared : db.prepareFee account fee = .ok coreFee)
    (returns : db.convertFee fee coreFee = .ok after) :
    (fee.assetId = db.currentCoreAssetId ∧ coreFee = fee.amount ∧
        after = db) ∨
      ∃ a, db.assets[fee.assetId]? = some a ∧
        coreFee ≤ a.dynamicData.feePool ∧
        after = db.setAsset fee.assetId
          { a with dynamicData :=
            { a.dynamicData with
              accumulatedFees := a.dynamicData.accumulatedFees + fee.amount
              feePool := a.dynamicData.feePool - coreFee } } := by
  obtain ⟨_, _, ways⟩ := prepareFee_eq_ok prepared
  unfold convertFee at returns
  rcases ways with ⟨inCore, same⟩ | ⟨notCore, a, found, covered⟩
  · rw [if_pos inCore] at returns
    cases returns
    exact .inl ⟨inCore, same, rfl⟩
  · rw [if_neg notCore, modifyDynamicData_eq_ok] at returns
    obtain ⟨b, foundAgain, d, changed, same⟩ := returns
    cases found.symm.trans foundAgain
    simp only [bind_eq_ok] at changed
    obtain ⟨accumulated, addedTo, pool, takenFrom, changed⟩ := changed
    cases changed
    rw [eq_of_share addedTo, eq_of_share takenFrom] at same
    exact .inr ⟨a, found, covered, same.symm⟩

theorem convertFee_moves (isCore : db.currentCoreAssetId = core)
    (prepared : db.prepareFee account fee = .ok coreFee)
    (returns : db.convertFee fee coreFee = .ok after) :
    Moves core db after
      (fun id =>
        inAsset id fee.assetId fee.amount - inAsset id core coreFee) := by
  rcases convertFee_cases prepared returns with
    ⟨inCore, value, same⟩ | ⟨a, found, _, same⟩
  · rw [same]
    refine (Moves.refl core db).congr ?_
    intro id
    rw [inCore, isCore, value]
    simp
  · rw [same]
    refine (setAsset_moves _ found).congr ?_
    intro id
    simp only [outstanding, inAsset_sub, inAsset_add]
    omega

theorem convertFee_sound (prepared : db.prepareFee account fee = .ok coreFee)
    (returns : db.convertFee fee coreFee = .ok after) (sound : Sound core db) :
    Sound core after := by
  obtain ⟨feeNonneg, _, _⟩ := prepareFee_eq_ok prepared
  rcases convertFee_cases prepared returns with
    ⟨_, _, same⟩ | ⟨a, found, covered, same⟩
  · rw [same]
    exact sound
  · have before := sound.assets a (List.mem_of_getElem? found)
    rw [same]
    refine setAsset_sound sound
      { before with feePool := ?_, accumulatedFees := ?_ } ?_
    · change 0 ≤ a.dynamicData.feePool - coreFee
      omega
    · exact Int.add_nonneg before.accumulatedFees feeNonneg
    · exact sound.supplies fee.assetId a found

theorem payFee_cases (returns : db.payFee payer coreFee = .ok after) :
    ∃ a, db.accounts[payer]? = some a ∧
      ((after = db.setAccount payer
          { a with pendingFees := a.pendingFees + coreFee } ∧
          a.pendingFees + coreFee < 2 ^ 63) ∨
        (after = db.setAccount payer
          { a with pendingVestedFees := a.pendingVestedFees + coreFee } ∧
          a.pendingVestedFees + coreFee < 2 ^ 63)) := by
  simp only [payFee, bind_eq_ok, getAccount_eq_ok] at returns
  obtain ⟨a, found, returns⟩ := returns
  refine ⟨a, found, ?_⟩
  split at returns
  · obtain ⟨fees, checked, returns⟩ := bind_eq_ok.mp returns
    cases returns
    obtain ⟨same, _, high⟩ := share_eq_ok checked
    exact .inl ⟨by rw [same], high⟩
  · obtain ⟨fees, checked, returns⟩ := bind_eq_ok.mp returns
    cases returns
    obtain ⟨same, _, high⟩ := share_eq_ok checked
    exact .inr ⟨by rw [same], high⟩

theorem payFee_moves {payer : AccountId} {coreFee : Int}
    (returns : db.payFee payer coreFee = .ok after) :
    Moves core db after (fun id => inAsset id core coreFee) := by
  obtain ⟨a, found, ⟨same, _⟩ | ⟨same, _⟩⟩ := payFee_cases returns
  · rw [same]
    refine (setAccount_moves _ found).congr ?_
    intro id
    simp only [pending, inAsset_sub, inAsset_add]
    omega
  · rw [same]
    refine (setAccount_moves _ found).congr ?_
    intro id
    simp only [pending, inAsset_sub, inAsset_add]
    omega

theorem payFee_sound (nonneg : 0 ≤ coreFee)
    (returns : db.payFee payer coreFee = .ok after) (sound : Sound core db) :
    Sound core after := by
  obtain ⟨a, found, ⟨same, high⟩ | ⟨same, high⟩⟩ := payFee_cases returns
  · obtain ⟨fees, vestedFees⟩ :=
      sound.accounts a (List.mem_of_getElem? found)
    rw [same]
    apply setAccount_sound sound
    exact ⟨⟨Int.add_nonneg fees.1 nonneg, high⟩, vestedFees⟩
  · obtain ⟨fees, vestedFees⟩ :=
      sound.accounts a (List.mem_of_getElem? found)
    rw [same]
    apply setAccount_sound sound
    exact ⟨fees, ⟨Int.add_nonneg vestedFees.1 nonneg, high⟩⟩

/-- A fee for a configured fee-backed asset is accumulated, any other is booked
on the payer. -/
theorem payFbaFee_cases {fbaId : Nat}
    (returns : db.payFbaFee fbaId payer coreFee = .ok after) :
    ∃ f, db.fbas[fbaId]? = some f ∧
      ((db.isConfigured f = .ok true ∧
          f.accumulatedFbaFees + coreFee < 2 ^ 63 ∧
          after = { db with
            fbas := db.fbas.set fbaId
              { f with
                accumulatedFbaFees := f.accumulatedFbaFees + coreFee } }) ∨
        (db.isConfigured f = .ok false ∧
          db.payFee payer coreFee = .ok after)) := by
  simp only [payFbaFee, bind_eq_ok, orThrow_eq_ok] at returns
  obtain ⟨f, found, configured, asked, returns⟩ := returns
  refine ⟨f, found, ?_⟩
  cases configured with
  | true =>
      obtain ⟨fees, checked, returns⟩ := bind_eq_ok.mp returns
      cases returns
      obtain ⟨same, _, high⟩ := share_eq_ok checked
      exact .inl ⟨asked, high, by rw [same]⟩
  | false => exact .inr ⟨asked, returns⟩

theorem setFba_moves {fbaId : Nat} {f : FbaAccumulator} (fresh : FbaAccumulator)
    (found : db.fbas[fbaId]? = some f) :
    Moves core db { db with fbas := db.fbas.set fbaId fresh }
      (fun id =>
        inAsset id core (fresh.accumulatedFbaFees - f.accumulatedFbaFees)) := by
  refine ⟨rfl, ?_⟩
  intro id
  simp only [surplus, held, coreHeld, fbaHeld, total_set fresh found,
    inAsset_add, inAsset_sub]
  omega

theorem payFbaFee_moves {fbaId : Nat} {payer : AccountId} {coreFee : Int}
    (returns : db.payFbaFee fbaId payer coreFee = .ok after) :
    Moves core db after (fun id => inAsset id core coreFee) := by
  obtain ⟨f, found, ⟨_, _, same⟩ | ⟨_, paid⟩⟩ := payFbaFee_cases returns
  · rw [same]
    refine (setFba_moves _ found).congr ?_
    intro id
    simp only [inAsset_sub, inAsset_add]
    omega
  · exact payFee_moves paid

end Fees

section Frame

/-- What the fee leaves alone: everything but balances on the way of the fee. -/
structure FeeFrame (db after : Database) : Prop where
  vestings : after.vestings = db.vestings
  stakings : after.stakings = db.stakings
  locks : after.locks = db.locks
  pledges : after.pledges = db.pledges
  witnesses : after.witnesses = db.witnesses
  parameters : after.parameters = db.parameters
  properties : after.properties = db.properties
  assets :
    ∀ (id : AssetId) (a : AssetObject), after.assets[id]? = some a →
      ∃ b : AssetObject, db.assets[id]? = some b ∧
        a.dynamicData.currentSupply = b.dynamicData.currentSupply ∧
        a.options = b.options

variable {db middle after : Database}

theorem FeeFrame.refl (db : Database) : FeeFrame db db where
  vestings := rfl
  stakings := rfl
  locks := rfl
  pledges := rfl
  witnesses := rfl
  parameters := rfl
  properties := rfl
  assets := fun _ a found => ⟨a, found, rfl, rfl⟩

theorem FeeFrame.core_eq (frame : FeeFrame db after) :
    after.currentCoreAssetId = db.currentCoreAssetId := by
  unfold currentCoreAssetId headBlockTime
  rw [frame.properties]

theorem convertFee_frame {account : AccountId} {fee : Asset} {coreFee : Int}
    (prepared : db.prepareFee account fee = .ok coreFee)
    (returns : db.convertFee fee coreFee = .ok after) : FeeFrame db after := by
  rcases convertFee_cases prepared returns with
    ⟨_, _, same⟩ | ⟨a, found, _, same⟩
  · rw [same]
    exact .refl db
  · rw [same]
    refine { FeeFrame.refl db with assets := ?_ }
    intro id b at_id
    simp only [setAsset, List.getElem?_set] at at_id
    split_ifs at at_id with here inside
    · cases at_id
      exact ⟨a, here ▸ found, rfl, rfl⟩
    · exact ⟨b, at_id, rfl, rfl⟩

theorem payFee_frame {payer : AccountId} {coreFee : Int}
    (returns : db.payFee payer coreFee = .ok after) :
    FeeFrame db after ∧ after.assets = db.assets := by
  obtain ⟨a, found, ⟨same, _⟩ | ⟨same, _⟩⟩ := payFee_cases returns
  · rw [same]
    exact ⟨{ FeeFrame.refl db with }, rfl⟩
  · rw [same]
    exact ⟨{ FeeFrame.refl db with }, rfl⟩

theorem FeeFrame.trans
    (first : FeeFrame db middle) (later : FeeFrame middle after) :
    FeeFrame db after where
  vestings := later.vestings.trans first.vestings
  stakings := later.stakings.trans first.stakings
  locks := later.locks.trans first.locks
  pledges := later.pledges.trans first.pledges
  witnesses := later.witnesses.trans first.witnesses
  parameters := later.parameters.trans first.parameters
  properties := later.properties.trans first.properties
  assets := by
    intro id a found
    obtain ⟨b, foundB, supply, options⟩ := later.assets id a found
    obtain ⟨c, foundC, supplyFirst, optionsFirst⟩ := first.assets id b foundB
    exact ⟨c, foundC, supply.trans supplyFirst, options.trans optionsFirst⟩

end Frame

section Run

variable {core : AssetId} {db after : Database} {eval : Evaluator}

/-- The states an evaluator goes through. -/
structure Evaluator.Ran
    (eval : Evaluator) (db after : Database) (coreFee : Int)
    (converted paid applied : Database) : Prop where
  prepared : db.prepareFee eval.feePayer eval.fee = .ok coreFee
  evaluated : eval.doEvaluate db = .ok ()
  converts : db.convertFee eval.fee coreFee = .ok converted
  pays : eval.payFee coreFee converted = .ok paid
  applies : eval.doApply coreFee paid = .ok applied
  charges : applied.adjustBalance eval.feePayer eval.fee.neg = .ok after

theorem run_cases (returns : eval.run db = .ok after) :
    ∃ coreFee converted paid applied,
      eval.Ran db after coreFee converted paid applied := by
  simp only [Evaluator.run, bind_eq_ok] at returns
  obtain ⟨coreFee, prepared, _, _, _, evaluated, converted, converts, paid,
    pays, applied, applies, charges⟩ := returns
  exact ⟨coreFee, converted, paid, applied, prepared, evaluated, converts,
    pays, applies, charges⟩

/-- An operation that books its fee on the payer is applied to a database in
which only assets and accounts differ, and then charged for. -/
theorem run_applies
    (books :
      ∀ coreFee before,
        eval.payFee coreFee before = before.payFee eval.feePayer coreFee)
    (returns : eval.run db = .ok after) :
    ∃ coreFee assets accounts applied,
      eval.doEvaluate db = .ok () ∧
        eval.doApply coreFee
            { db with assets := assets, accounts := accounts } =
          .ok applied ∧
        applied.adjustBalance eval.feePayer eval.fee.neg = .ok after := by
  obtain ⟨coreFee, converted, paid, applied, ran⟩ := run_cases returns
  have pays := ran.pays
  rw [books] at pays
  have convertedSame : ∃ assets, converted = { db with assets := assets } := by
    rcases convertFee_cases ran.prepared ran.converts with
      ⟨_, _, same⟩ | ⟨a, _, _, same⟩
    · exact ⟨db.assets, same⟩
    · exact ⟨_, same⟩
  obtain ⟨assets, rfl⟩ := convertedSame
  obtain ⟨a, _, ⟨same, _⟩ | ⟨same, _⟩⟩ := payFee_cases pays
  · exact ⟨coreFee, assets, _, applied, ran.evaluated, same ▸ ran.applies,
      ran.charges⟩
  · exact ⟨coreFee, assets, _, applied, ran.evaluated, same ▸ ran.applies,
      ran.charges⟩

namespace Evaluator.Ran

variable {coreFee : Int} {converted paid applied : Database}

theorem coreFee_nonneg
    (ran : eval.Ran db after coreFee converted paid applied) : 0 ≤ coreFee :=
  (prepareFee_eq_ok ran.prepared).2.1

/-- The fee is balanced: what remains is what was booked beside it and what the
operation moves. -/
theorem moves {booked : Int} {credit : AssetId → Int}
    (ran : eval.Ran db after coreFee converted paid applied)
    (isCore : db.currentCoreAssetId = core)
    (pays : Moves core converted paid (fun id => inAsset id core booked))
    (applies : Moves core paid applied credit) :
    Moves core db after
      (fun id => inAsset id core (booked - coreFee) + credit id) := by
  have converts := convertFee_moves isCore ran.prepared ran.converts
  have charges := @adjustBalance_moves core _ _ _ _ ran.charges
  refine (((converts.trans pays).trans applies).trans charges).congr ?_
  intro id
  simp only [Pi.add_apply, Asset.neg, inAsset_neg, inAsset_sub]
  omega

theorem moves_of_pays {credit : AssetId → Int}
    (ran : eval.Ran db after coreFee converted paid applied)
    (isCore : db.currentCoreAssetId = core)
    (pays : Moves core converted paid (fun id => inAsset id core coreFee))
    (applies : Moves core paid applied credit) :
    Moves core db after credit := by
  refine (ran.moves isCore pays applies).congr ?_
  intro id
  simp

end Evaluator.Ran

/-- The operation books its whole fee, on its payer or in an accumulator. -/
def Evaluator.PaysWhole (eval : Evaluator) : Prop :=
  ∀ (core : AssetId) (coreFee : Int) (before after : Database),
    0 ≤ coreFee → eval.payFee coreFee before = .ok after →
      Moves core before after (fun id => inAsset id core coreFee) ∧
        Keeps core before after ∧ FeeFrame before after

theorem payFee_whole
    (books :
      ∀ coreFee before,
        eval.payFee coreFee before = before.payFee eval.feePayer coreFee) :
    eval.PaysWhole := by
  intro core coreFee before after nonneg returns
  rw [books] at returns
  exact ⟨payFee_moves returns, payFee_sound nonneg returns,
    (payFee_frame returns).1⟩

/-- What an operation moves and keeps, from what its `do_apply` does after the
fee is booked. -/
theorem run_keeps {credit : AssetId → Int} (whole : eval.PaysWhole)
    (isCore : db.currentCoreAssetId = core)
    (applies :
      ∀ coreFee paid applied,
        eval.doEvaluate db = .ok () → FeeFrame db paid →
          eval.doApply coreFee paid = .ok applied →
            Moves core paid applied credit ∧ Keeps core paid applied)
    (returns : eval.run db = .ok after) :
    Moves core db after credit ∧ Keeps core db after := by
  obtain ⟨coreFee, converted, paid, applied, ran⟩ := run_cases returns
  obtain ⟨pays, keepsPaid, framePaid⟩ :=
    whole core coreFee converted paid ran.coreFee_nonneg ran.pays
  have frame := (convertFee_frame ran.prepared ran.converts).trans framePaid
  obtain ⟨movesApplied, keepsApplied⟩ :=
    applies coreFee paid applied ran.evaluated frame ran.applies
  refine ⟨ran.moves_of_pays isCore pays movesApplied, ?_⟩
  intro sound
  apply adjustBalance_keeps ran.charges
  apply keepsApplied
  apply keepsPaid
  exact convertFee_sound ran.prepared ran.converts sound

end Run

end GxbCore.Ledger
