import Mathlib.Algebra.Group.Nat.Defs
import GxbCore.Ledger.Objects

/-!
# The end of the maintenance

When the votes are counted and the rewards are paid, the maintenance installs
the pending parameters, looks for the time of the next maintenance and makes the
budget of the witnesses for the time until then: what is left of the reserve is
lent to the supply, and fees and what the witnesses did not get go back to it.

Times have 32 bits, and the budget that is asked for is a product of 64 bits
that is read with a sign.
-/

namespace GxbCore.Ledger

def GRAPHENE_CORE_ASSET_CYCLE_RATE : Int :=
  17

def GRAPHENE_CORE_ASSET_CYCLE_RATE_BITS : Nat :=
  32

structure BudgetRecord where
  timeSinceLastBudget : Nat
  fromInitialReserve : Int
  fromAccumulatedFees : Int
  fromUnusedWitnessBudget : Int
  requestedWitnessBudget : Int
  totalBudget : Int
  witnessBudget : Int
  supplyDelta : Int
  deriving DecidableEq, Repr

namespace Database

/-- The pending parameters take the place of the present ones. -/
def installParameters (db : Database) : Database :=
  { db with
    parameters := db.pendingParameters.getD db.parameters
    pendingParameters := none }

/-- The time of the next maintenance, as `perform_chain_maintenance` looks for
it at the head block. -/
def newMaintenanceTime (db : Database) : Time :=
  let nextMaintenanceTime := db.properties.nextMaintenanceTime
  let maintenanceInterval := db.parameters.maintenanceInterval
  let timestamp := db.properties.time
  if nextMaintenanceTime ≤ timestamp then
    if db.properties.headBlockNumber = 1 then
      (timestamp / maintenanceInterval + 1) * maintenanceInterval
    else
      let y :=
        (timestamp.toNat - nextMaintenanceTime.toNat) /
          maintenanceInterval.toNat
      nextMaintenanceTime + UInt32.ofNat ((y + 1) * maintenanceInterval.toNat)
  else
    nextMaintenanceTime

def setMaintenanceTime (db : Database) : Database :=
  { db with
    properties := { db.properties with
      nextMaintenanceTime := db.newMaintenanceTime } }

/-- What the maximum rate releases of the reserve in `dt` seconds, rounded
up. -/
def cycleBudget (reserve : Int) (dt : Nat) : Int :=
  uint128
      (uint128 (uint128 (uint128 reserve * dt) *
          GRAPHENE_CORE_ASSET_CYCLE_RATE) +
        (2 ^ GRAPHENE_CORE_ASSET_CYCLE_RATE_BITS - 1)) /
    2 ^ GRAPHENE_CORE_ASSET_CYCLE_RATE_BITS

/-- What can be released of the reserve: after the hard fork all of it. -/
def releasedBudget (db : Database) (reserve : Int) (dt : Nat) :
    Except Fault Int :=
  if db.headBlockTime ≤ HARDFORK_1008_TIME ∧
      cycleBudget reserve dt < uint128 reserve then do
    let budget ← toUint64 (cycleBudget reserve dt)
    return int64 budget
  else
    .ok reserve

def initializeBudgetRecord (db : Database) :
    Except Fault BudgetRecord := do
  let core ← db.getAsset db.currentCoreAssetId
  let fromInitialReserve ←
    share (core.options.maxSupply - core.dynamicData.currentSupply)
  let record : BudgetRecord := {
    timeSinceLastBudget := 0
    fromInitialReserve := fromInitialReserve
    fromAccumulatedFees := core.dynamicData.accumulatedFees
    fromUnusedWitnessBudget := db.properties.witnessBudget
    requestedWitnessBudget := 0
    totalBudget := 0
    witnessBudget := 0
    supplyDelta := 0 }
  if db.properties.lastBudgetTime = 0 ∨
      db.properties.time ≤ db.properties.lastBudgetTime then
    return record
  else
    let dt := db.properties.time.toNat - db.properties.lastBudgetTime.toNat
    let reserve ←
      share (fromInitialReserve + core.dynamicData.accumulatedFees)
    let reserve ← share (reserve + db.properties.witnessBudget)
    let totalBudget ← db.releasedBudget reserve dt
    return { record with
      timeSinceLastBudget := dt
      totalBudget := totalBudget }

/-- The number of blocks until the next maintenance, in 64 bits. -/
def blocksToMaint (db : Database) : Nat :=
  let timeToMaint : Int :=
    db.properties.nextMaintenanceTime.toNat - db.properties.time.toNat
  let blockInterval := db.parameters.blockInterval.toNat
  ((timeToMaint % 2 ^ 64).toNat + blockInterval - 1) % 2 ^ 64 / blockInterval

/-- The budget that is asked for, as it is read from the product. -/
def requestedBudget (db : Database) : Int :=
  int64 (db.parameters.witnessPayPerBlock * db.blocksToMaint)

/-- `process_budget`; the record that it creates is returned as well. -/
def processBudget (db : Database) :
    Except Fault (Database × BudgetRecord) := do
  let core ← db.getAsset db.currentCoreAssetId
  let record ← db.initializeBudgetRecord
  let witnessBudget := min db.requestedBudget record.totalBudget
  let _ ← share (record.totalBudget - witnessBudget)
  let lessFees ← share (witnessBudget - record.fromAccumulatedFees)
  let supplyDelta ← share (lessFees - record.fromUnusedWitnessBudget)
  let currentSupply ← share (core.dynamicData.currentSupply + supplyDelta)
  let funded :=
    db.setAsset db.currentCoreAssetId
      { core with
        dynamicData := { core.dynamicData with
          currentSupply := currentSupply
          accumulatedFees := 0 } }
  return (
    { funded with
      properties := { funded.properties with
        witnessBudget := witnessBudget
        lastBudgetTime := db.properties.time } },
    { record with
      requestedWitnessBudget := db.requestedBudget
      witnessBudget := witnessBudget
      supplyDelta := supplyDelta })

/-- The end of `perform_chain_maintenance`. -/
def finishMaintenance (db : Database) :
    Except Fault (Database × BudgetRecord) :=
  db.installParameters.setMaintenanceTime.processBudget

end Database

section Schedule

variable {db after : Database}

/-- The first time of the schedule that is after the head, without a bound. -/
def leastMaintenanceTime (db : Database) : Nat :=
  let interval := db.parameters.maintenanceInterval.toNat
  let time := db.properties.time.toNat
  if db.properties.headBlockNumber = 1 then
    (time / interval + 1) * interval
  else
    let next := db.properties.nextMaintenanceTime.toNat
    next + ((time - next) / interval + 1) * interval

/-- The next maintenance is after the head; from the second block on it is the
first such time that is whole intervals after the last one. -/
structure Scheduled (before after : Database) : Prop where
  future : before.properties.time < after.properties.nextMaintenanceTime
  least :
    before.properties.headBlockNumber ≠ 1 →
      ∃ k,
        after.properties.nextMaintenanceTime.toNat =
          before.properties.nextMaintenanceTime.toNat +
            k * after.parameters.maintenanceInterval.toNat ∧
        ∀ other,
          before.properties.time.toNat <
            before.properties.nextMaintenanceTime.toNat +
              other * after.parameters.maintenanceInterval.toNat →
          k ≤ other

/-- The next whole multiple is after the number, by no more than the width. -/
theorem floor_succ_bounds (number : Nat) {width : Nat} (positive : 0 < width) :
    number < (number / width + 1) * width ∧
      (number / width + 1) * width ≤ number + width := by
  have below := Nat.div_mul_le_self number width
  have above := Nat.lt_div_mul_add (a := number) positive
  rw [Nat.add_mul, Nat.one_mul]
  omega

theorem leastMaintenanceTime_bounds
    (positive : 0 < db.parameters.maintenanceInterval.toNat)
    (needed :
      db.properties.nextMaintenanceTime.toNat ≤ db.properties.time.toNat) :
    db.properties.time.toNat < leastMaintenanceTime db ∧
      leastMaintenanceTime db ≤
        db.properties.time.toNat +
          db.parameters.maintenanceInterval.toNat := by
  simp only [leastMaintenanceTime]
  by_cases first : db.properties.headBlockNumber = 1
  · simp only [first, if_true]
    exact floor_succ_bounds _ positive
  · simp only [first, if_false]
    have bounds :=
      floor_succ_bounds
        (db.properties.time.toNat - db.properties.nextMaintenanceTime.toNat)
        positive
    omega

/-- The time that is computed is the first one, modulo `2 ^ 32`. -/
theorem toNat_newMaintenanceTime
    (needed :
      db.properties.nextMaintenanceTime.toNat ≤ db.properties.time.toNat) :
    db.newMaintenanceTime.toNat = leastMaintenanceTime db % 2 ^ 32 := by
  have due : db.properties.nextMaintenanceTime ≤ db.properties.time :=
    UInt32.le_iff_toNat_le.mpr needed
  by_cases first : db.properties.headBlockNumber = 1
  · simp only [Database.newMaintenanceTime, leastMaintenanceTime, due, first,
      if_true, UInt32.toNat_mul, UInt32.toNat_add, UInt32.toNat_div]
    rw [Nat.mod_mul_mod]
    rfl
  · simp only [Database.newMaintenanceTime, leastMaintenanceTime, due, first,
      if_true, if_false, UInt32.toNat_add, UInt32.toNat_ofNat']
    rw [Nat.add_mod_mod]

/-- The next maintenance is as it should be exactly when its time fits 32
bits. -/
theorem scheduled_iff (positive : 0 < db.parameters.maintenanceInterval.toNat)
    (needed :
      db.properties.nextMaintenanceTime.toNat ≤ db.properties.time.toNat)
    (time : after.properties.nextMaintenanceTime = db.newMaintenanceTime)
    (parameters : after.parameters = db.parameters) :
    Scheduled db after ↔ leastMaintenanceTime db < 2 ^ 32 := by
  have bounds := leastMaintenanceTime_bounds positive needed
  have computed := toNat_newMaintenanceTime needed
  have headTime := db.properties.time.toNat_lt
  have interval := db.parameters.maintenanceInterval.toNat_lt
  constructor
  · intro scheduled
    have future := UInt32.lt_iff_toNat_lt.mp scheduled.future
    rw [time, computed] at future
    omega
  · intro fits
    rw [Nat.mod_eq_of_lt fits] at computed
    refine ⟨?_, ?_⟩
    · rw [UInt32.lt_iff_toNat_lt, time, computed]
      exact bounds.1
    · intro later
      rw [time, computed, parameters]
      have whole :
          leastMaintenanceTime db =
            db.properties.nextMaintenanceTime.toNat +
              ((db.properties.time.toNat -
                  db.properties.nextMaintenanceTime.toNat) /
                db.parameters.maintenanceInterval.toNat + 1) *
              db.parameters.maintenanceInterval.toNat := by
        simp only [leastMaintenanceTime, later, if_false]
      refine ⟨_, whole, ?_⟩
      intro other isLater
      apply Nat.succ_le_of_lt
      rw [Nat.div_lt_iff_lt_mul positive]
      omega

end Schedule

section Budget

variable {db after : Database} {core : AssetObject}

/-- The supply of the core asset covers its fees and the budget, and is at most
its maximum. -/
structure FundedBy (db : Database) (core : AssetObject) : Prop where
  found : db.assets[db.currentCoreAssetId]? = some core
  fees : 0 ≤ core.dynamicData.accumulatedFees
  budget : 0 ≤ db.properties.witnessBudget
  covered :
    core.dynamicData.accumulatedFees + db.properties.witnessBudget ≤
      core.dynamicData.currentSupply
  bounded : core.dynamicData.currentSupply ≤ core.options.maxSupply
  maximum : core.options.maxSupply < 2 ^ 63

/-- What may be given out at most. -/
def reserveOf (db : Database) (core : AssetObject) : Int :=
  core.options.maxSupply - core.dynamicData.currentSupply +
      core.dynamicData.accumulatedFees +
    db.properties.witnessBudget

/-- The budget is at most what there is, and the supply changes by what is taken
from it. -/
structure Budgeted (before after : Database) (core : AssetObject) : Prop where
  nonneg : 0 ≤ after.properties.witnessBudget
  bounded : after.properties.witnessBudget ≤ reserveOf before core
  changed :
    ∃ coreAfter,
      after.assets[before.currentCoreAssetId]? = some coreAfter ∧
      coreAfter.options.maxSupply = core.options.maxSupply ∧
      coreAfter.dynamicData.currentSupply - core.dynamicData.currentSupply =
        after.properties.witnessBudget - core.dynamicData.accumulatedFees -
          before.properties.witnessBudget ∧
      coreAfter.dynamicData.accumulatedFees = 0 ∧
      0 ≤ coreAfter.dynamicData.currentSupply ∧
      coreAfter.dynamicData.currentSupply ≤ coreAfter.options.maxSupply

theorem FundedBy.reserve_bounds (funded : FundedBy db core) :
    0 ≤ reserveOf db core ∧ reserveOf db core < 2 ^ 63 := by
  have fees := funded.fees
  have budget := funded.budget
  have covered := funded.covered
  have bounded := funded.bounded
  have maximum := funded.maximum
  rw [reserveOf]
  omega

theorem share_of_range {value : Int}
    (low : -2 ^ 63 ≤ value) (high : value < 2 ^ 63) : share value = .ok value :=
  if_pos ⟨low, high⟩

theorem releasedBudget_bounds {reserve : Int} (dt : Nat) (nonneg : 0 ≤ reserve)
    (fits : reserve < 2 ^ 63) :
    ∃ total, db.releasedBudget reserve dt = .ok total ∧
      0 ≤ total ∧ total ≤ reserve := by
  have low : 0 ≤ Database.cycleBudget reserve dt :=
    Int.ediv_nonneg (Int.emod_nonneg _ (by decide)) (by decide)
  have whole : uint128 reserve = reserve :=
    Int.emod_eq_of_lt nonneg (by omega)
  rw [Database.releasedBudget, whole]
  generalize Database.cycleBudget reserve dt = budget at low
  by_cases capped :
      db.headBlockTime ≤ HARDFORK_1008_TIME ∧ budget < reserve
  · have small := capped.2
    have read : toUint64 budget = .ok budget := by
      rw [toUint64, fcAssert, require, if_pos (by omega)]
      rfl
    rw [if_pos capped, read]
    refine ⟨int64 budget, rfl, ?_⟩
    rw [int64_of_range (by omega) (by omega)]
    omega
  · rw [if_neg capped]
    exact ⟨reserve, rfl, nonneg, Int.le_refl reserve⟩

theorem initializeBudgetRecord_spec (funded : FundedBy db core) :
    ∃ record,
      db.initializeBudgetRecord = .ok record ∧
      record.fromAccumulatedFees = core.dynamicData.accumulatedFees ∧
      record.fromUnusedWitnessBudget = db.properties.witnessBudget ∧
      0 ≤ record.totalBudget ∧ record.totalBudget ≤ reserveOf db core := by
  obtain ⟨nonneg, fits⟩ := funded.reserve_bounds
  have fees := funded.fees
  have budget := funded.budget
  have covered := funded.covered
  have bounded := funded.bounded
  have maximum := funded.maximum
  have isCore : db.getAsset db.currentCoreAssetId = .ok core := by
    rw [Database.getAsset, funded.found]
    rfl
  have first :
      share (core.options.maxSupply - core.dynamicData.currentSupply) =
        .ok (core.options.maxSupply - core.dynamicData.currentSupply) :=
    share_of_range (by omega) (by omega)
  by_cases early :
      db.properties.lastBudgetTime = 0 ∨
        db.properties.time ≤ db.properties.lastBudgetTime
  · refine ⟨{
      timeSinceLastBudget := 0
      fromInitialReserve :=
        core.options.maxSupply - core.dynamicData.currentSupply
      fromAccumulatedFees := core.dynamicData.accumulatedFees
      fromUnusedWitnessBudget := db.properties.witnessBudget
      requestedWitnessBudget := 0
      totalBudget := 0
      witnessBudget := 0
      supplyDelta := 0 }, ?_, rfl, rfl, Int.le_refl 0, nonneg⟩
    simp only [Database.initializeBudgetRecord, isCore, first, early, if_true,
      bind, Except.bind]
    rfl
  · have withFees :
        share
            (core.options.maxSupply - core.dynamicData.currentSupply +
              core.dynamicData.accumulatedFees) =
          .ok
            (core.options.maxSupply - core.dynamicData.currentSupply +
              core.dynamicData.accumulatedFees) :=
      share_of_range (by omega) (by omega)
    have whole : share (reserveOf db core) = .ok (reserveOf db core) :=
      share_of_range (by omega) fits
    obtain ⟨total, released, low, high⟩ :=
      @releasedBudget_bounds db _
        (db.properties.time.toNat - db.properties.lastBudgetTime.toNat) nonneg
        fits
    rw [reserveOf] at whole released
    refine ⟨{
      timeSinceLastBudget :=
        db.properties.time.toNat - db.properties.lastBudgetTime.toNat
      fromInitialReserve :=
        core.options.maxSupply - core.dynamicData.currentSupply
      fromAccumulatedFees := core.dynamicData.accumulatedFees
      fromUnusedWitnessBudget := db.properties.witnessBudget
      requestedWitnessBudget := 0
      totalBudget := total
      witnessBudget := 0
      supplyDelta := 0 }, ?_, rfl, rfl, low, high⟩
    simp only [Database.initializeBudgetRecord, isCore, first, early, if_false,
      withFees, whole, released, bind, Except.bind]
    rfl

/-- The budget of a funded database is in order when what is asked for does not
read as negative. -/
theorem processBudget_spec
    (funded : FundedBy db core) (asked : 0 ≤ db.requestedBudget) :
    ∃ after record,
      db.processBudget = .ok (after, record) ∧
      Budgeted db after core ∧
      after.properties.nextMaintenanceTime =
        db.properties.nextMaintenanceTime ∧
      after.properties.time = db.properties.time ∧
      after.parameters = db.parameters := by
  obtain ⟨record, isRecord, isFees, isUnused, low, high⟩ :=
    initializeBudgetRecord_spec funded
  obtain ⟨_, fits⟩ := funded.reserve_bounds
  have fees := funded.fees
  have budget := funded.budget
  have covered := funded.covered
  have bounded := funded.bounded
  have maximum := funded.maximum
  have isCore : db.getAsset db.currentCoreAssetId = .ok core := by
    rw [Database.getAsset, funded.found]
    rfl
  rw [reserveOf] at high fits
  have lowBudget : 0 ≤ min db.requestedBudget record.totalBudget :=
    le_min asked low
  have highBudget :
      min db.requestedBudget record.totalBudget ≤ record.totalBudget :=
    min_le_right _ _
  obtain ⟨witnessBudget, isBudget⟩ :
      ∃ witnessBudget, witnessBudget =
        min db.requestedBudget record.totalBudget := ⟨_, rfl⟩
  rw [← isBudget] at lowBudget highBudget
  have left : share (record.totalBudget - witnessBudget) = .ok _ :=
    share_of_range (by omega) (by omega)
  have lessFees :
      share (witnessBudget - core.dynamicData.accumulatedFees) = .ok _ :=
    share_of_range (by omega) (by omega)
  have delta :
      share
          (witnessBudget - core.dynamicData.accumulatedFees -
            db.properties.witnessBudget) = .ok _ :=
    share_of_range (by omega) (by omega)
  have supply :
      share
          (core.dynamicData.currentSupply +
            (witnessBudget - core.dynamicData.accumulatedFees -
              db.properties.witnessBudget)) = .ok _ :=
    share_of_range (by omega) (by omega)
  let funds : AssetObject :=
    { core with
      dynamicData := { core.dynamicData with
        currentSupply :=
          core.dynamicData.currentSupply +
            (witnessBudget - core.dynamicData.accumulatedFees -
              db.properties.witnessBudget)
        accumulatedFees := 0 } }
  obtain ⟨inside, _⟩ := List.getElem?_eq_some_iff.mp funded.found
  refine ⟨{ db with
      assets := db.assets.set db.currentCoreAssetId funds
      properties := { db.properties with
        witnessBudget := witnessBudget
        lastBudgetTime := db.properties.time } },
    { record with
      requestedWitnessBudget := db.requestedBudget
      witnessBudget := witnessBudget
      supplyDelta :=
        witnessBudget - core.dynamicData.accumulatedFees -
          db.properties.witnessBudget }, ?_,
    ⟨lowBudget, ?_, funds, ?_, rfl, ?_, rfl, ?_, ?_⟩, rfl, rfl, rfl⟩
  · simp only [Database.processBudget, isCore, isRecord, isFees, isUnused,
      ← isBudget, left, lessFees, delta, supply, bind, Except.bind]
    rfl
  · rw [reserveOf]
    exact Int.le_trans highBudget high
  · exact List.getElem?_set_self inside
  · show core.dynamicData.currentSupply +
        (witnessBudget - core.dynamicData.accumulatedFees -
          db.properties.witnessBudget) - core.dynamicData.currentSupply =
      witnessBudget - core.dynamicData.accumulatedFees -
        db.properties.witnessBudget
    omega
  · show 0 ≤ core.dynamicData.currentSupply +
      (witnessBudget - core.dynamicData.accumulatedFees -
        db.properties.witnessBudget)
    omega
  · show core.dynamicData.currentSupply +
        (witnessBudget - core.dynamicData.accumulatedFees -
          db.properties.witnessBudget) ≤ core.options.maxSupply
    omega

theorem processBudget_asked {record : BudgetRecord}
    (processed : db.processBudget = .ok (after, record)) :
    after.properties.witnessBudget ≤ db.requestedBudget ∧
      after.properties.nextMaintenanceTime =
        db.properties.nextMaintenanceTime ∧
      after.parameters = db.parameters := by
  simp only [Database.processBudget, bind_eq_ok] at processed
  obtain ⟨_, _, made, _, _, _, _, _, _, _, _, _, returned⟩ := processed
  cases returned
  exact ⟨min_le_left _ _, rfl, rfl⟩

end Budget

section Finish

variable {db after : Database} {core : AssetObject} {record : BudgetRecord}

/-- The number of blocks up to the first time of the schedule. -/
def budgetBlocks (db : Database) : Nat :=
  (leastMaintenanceTime db - db.properties.time.toNat +
      db.parameters.blockInterval.toNat - 1) /
    db.parameters.blockInterval.toNat

/-- With the parameters installed, the first time of the schedule fits 32 bits
and the budget for the blocks until then does not read as negative. -/
structure Within (db : Database) : Prop where
  time : leastMaintenanceTime db.installParameters < 2 ^ 32
  budget :
    db.installParameters.parameters.witnessPayPerBlock *
        budgetBlocks db.installParameters % 2 ^ 64 <
      2 ^ 63

/-- The parameters that are installed have intervals, and it is time for the
maintenance. -/
structure Due (db : Database) : Prop where
  interval : 0 < db.installParameters.parameters.maintenanceInterval.toNat
  block : 0 < db.installParameters.parameters.blockInterval.toNat
  needed : db.properties.nextMaintenanceTime.toNat ≤ db.properties.time.toNat

/-- The maintenance finishes, with the next one and the budget in order. -/
def FinishesWell (db : Database) (core : AssetObject) : Prop :=
  ∃ after record,
    db.finishMaintenance = .ok (after, record) ∧ Scheduled db after ∧
      Budgeted db after core

/-- The parameters and the time of the next maintenance are not read for the
budget's sources. -/
theorem FundedBy.ready (funded : FundedBy db core) :
    FundedBy db.installParameters.setMaintenanceTime core :=
  ⟨funded.found, funded.fees, funded.budget, funded.covered, funded.bounded,
    funded.maximum⟩

theorem requestedBudget_nonneg_iff (db : Database) :
    0 ≤ db.requestedBudget ↔
      db.parameters.witnessPayPerBlock * db.blocksToMaint % 2 ^ 64 <
        2 ^ 63 := by
  rw [Database.requestedBudget, int64]
  omega

/-- The blocks that are counted are those until the next maintenance. -/
theorem blocksToMaint_ready
    (due : Due db) (fits : leastMaintenanceTime db.installParameters < 2 ^ 32) :
    db.installParameters.setMaintenanceTime.blocksToMaint =
      budgetBlocks db.installParameters := by
  obtain ⟨later, _⟩ :=
    @leastMaintenanceTime_bounds db.installParameters due.interval due.needed
  have computed := @toNat_newMaintenanceTime db.installParameters due.needed
  rw [Nat.mod_eq_of_lt fits] at computed
  have next :
      db.installParameters.setMaintenanceTime.properties.nextMaintenanceTime.toNat =
        leastMaintenanceTime db.installParameters := computed
  have small := db.installParameters.parameters.blockInterval.toNat_lt
  have head :
      db.installParameters.setMaintenanceTime.properties.time =
        db.installParameters.properties.time := rfl
  have blocks :
      db.installParameters.setMaintenanceTime.parameters =
        db.installParameters.parameters := rfl
  rw [Database.blocksToMaint, budgetBlocks, next, head, blocks]
  have seconds :
      (((leastMaintenanceTime db.installParameters : Int) -
          (db.installParameters.properties.time.toNat : Int)) % 2 ^ 64).toNat =
        leastMaintenanceTime db.installParameters -
          db.installParameters.properties.time.toNat := by
    omega
  rw [seconds, Nat.mod_eq_of_lt (by omega)]

/-- The end of the maintenance is in order exactly within these bounds. -/
theorem finishesWell_iff (funded : FundedBy db core) (due : Due db) :
    FinishesWell db core ↔ Within db := by
  constructor
  · rintro ⟨after, record, finished, scheduled, budgeted⟩
    obtain ⟨asked, time, parameters⟩ := processBudget_asked finished
    have fits : leastMaintenanceTime db.installParameters < 2 ^ 32 := by
      rw [← @scheduled_iff db.installParameters after due.interval due.needed
        time parameters]
      exact ⟨scheduled.future, scheduled.least⟩
    refine ⟨fits, ?_⟩
    rw [← blocksToMaint_ready due fits]
    exact (requestedBudget_nonneg_iff _).mp
      (Int.le_trans budgeted.nonneg asked)
  · intro within
    have asked : 0 ≤ db.installParameters.setMaintenanceTime.requestedBudget := by
      rw [requestedBudget_nonneg_iff, blocksToMaint_ready due within.time]
      exact within.budget
    obtain ⟨after, record, processed, budgeted, time, _, parameters⟩ :=
      processBudget_spec funded.ready asked
    have scheduled :=
      (@scheduled_iff db.installParameters after due.interval due.needed time
        parameters).mpr within.time
    exact ⟨after, record, processed, ⟨scheduled.future, scheduled.least⟩,
      budgeted.nonneg, budgeted.bounded, budgeted.changed⟩

end Finish

section Runs

variable {db after : Database} {core : AssetObject} {record : BudgetRecord}

/-- A block becomes the head: its witness is paid out of the budget. -/
def headBlock (timestamp : Time) (db : Database) : Database :=
  let witnessPay :=
    min db.parameters.witnessPayPerBlock db.properties.witnessBudget
  { db with
    properties := { db.properties with
      headBlockNumber := db.properties.headBlockNumber + 1
      time := timestamp
      witnessBudget := db.properties.witnessBudget - witnessPay } }

/-- Transactions and the rest of the maintenance: they leave the properties, but
for the reward pool, and the parameters in force. -/
structure Elsewhere (before after : Database) : Prop where
  properties :
    ∃ pool,
      after.properties =
        { before.properties with currentStakingRewardPool := pool }
  parameters : after.parameters = before.parameters

/-- Runs whose maintenances stay within their bounds, and in which nothing else
takes the supply of the core asset above its maximum or below what it has to
cover. -/
inductive MaintenanceRun : Database → Prop
  | start {db : Database} {core : AssetObject} (funded : FundedBy db core) :
      MaintenanceRun db
  | elsewhere {db after : Database} {core : AssetObject}
      (run : MaintenanceRun db) (same : Elsewhere db after)
      (funded : FundedBy after core) : MaintenanceRun after
  | block {db : Database} {timestamp : Time}
      (run : MaintenanceRun db)
      (later : db.properties.time < timestamp)
      (pays : 0 ≤ db.parameters.witnessPayPerBlock)
      (sameCore :
        (headBlock timestamp db).currentCoreAssetId = db.currentCoreAssetId ∨
          ∃ core, FundedBy (headBlock timestamp db) core) :
      MaintenanceRun (headBlock timestamp db)
  | maintain {db after : Database} {record : BudgetRecord}
      (run : MaintenanceRun db) (due : Due db) (within : Within db)
      (finished : db.finishMaintenance = .ok (after, record)) :
      MaintenanceRun after

theorem FundedBy.headBlock {timestamp : Time} (funded : FundedBy db core)
    (pays : 0 ≤ db.parameters.witnessPayPerBlock)
    (sameCore :
      (Ledger.headBlock timestamp db).currentCoreAssetId =
        db.currentCoreAssetId) :
    FundedBy (Ledger.headBlock timestamp db) core := by
  have budget := funded.budget
  have covered := funded.covered
  have pay :
      0 ≤ min db.parameters.witnessPayPerBlock db.properties.witnessBudget ∧
        min db.parameters.witnessPayPerBlock db.properties.witnessBudget ≤
          db.properties.witnessBudget :=
    ⟨le_min pays budget, min_le_right _ _⟩
  refine ⟨?_, funded.fees, ?_, ?_, funded.bounded, funded.maximum⟩
  · rw [sameCore]
    exact funded.found
  · show 0 ≤ db.properties.witnessBudget - min _ _
    omega
  · show core.dynamicData.accumulatedFees +
      (db.properties.witnessBudget - min _ _) ≤ core.dynamicData.currentSupply
    omega

theorem FundedBy.finish
    (funded : FundedBy db core) (budgeted : Budgeted db after core)
    (time : after.properties.time = db.properties.time) :
    ∃ coreAfter, FundedBy after coreAfter := by
  obtain ⟨coreAfter, found, maximum, changed, fees, nonneg, bounded⟩ :=
    budgeted.changed
  have covered := funded.covered
  have low := budgeted.nonneg
  have sameCore : after.currentCoreAssetId = db.currentCoreAssetId := by
    rw [Database.currentCoreAssetId, Database.headBlockTime, time]
    rfl
  refine ⟨coreAfter, ?_, ?_, low, ?_, bounded, ?_⟩
  · rw [sameCore]
    exact found
  · rw [fees]
  · omega
  · rw [maximum]
    exact funded.maximum

theorem MaintenanceRun.funded (run : MaintenanceRun db) :
    ∃ core, FundedBy db core := by
  induction run with
  | start funded => exact ⟨_, funded⟩
  | elsewhere _ _ funded => exact ⟨_, funded⟩
  | block _ _ pays sameCore ih =>
      obtain ⟨core, funded⟩ := ih
      rcases sameCore with same | newCore
      · exact ⟨core, funded.headBlock pays same⟩
      · exact newCore
  | @maintain db after record run due within finished ih =>
      obtain ⟨core, funded⟩ := ih
      have asked :
          0 ≤ db.installParameters.setMaintenanceTime.requestedBudget := by
        rw [requestedBudget_nonneg_iff, blocksToMaint_ready due within.time]
        exact within.budget
      obtain ⟨other, otherRecord, processed, budgeted, _, time, _⟩ :=
        processBudget_spec funded.ready asked
      rw [Database.finishMaintenance, processed] at finished
      cases finished
      have budgetedHere : Budgeted db after core :=
        ⟨budgeted.nonneg, budgeted.bounded, budgeted.changed⟩
      exact funded.finish budgetedHere time

/-- In every run whose maintenances stay within their bounds, a maintenance that
is due sets the next one and the budget as it should exactly when it stays
within them, too: the next maintenance is the first time of the schedule after
the head, and the budget, at most what there is, is lent to the supply, which
stays between nothing and its maximum. -/
theorem maintenance_finishes_well (run : MaintenanceRun db) :
    ∃ core, FundedBy db core ∧
      (Due db → (FinishesWell db core ↔ Within db)) := by
  obtain ⟨core, funded⟩ := run.funded
  exact ⟨core, funded, finishesWell_iff funded⟩

end Runs

/-- A database at a maintenance, with this interval installed and this pay for a
block. -/
def dueDatabase (maintenanceInterval : UInt32) (witnessPayPerBlock : Int) :
    Database :=
  { plainDatabase with
    parameters := { plainParameters with
      blockInterval := 3
      maintenanceInterval := maintenanceInterval
      witnessPayPerBlock := witnessPayPerBlock }
    properties := { plainDatabase.properties with
      headBlockNumber := 50
      time := 1610003603
      lastBudgetTime := 1610000000 } }

theorem dueDatabase_funded (maintenanceInterval : UInt32) (pay : Int) :
    FundedBy (dueDatabase maintenanceInterval pay) plainAsset :=
  ⟨rfl, by decide, Int.le_refl 0,
    by show (0 : Int) + 0 ≤ 100; decide, by decide, by decide⟩

theorem maintenance_finishes_well_hourly :
    FinishesWell (dueDatabase 3600 10) plainAsset := by
  obtain ⟨core, funded, well⟩ :=
    maintenance_finishes_well (.start (dueDatabase_funded 3600 10))
  have isCore : some plainAsset = some core := funded.found
  cases isCore
  exact (well ⟨by decide, by decide, by decide⟩).mpr ⟨by decide, by decide⟩

/-- With an interval of nearly `2 ^ 32` seconds, which is valid, the next
maintenance is before the head; with a large pay the budget is negative. -/
theorem long_interval_wraps :
    (MaintenanceRun (dueDatabase 4294967295 0) ∧
      Due (dueDatabase 4294967295 0) ∧
      ¬ FinishesWell (dueDatabase 4294967295 0) plainAsset) ∧
    (MaintenanceRun (dueDatabase 3600 9000000000000000) ∧
      Due (dueDatabase 3600 9000000000000000) ∧
      ¬ FinishesWell (dueDatabase 3600 9000000000000000) plainAsset) := by
  have long : Due (dueDatabase 4294967295 0) :=
    ⟨by decide, by decide, by decide⟩
  have rich : Due (dueDatabase 3600 9000000000000000) :=
    ⟨by decide, by decide, by decide⟩
  refine ⟨⟨.start (dueDatabase_funded _ _), long, ?_⟩,
    ⟨.start (dueDatabase_funded _ _), rich, ?_⟩⟩
  · intro well
    have within := (finishesWell_iff (dueDatabase_funded _ _) long).mp well
    exact absurd within.time (by decide)
  · intro well
    have within := (finishesWell_iff (dueDatabase_funded _ _) rich).mp well
    exact absurd within.budget (by decide)

end GxbCore.Ledger
