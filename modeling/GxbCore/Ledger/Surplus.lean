import GxbCore.Ledger.Balances

/-!
# What the recorded supply leaves over

The surplus of an asset is its recorded supply less everything that is held in
it.  A call is summed up by the credit it gives to the holders of each asset,
net of what it adds to the supply; credits add up along a sequence of calls, and
a balanced operation gives none.

`Sound` says that no holder holds less than nothing and that no supply is above
its maximum.
-/

namespace GxbCore.Ledger

def inAsset (id asset : AssetId) (amount : Int) : Int :=
  if asset = id then amount else 0

@[simp]
theorem inAsset_zero (id asset : AssetId) : inAsset id asset 0 = 0 := by
  simp [inAsset]

theorem inAsset_neg (id asset : AssetId) (x : Int) :
    inAsset id asset (-x) = -inAsset id asset x := by
  unfold inAsset
  split_ifs
  · rfl
  · rfl

theorem inAsset_add (id asset : AssetId) (x y : Int) :
    inAsset id asset (x + y) = inAsset id asset x + inAsset id asset y := by
  unfold inAsset
  split_ifs
  · rfl
  · rfl

theorem inAsset_sub (id asset : AssetId) (x y : Int) :
    inAsset id asset (x - y) = inAsset id asset x - inAsset id asset y := by
  unfold inAsset
  split_ifs
  · rfl
  · rfl

namespace Database

/-- The supply that is neither accumulated fees nor confidential. -/
def outstanding (a : AssetObject) : Int :=
  a.dynamicData.currentSupply - a.dynamicData.accumulatedFees
    - a.dynamicData.confidentialSupply

def outstandingOf (assets : List AssetObject) (id : AssetId) : Int :=
  (assets[id]?.map outstanding).getD 0

def held (db : Database) (id : AssetId) : Int :=
  total (fun b => inAsset id b.assetType b.balance) db.balances
    + total (fun v => inAsset id v.balance.assetId v.balance.amount) db.vestings
    + total (fun s => inAsset id s.amount.assetId s.amount.amount) db.stakings
    + total (fun l => inAsset id l.amount.assetId l.amount.amount) db.locks
    + total (fun p => inAsset id p.amount.assetId p.amount.amount) db.pledges

/-- The fees of an account that are not paid out yet. -/
def pending (a : AccountObject) : Int :=
  a.pendingFees + a.pendingVestedFees

/-- What is held in the core asset in pools and in fees on their way. -/
def coreHeld (db : Database) : Int :=
  total (fun a => a.dynamicData.feePool) db.assets
    + total pending db.accounts
    + db.properties.witnessBudget
    + db.properties.currentStakingRewardPool
    + total (fun w => w.voteRewardPool) db.witnesses

/-- What the fee-backed asset accumulators hold, in the core asset. -/
def fbaHeld (db : Database) : Int :=
  total (fun f => f.accumulatedFbaFees) db.fbas

/-- The recorded supply less everything that is held. -/
def surplus (core : AssetId) (db : Database) (id : AssetId) : Int :=
  outstandingOf db.assets id - db.held id
    - inAsset id core (db.coreHeld + db.fbaHeld)

/-- The call credits the holders of each asset with `credit`, net of what it
adds to the supply, and no block passes. -/
structure Moves
    (core : AssetId) (db after : Database) (credit : AssetId → Int) :
    Prop where
  sameTime : after.properties.time = db.properties.time
  surplus_eq : ∀ id, surplus core after id = surplus core db id - credit id

namespace Moves

variable {core : AssetId} {db middle after : Database}
  {credit more : AssetId → Int}

theorem refl (core : AssetId) (db : Database) : Moves core db db 0 :=
  ⟨rfl, fun id => by simp⟩

theorem trans (first : Moves core db middle credit)
    (later : Moves core middle after more) :
    Moves core db after (credit + more) := by
  refine ⟨later.sameTime.trans first.sameTime, ?_⟩
  intro id
  rw [later.surplus_eq, first.surplus_eq, Pi.add_apply]
  omega

theorem congr (moves : Moves core db after credit)
    (same : ∀ id, credit id = more id) : Moves core db after more :=
  ⟨moves.sameTime, fun id => by rw [moves.surplus_eq, same]⟩

theorem core_eq (moves : Moves core db after credit) :
    after.currentCoreAssetId = db.currentCoreAssetId := by
  unfold currentCoreAssetId headBlockTime
  rw [moves.sameTime]

end Moves

/-- An asset with its pools and its maximum in order. -/
structure SoundAsset (a : AssetObject) : Prop where
  feePool : 0 ≤ a.dynamicData.feePool
  accumulatedFees : 0 ≤ a.dynamicData.accumulatedFees
  confidentialSupply : 0 ≤ a.dynamicData.confidentialSupply
  supply_le : a.dynamicData.currentSupply ≤ a.options.maxSupply
  maxSupply_le : a.options.maxSupply ≤ GRAPHENE_MAX_SHARE_SUPPLY

/-- No holder holds less than nothing, and no supply is above its maximum.  The
supply of the core asset is not bounded from below here: within an operation it
can be lowered before the amounts that cover it are booked. -/
structure Sound (core : AssetId) (db : Database) : Prop where
  assets : ∀ a ∈ db.assets, SoundAsset a
  supplies :
    ∀ id a, db.assets[id]? = some a → id ≠ core →
      0 ≤ a.dynamicData.currentSupply
  balances : ∀ b ∈ db.balances, 0 ≤ b.balance
  vestings : ∀ v ∈ db.vestings, 0 ≤ v.balance.amount
  stakings : ∀ s ∈ db.stakings, 0 ≤ s.amount.amount
  locks : ∀ l ∈ db.locks, 0 ≤ l.amount.amount
  pledges : ∀ p ∈ db.pledges, 0 ≤ p.amount.amount
  accounts :
    ∀ a ∈ db.accounts,
      (0 ≤ a.pendingFees ∧ a.pendingFees < 2 ^ 63) ∧
        (0 ≤ a.pendingVestedFees ∧ a.pendingVestedFees < 2 ^ 63)
  witnesses :
    ∀ w ∈ db.witnesses, 0 ≤ w.voteRewardPool ∧ 0 ≤ w.totalVoteWeights
  witnessBudget : 0 ≤ db.properties.witnessBudget
  stakingRewardPool :
    0 ≤ db.properties.currentStakingRewardPool ∧
      db.properties.currentStakingRewardPool < 2 ^ 63
  fbas :
    ∀ f ∈ db.fbas,
      0 ≤ f.accumulatedFbaFees ∧ f.accumulatedFbaFees < 2 ^ 63

/-- The call keeps the holders sound. -/
def Keeps (core : AssetId) (db after : Database) : Prop :=
  Sound core db → Sound core after

end Database

open Database

section Sound

variable {core : AssetId} {db : Database}

theorem inAsset_nonneg {x : Int} {id asset : AssetId} (nonneg : 0 ≤ x) :
    0 ≤ inAsset id asset x := by
  unfold inAsset
  split
  · exact nonneg
  · exact le_rfl

theorem held_terms_nonneg (sound : Sound core db) (id : AssetId) :
    0 ≤ total (fun b => inAsset id b.assetType b.balance) db.balances ∧
      0 ≤ total (fun v => inAsset id v.balance.assetId v.balance.amount)
        db.vestings ∧
      0 ≤ total (fun s => inAsset id s.amount.assetId s.amount.amount)
        db.stakings ∧
      0 ≤ total (fun l => inAsset id l.amount.assetId l.amount.amount)
        db.locks ∧
      0 ≤ total (fun p => inAsset id p.amount.assetId p.amount.amount)
        db.pledges :=
  ⟨total_nonneg fun b member => inAsset_nonneg (sound.balances b member),
    total_nonneg fun v member => inAsset_nonneg (sound.vestings v member),
    total_nonneg fun s member => inAsset_nonneg (sound.stakings s member),
    total_nonneg fun l member => inAsset_nonneg (sound.locks l member),
    total_nonneg fun p member => inAsset_nonneg (sound.pledges p member)⟩

/-- Every part of what is held in the core asset alone, the two funds apart. -/
theorem coreHeld_terms_nonneg (sound : Sound core db) :
    0 ≤ total (fun a => a.dynamicData.feePool) db.assets ∧
      0 ≤ total pending db.accounts ∧
      0 ≤ total (fun w => w.voteRewardPool) db.witnesses ∧
      0 ≤ total (fun f => f.accumulatedFbaFees) db.fbas :=
  ⟨total_nonneg fun a member => (sound.assets a member).feePool,
    total_nonneg fun a member =>
      Int.add_nonneg (sound.accounts a member).1.1
        (sound.accounts a member).2.1,
    total_nonneg fun w member => (sound.witnesses w member).1,
    total_nonneg fun f member => (sound.fbas f member).1⟩

theorem plainDatabase_sound : Sound 1 plainDatabase where
  assets a member := by
    have isPlain : a = plainAsset := by simpa [plainDatabase] using member
    rw [isPlain]
    exact ⟨by decide, by decide, by decide, by decide, by decide⟩
  supplies id a found _ := by
    have all : ∀ a ∈ plainDatabase.assets,
        0 ≤ a.dynamicData.currentSupply := by decide
    exact all a (List.mem_of_getElem? found)
  balances := by decide
  vestings := by decide
  stakings := by decide
  locks := by decide
  pledges := by decide
  accounts := by decide
  witnesses := by decide
  witnessBudget := by decide
  stakingRewardPool := by decide
  fbas := by decide

end Sound

section Balances

variable {core : AssetId} {db after : Database}

theorem adjustBalance_moves {account : AccountId} {delta : Asset}
    (returns : db.adjustBalance account delta = .ok after) :
    Moves core db after (fun id => inAsset id delta.assetId delta.amount) := by
  unfold adjustBalance at returns
  split at returns
  · next nothing =>
      cases returns
      refine (Moves.refl core db).congr ?_
      intro id
      simp [inAsset, nothing]
  · split at returns
    · simp only [bind_eq_ok, fcAssert_eq_ok] at returns
      obtain ⟨_, _, returns⟩ := returns
      cases returns
      refine ⟨rfl, ?_⟩
      intro id
      simp only [surplus, held, coreHeld, fbaHeld, total_append, total_cons,
        total_nil]
      omega
    · next row found =>
        simp only [bind_eq_ok, fcAssert_eq_ok] at returns
        obtain ⟨_, _, balance, checked, returns⟩ := returns
        cases returns
        have isRow := List.find?_some found
        simp only [isBalanceOf, decide_eq_true_eq] at isRow
        refine ⟨rfl, ?_⟩
        intro id
        simp only [surplus, held, coreHeld, fbaHeld, total_replaceFirst found]
        rw [eq_of_share checked, inAsset_add, isRow.2]
        omega

variable {account : AccountId} {delta : Asset}

theorem adjustBalance_keeps
    (returns : db.adjustBalance account delta = .ok after) :
    Keeps core db after := by
  intro sound
  unfold adjustBalance at returns
  split at returns
  · cases returns
    exact sound
  · split at returns
    · simp only [bind_eq_ok, fcAssert_eq_ok] at returns
      obtain ⟨_, positive, returns⟩ := returns
      cases returns
      exact { sound with
        balances := forall_concat sound.balances (Int.le_of_lt positive) }
    · next row found =>
        simp only [bind_eq_ok, fcAssert_eq_ok] at returns
        obtain ⟨_, enough, balance, checked, returns⟩ := returns
        cases returns
        have rowNonneg := sound.balances row (List.mem_of_find?_eq_some found)
        refine { sound with
          balances := forall_replaceFirst sound.balances ?_ }
        change 0 ≤ balance
        rw [eq_of_share checked]
        by_cases negative : delta.amount < 0
        · have covered := enough negative
          omega
        · omega

theorem adjustBalance_frame
    (returns : db.adjustBalance account delta = .ok after) :
    after = { db with balances := after.balances } := by
  unfold adjustBalance at returns
  split at returns
  · cases returns
    rfl
  · split at returns
    · obtain ⟨_, _, returns⟩ := bind_eq_ok.mp returns
      cases returns
      rfl
    · obtain ⟨_, _, returns⟩ := bind_eq_ok.mp returns
      obtain ⟨_, _, returns⟩ := bind_eq_ok.mp returns
      cases returns
      rfl

theorem adjustBalance_getBalance
    (returns : db.adjustBalance account delta = .ok after)
    (owner : AccountId) (assetId : AssetId) :
    (after.getBalance owner assetId).amount =
      (db.getBalance owner assetId).amount +
        if owner = account ∧ assetId = delta.assetId then delta.amount
        else 0 := by
  unfold adjustBalance at returns
  split at returns
  · next nothing =>
      cases returns
      simp [nothing]
  · have apart :
        ¬ (owner = account ∧ assetId = delta.assetId) →
          ∀ row, isBalanceOf account delta.assetId row = true →
            isBalanceOf owner assetId row = false := by
      intro other row isRow
      simp only [isBalanceOf, decide_eq_true_eq, decide_eq_false_iff_not]
        at isRow ⊢
      rintro ⟨sameOwner, sameAsset⟩
      exact other ⟨sameOwner.symm.trans isRow.1,
        sameAsset.symm.trans isRow.2⟩
    split at returns
    · next missing =>
        obtain ⟨_, _, returns⟩ := bind_eq_ok.mp returns
        cases returns
        by_cases same : owner = account ∧ assetId = delta.assetId
        · rw [if_pos same]
          simp [getBalance, same.1, same.2, List.find?_append, missing,
            isBalanceOf]
        · rw [if_neg same]
          have stays := apart same ⟨account, delta.assetId, delta.amount⟩
            (by simp [isBalanceOf])
          simp [getBalance, List.find?_append, stays]
    · next row found =>
        obtain ⟨_, _, returns⟩ := bind_eq_ok.mp returns
        obtain ⟨balance, checked, returns⟩ := bind_eq_ok.mp returns
        cases returns
        have isRow := List.find?_some found
        by_cases same : owner = account ∧ assetId = delta.assetId
        · rw [if_pos same, same.1, same.2, getBalance, getBalance, found,
            find_replaceFirst found (by simpa [isBalanceOf] using isRow)]
          exact eq_of_share checked
        · rw [if_neg same, getBalance, getBalance,
            find_replaceFirst_of_not found (apart same row isRow)
              (apart same _ (by simpa [isBalanceOf] using isRow))]
          simp

theorem adjustBalance_assets
    (returns : db.adjustBalance account delta = .ok after) :
    after.assets = db.assets := by
  rw [adjustBalance_frame returns]

end Balances

section Rows

variable {core : AssetId} {db : Database} {a : AssetObject} {id : AssetId}

theorem outstandingOf_set {assets : List AssetObject} (fresh : AssetObject)
    (found : assets[id]? = some a) (x : AssetId) :
    outstandingOf (assets.set id fresh) x =
      outstandingOf assets x
        + inAsset x id (outstanding fresh - outstanding a) := by
  obtain ⟨inside, _⟩ := List.getElem?_eq_some_iff.mp found
  unfold outstandingOf inAsset
  rw [List.getElem?_set]
  by_cases same : id = x
  · subst same
    rw [if_pos rfl, if_pos inside, found, if_pos rfl]
    simp only [Option.map_some, Option.getD_some]
    omega
  · simp [same]

theorem setAsset_moves (fresh : AssetObject) (found : db.assets[id]? = some a) :
    Moves core db (db.setAsset id fresh)
      (fun x =>
        inAsset x id (outstanding a - outstanding fresh)
          + inAsset x core
              (fresh.dynamicData.feePool - a.dynamicData.feePool)) := by
  refine ⟨rfl, ?_⟩
  intro x
  simp only [surplus, setAsset, held, coreHeld, fbaHeld,
    outstandingOf_set fresh found, total_set fresh found, inAsset_add,
    inAsset_sub]
  omega

theorem setAsset_sound {fresh : AssetObject} (sound : Sound core db)
    (inOrder : SoundAsset fresh)
    (supply : id ≠ core → 0 ≤ fresh.dynamicData.currentSupply) :
    Sound core (db.setAsset id fresh) := by
  refine { sound with
    assets := forall_set sound.assets inOrder
    supplies := ?_ }
  intro x a at_x notCore
  simp only [setAsset, List.getElem?_set] at at_x
  split_ifs at at_x with same inside
  · cases at_x
    exact supply (same ▸ notCore)
  · exact sound.supplies x a at_x notCore

theorem setAccount_moves {id : AccountId} {a : AccountObject}
    (fresh : AccountObject) (found : db.accounts[id]? = some a) :
    Moves core db (db.setAccount id fresh)
      (fun x => inAsset x core (pending fresh - pending a)) := by
  refine ⟨rfl, ?_⟩
  intro x
  simp only [surplus, setAccount, held, coreHeld, fbaHeld,
    total_set fresh found, inAsset_add, inAsset_sub]
  omega

theorem setAccount_sound
    {id : AccountId} {fresh : AccountObject} (sound : Sound core db)
    (fees :
      (0 ≤ fresh.pendingFees ∧ fresh.pendingFees < 2 ^ 63) ∧
        (0 ≤ fresh.pendingVestedFees ∧ fresh.pendingVestedFees < 2 ^ 63)) :
    Sound core (db.setAccount id fresh) :=
  { sound with accounts := forall_set sound.accounts fees }

theorem setWitness_moves {id : WitnessId} {w : Witness} (fresh : Witness)
    (found : db.witnesses[id]? = some w) :
    Moves core db (db.setWitness id fresh)
      (fun x => inAsset x core (fresh.voteRewardPool - w.voteRewardPool)) := by
  refine ⟨rfl, ?_⟩
  intro x
  simp only [surplus, setWitness, held, coreHeld, fbaHeld,
    total_set fresh found, inAsset_add, inAsset_sub]
  omega

theorem setWitness_sound
    {id : WitnessId} {fresh : Witness} (sound : Sound core db)
    (inOrder : 0 ≤ fresh.voteRewardPool ∧ 0 ≤ fresh.totalVoteWeights) :
    Sound core (db.setWitness id fresh) :=
  { sound with witnesses := forall_set sound.witnesses inOrder }

theorem getAsset_eq_ok : db.getAsset id = .ok a ↔ db.assets[id]? = some a :=
  orThrow_eq_ok

theorem getAccount_eq_ok {id : AccountId} {a : AccountObject} :
    db.getAccount id = .ok a ↔ db.accounts[id]? = some a :=
  orThrow_eq_ok

theorem getWitness_eq_ok {id : WitnessId} {w : Witness} :
    db.getWitness id = .ok w ↔ db.witnesses[id]? = some w :=
  orThrow_eq_ok

theorem modifyDynamicData_eq_ok {after : Database}
    {change : AssetDynamicData → Except Fault AssetDynamicData} :
    db.modifyDynamicData id change = .ok after ↔
      ∃ a, db.assets[id]? = some a ∧
        ∃ d, change a.dynamicData = .ok d ∧
          db.setAsset id { a with dynamicData := d } = after := by
  simp only [modifyDynamicData, bind_eq_ok, getAsset_eq_ok]
  constructor
  · rintro ⟨a, found, d, changed, returns⟩
    cases returns
    exact ⟨a, found, d, changed, rfl⟩
  · rintro ⟨a, found, d, changed, rfl⟩
    exact ⟨a, found, d, changed, rfl⟩

end Rows

section Deposits

variable {core : AssetId} {db after : Database}

theorem findReusable_eq_some
    {ovbid : Option VestingBalanceId} {seconds : UInt32} {owner : AccountId}
    {place : VestingBalanceId × VestingBalance}
    (returns : db.findReusable ovbid seconds owner = .ok (some place)) :
    db.vestings[place.1]? = some place.2 := by
  unfold findReusable at returns
  split at returns
  · cases returns
  · simp only [bind_eq_ok, orThrow_eq_ok] at returns
    obtain ⟨vbo, found, returns⟩ := returns
    split at returns
    · cases returns
      exact found
    · cases returns

theorem depositLazyVesting_moves {ovbid newVbid : Option VestingBalanceId}
    {amount : Int} {seconds : UInt32} {owner : AccountId}
    {requireVesting : Bool} (isCore : db.currentCoreAssetId = core)
    (returns :
      db.depositLazyVesting ovbid amount seconds owner requireVesting =
        .ok (newVbid, after)) :
    Moves core db after (fun id => inAsset id core amount) := by
  unfold depositLazyVesting at returns
  split at returns
  · next nothing =>
      cases returns
      refine (Moves.refl core db).congr ?_
      intro id
      simp [nothing]
  · obtain ⟨reusable, found, returns⟩ := bind_eq_ok.mp returns
    cases reusable with
    | none =>
        cases returns
        refine ⟨rfl, ?_⟩
        intro id
        simp only [surplus, held, coreHeld, fbaHeld, total_append, total_cons,
          total_nil, lazyVesting, isCore]
        omega
    | some place =>
        obtain ⟨deposited, added, returns⟩ := bind_eq_ok.mp returns
        cases returns
        obtain ⟨_, balance⟩ := VestingBalance.depositWith_balance added
        have isPlace := findReusable_eq_some found
        obtain ⟨sameAsset, _⟩ := VestingBalance.depositWith_balance added
        refine ⟨rfl, ?_⟩
        intro id
        simp only [surplus, setVesting, held, coreHeld, fbaHeld,
          total_set deposited isPlace, balance, inAsset_add, sameAsset, isCore]
        omega

theorem depositLazyVesting_sound {ovbid newVbid : Option VestingBalanceId}
    {amount : Int} {seconds : UInt32} {owner : AccountId}
    {requireVesting : Bool} (nonneg : 0 ≤ amount)
    (returns :
      db.depositLazyVesting ovbid amount seconds owner requireVesting =
        .ok (newVbid, after))
    (sound : Sound core db) : Sound core after := by
  unfold depositLazyVesting at returns
  split at returns
  · cases returns
    exact sound
  · obtain ⟨reusable, found, returns⟩ := bind_eq_ok.mp returns
    cases reusable with
    | none =>
        cases returns
        exact { sound with vestings := forall_concat sound.vestings nonneg }
    | some place =>
        obtain ⟨deposited, added, returns⟩ := bind_eq_ok.mp returns
        cases returns
        obtain ⟨_, balance⟩ := VestingBalance.depositWith_balance added
        have isPlace := findReusable_eq_some found
        have before :=
          sound.vestings place.2 (List.mem_of_getElem? isPlace)
        refine { sound with vestings := forall_set sound.vestings ?_ }
        rw [balance]
        exact Int.add_nonneg before nonneg

theorem depositLazyVesting_frame
    {ovbid newVbid : Option VestingBalanceId} {amount : Int}
    {seconds : UInt32} {owner : AccountId} {requireVesting : Bool}
    (returns :
      db.depositLazyVesting ovbid amount seconds owner requireVesting =
        .ok (newVbid, after)) :
    after = { db with vestings := after.vestings } := by
  unfold depositLazyVesting at returns
  split at returns
  · cases returns
    rfl
  · obtain ⟨reusable, found, returns⟩ := bind_eq_ok.mp returns
    cases reusable with
    | none =>
        cases returns
        rfl
    | some place =>
        obtain ⟨deposited, added, returns⟩ := bind_eq_ok.mp returns
        cases returns
        rfl

/-- The two ends of a deposit for an account: it went into a vesting balance
that was there, or the account is pointed at the new one. -/
def PointsAccount
    (acct : AccountId) (account : AccountObject) (middle after : Database) :
    Prop :=
  after = middle ∨
    ∃ fresh : AccountObject,
      after = middle.setAccount acct fresh ∧
        fresh.pendingFees = account.pendingFees ∧
        fresh.pendingVestedFees = account.pendingVestedFees

variable {middle : Database} {ovbid newVbid : Option VestingBalanceId}
  {amount : Int} {seconds : UInt32} {owner : AccountId}
  {requireVesting : Bool} {acct : AccountId} {wit : WitnessId}

theorem depositForAccount_moves {account : AccountObject}
    (isCore : db.currentCoreAssetId = core)
    (found : db.accounts[acct]? = some account)
    (deposits :
      db.depositLazyVesting ovbid amount seconds owner requireVesting =
        .ok (newVbid, middle))
    (points : PointsAccount acct account middle after) :
    Moves core db after (fun id => inAsset id core amount) := by
  have moved := depositLazyVesting_moves isCore deposits
  rcases points with same | ⟨fresh, pointed, fees, vestedFees⟩
  · rw [same]
    exact moved
  · have foundMiddle : middle.accounts[acct]? = some account := by
      rw [depositLazyVesting_frame deposits]
      exact found
    rw [pointed]
    refine (moved.trans (setAccount_moves fresh foundMiddle)).congr ?_
    intro id
    simp [pending, fees, vestedFees]

theorem depositForAccount_sound {account : AccountObject} (nonneg : 0 ≤ amount)
    (found : db.accounts[acct]? = some account)
    (deposits :
      db.depositLazyVesting ovbid amount seconds owner requireVesting =
        .ok (newVbid, middle))
    (points : PointsAccount acct account middle after) (sound : Sound core db) :
    Sound core after := by
  have soundMiddle := depositLazyVesting_sound nonneg deposits sound
  rcases points with same | ⟨fresh, pointed, fees, vestedFees⟩
  · rw [same]
    exact soundMiddle
  · rw [pointed]
    apply setAccount_sound soundMiddle
    rw [fees, vestedFees]
    exact sound.accounts account (List.mem_of_getElem? found)

/-- A cashback that is paid out goes to the reserve or into a vesting balance. -/
theorem depositCashback_cases
    (returns : db.depositCashback acct amount requireVesting = .ok after) :
    (amount = 0 ∧ after = db) ∨
      (∃ a, db.assets[db.currentCoreAssetId]? = some a ∧
        after = db.setAsset db.currentCoreAssetId
          { a with dynamicData :=
            { a.dynamicData with
              currentSupply := a.dynamicData.currentSupply - amount } }) ∨
      ∃ account newVbid middle,
        db.accounts[acct]? = some account ∧
          db.depositLazyVesting account.cashbackVb amount
            db.parameters.cashbackVestingPeriodSeconds acct requireVesting =
              .ok (newVbid, middle) ∧
          PointsAccount acct account middle after := by
  unfold depositCashback at returns
  split at returns
  · next nothing =>
      cases returns
      exact .inl ⟨nothing, rfl⟩
  split at returns
  · rw [modifyDynamicData_eq_ok] at returns
    obtain ⟨a, found, d, changed, same⟩ := returns
    obtain ⟨supply, checked, changed⟩ := bind_eq_ok.mp changed
    cases changed
    rw [eq_of_share checked] at same
    exact .inr (.inl ⟨a, found, same.symm⟩)
  · simp only [bind_eq_ok, getAccount_eq_ok] at returns
    obtain ⟨account, found, ⟨newVbid, middle⟩, deposits, returns⟩ := returns
    refine .inr (.inr ⟨account, newVbid, middle, found, deposits, ?_⟩)
    cases newVbid with
    | none =>
        cases returns
        exact .inl rfl
    | some id =>
        cases returns
        exact .inr ⟨_, rfl, rfl, rfl⟩

theorem depositCashback_moves (isCore : db.currentCoreAssetId = core)
    (returns : db.depositCashback acct amount requireVesting = .ok after) :
    Moves core db after (fun id => inAsset id core amount) := by
  rcases depositCashback_cases returns with
    ⟨nothing, same⟩ | ⟨a, found, same⟩ |
      ⟨account, newVbid, middle, found, deposits, points⟩
  · rw [same]
    refine (Moves.refl core db).congr ?_
    intro id
    simp [nothing]
  · rw [same]
    refine (setAsset_moves _ found).congr ?_
    intro id
    simp [outstanding, isCore, inAsset]
  · exact depositForAccount_moves isCore found deposits points

theorem depositCashback_sound (isCore : db.currentCoreAssetId = core)
    (nonneg : 0 ≤ amount)
    (returns : db.depositCashback acct amount requireVesting = .ok after)
    (sound : Sound core db) : Sound core after := by
  rcases depositCashback_cases returns with
    ⟨nothing, same⟩ | ⟨a, found, same⟩ |
      ⟨account, newVbid, middle, found, deposits, points⟩
  · rw [same]
    exact sound
  · have before := sound.assets a (List.mem_of_getElem? found)
    have atMost := before.supply_le
    rw [same]
    refine setAsset_sound sound { before with supply_le := ?_ } ?_
    · change a.dynamicData.currentSupply - amount ≤ a.options.maxSupply
      omega
    · intro notCore
      exact absurd isCore notCore
  · exact depositForAccount_sound nonneg found deposits points sound

theorem stakingCashback_cases
    (returns : db.stakingCashback acct amount = .ok after) :
    (amount = 0 ∧ after = db) ∨
      ∃ account ovbid newVbid middle,
        db.accounts[acct]? = some account ∧
          db.depositLazyVesting ovbid amount
            db.parameters.voteParams.stakingRewardsVestingSeconds acct true =
              .ok (newVbid, middle) ∧
          PointsAccount acct account middle after := by
  unfold stakingCashback at returns
  split at returns
  · next nothing =>
      cases returns
      exact .inl ⟨nothing, rfl⟩
  simp only [bind_eq_ok, getAccount_eq_ok] at returns
  obtain ⟨account, found, returns⟩ := returns
  split at returns
  · obtain ⟨⟨newVbid, middle⟩, deposits, returns⟩ := bind_eq_ok.mp returns
    refine .inr ⟨account, _, newVbid, middle, found, deposits, ?_⟩
    cases newVbid with
    | none =>
        cases returns
        exact .inl rfl
    | some id =>
        cases returns
        exact .inr ⟨_, rfl, rfl, rfl⟩
  · obtain ⟨⟨newVbid, middle⟩, deposits, returns⟩ := bind_eq_ok.mp returns
    refine .inr ⟨account, _, newVbid, middle, found, deposits, ?_⟩
    cases newVbid with
    | none =>
        cases returns
        exact .inl rfl
    | some id =>
        cases returns
        exact .inr ⟨_, rfl, rfl, rfl⟩

theorem depositWitnessPay_cases
    (returns : db.depositWitnessPay wit amount = .ok after) :
    (amount = 0 ∧ after = db) ∨
      ∃ witness newVbid middle payVb,
        db.witnesses[wit]? = some witness ∧
          db.depositLazyVesting witness.payVb amount
            db.parameters.witnessPayVestingSeconds witness.witnessAccount
              true = .ok (newVbid, middle) ∧
          (after = middle ∨
            after = middle.setWitness wit { witness with payVb := payVb }) := by
  unfold depositWitnessPay at returns
  split at returns
  · next nothing =>
      cases returns
      exact .inl ⟨nothing, rfl⟩
  simp only [bind_eq_ok, getWitness_eq_ok] at returns
  obtain ⟨witness, found, ⟨newVbid, middle⟩, deposits, returns⟩ := returns
  refine .inr ⟨witness, newVbid, middle, newVbid, found, deposits, ?_⟩
  cases newVbid with
  | none =>
      cases returns
      exact .inl rfl
  | some id =>
      cases returns
      exact .inr rfl

theorem depositWitnessPay_moves (isCore : db.currentCoreAssetId = core)
    (returns : db.depositWitnessPay wit amount = .ok after) :
    Moves core db after (fun id => inAsset id core amount) := by
  rcases depositWitnessPay_cases returns with
    ⟨nothing, same⟩ | ⟨witness, newVbid, middle, payVb, found, deposits, ends⟩
  · rw [same]
    refine (Moves.refl core db).congr ?_
    intro id
    simp [nothing]
  · have moved := depositLazyVesting_moves isCore deposits
    have foundMiddle : middle.witnesses[wit]? = some witness := by
      rw [depositLazyVesting_frame deposits]
      exact found
    rcases ends with same | same
    · rw [same]
      exact moved
    · rw [same]
      refine (moved.trans (setWitness_moves _ foundMiddle)).congr ?_
      intro id
      simp

theorem depositWitnessPay_sound (nonneg : 0 ≤ amount)
    (returns : db.depositWitnessPay wit amount = .ok after)
    (sound : Sound core db) : Sound core after := by
  rcases depositWitnessPay_cases returns with
    ⟨nothing, same⟩ | ⟨witness, newVbid, middle, payVb, found, deposits, ends⟩
  · rw [same]
    exact sound
  · have soundMiddle := depositLazyVesting_sound nonneg deposits sound
    rcases ends with same | same
    · rw [same]
      exact soundMiddle
    · rw [same]
      apply setWitness_sound soundMiddle
      exact sound.witnesses witness (List.mem_of_getElem? found)

end Deposits

end GxbCore.Ledger
