import GxbCore.DataMarket.Leagues
import Mathlib.Tactic.Linarith
import Mathlib.Tactic.Ring

/-!
# Which league payments are safe

The league keeps its vectors as long as its members and its products, as long as
every update names both.  A payment of a product is then safe exactly when there
are a member and a price at its place, and the totals of the buyer, where they
count, are not zero and fit into a `share_type`.
-/

namespace GxbCore.DataMarket

open Ledger

section Runs

/-- A run of the operations on leagues and of payments, from a database, with
everything else that keeps the leagues. -/
inductive LeagueRun (permits : LeagueUpdateOperation → Prop) (start : Market) :
    Market → Prop
  | start : LeagueRun permits start start
  | create {m feePaid : Market} {o : LeagueCreateOperation}
      (run : LeagueRun permits start m)
      (evaluates : leagueCreateEvaluate m o = .ok ())
      (same : feePaid.leagues = m.leagues) :
      LeagueRun permits start (leagueCreateApply feePaid o)
  | update {m feePaid after : Market} {o : LeagueUpdateOperation}
      {isProposedTrx : Bool} {unset : Nat × Nat}
      (run : LeagueRun permits start m) (meets : permits o)
      (evaluates : leagueUpdateEvaluate isProposedTrx unset o = .ok ())
      (same : feePaid.leagues = m.leagues)
      (applies : leagueUpdateApply unset feePaid o = .ok after) :
      LeagueRun permits start after
  | pay {m after : Market} {o : PayDataTransactionOperation}
      (run : LeagueRun permits start m) (applies : payApply m o = .ok after) :
      LeagueRun permits start after
  | elsewhere {m after : Market} (run : LeagueRun permits start m)
      (same : after.leagues = m.leagues) :
      LeagueRun permits start after

def ListsAnew (o : LeagueUpdateOperation) : Prop :=
  o.newMembers.isSome ∧ o.newDataProducts.isSome

/-- The vectors of the contributions have the sizes that are checked. -/
structure League.Sized (league : League) : Prop where
  thresholds : league.pocsThresholds.length = league.members.length
  feeBases : league.feeBases.length = league.members.length
  weights : league.productPocsWeights.length = league.dataProducts.length

theorem League.setPocs_sized
    {league : League} {pocs : Option PocsThresholdLeague}
    (checked :
      checkExtension league.members.length league.dataProducts.length pocs =
        .ok ()) :
    (league.setPocs league.members.length league.dataProducts.length
      pocs).Sized := by
  cases pocs with
  | none =>
      exact ⟨List.length_replicate, List.length_replicate,
        List.length_replicate⟩
  | some ext =>
      simp only [checkExtension, PocsThresholdLeague.checkSizes, bind_eq_ok,
        fcAssert_eq_ok] at checked
      obtain ⟨_, thresholds, _, feeBases, weights⟩ := checked
      exact ⟨thresholds.symm, feeBases.symm, weights.symm⟩

theorem leagueCreateEvaluate_checked {m : Market} {o : LeagueCreateOperation}
    (evaluates : leagueCreateEvaluate m o = .ok ()) :
    checkExtension o.members.length o.dataProducts.length o.pocs = .ok () := by
  simp only [leagueCreateEvaluate, bind_eq_ok] at evaluates
  obtain ⟨_, _, _, _, _, checked, _⟩ := evaluates
  exact checked

theorem payApply_leagues {m after : Market} {o : PayDataTransactionOperation}
    (applies : payApply m o = .ok after) : after.leagues = m.leagues := by
  unfold payApply at applies
  split at applies
  · cases applies
    rfl
  · obtain ⟨db, _, applies⟩ := bind_eq_ok.mp applies
    simp only at applies
    split at applies
    · cases applies
      rfl
    · simp only [updateLeaguePocs, bind_eq_ok] at applies
      obtain ⟨_, _, _, _, applies⟩ := applies
      cases applies
      rfl

/-- As long as the updates list members and products anew, every league has the
sizes that are checked. -/
theorem LeagueRun.sized {start m : Market} (none : start.leagues = [])
    (run : LeagueRun ListsAnew start m) :
    ∀ league ∈ m.leagues, league.Sized := by
  induction run with
  | start =>
      intro league member
      rw [none] at member
      cases member
  | create run evaluates same sized =>
      intro league member
      rcases List.mem_append.mp member with before | new
      · exact sized league (same ▸ before)
      · rw [List.mem_singleton.mp new]
        exact League.setPocs_sized (leagueCreateEvaluate_checked evaluates)
  | update run meets evaluates same applies sized =>
      simp only [leagueUpdateApply, bind_eq_ok] at applies
      obtain ⟨obj, _, applies⟩ := applies
      cases applies
      intro league member
      rcases List.mem_or_eq_of_mem_set member with before | new
      · exact sized league (same ▸ before)
      · obtain ⟨members, isMembers⟩ := Option.isSome_iff_exists.mp meets.1
        obtain ⟨products, isProducts⟩ := Option.isSome_iff_exists.mp meets.2
        simp only [leagueUpdateEvaluate, bind_eq_ok, isMembers, isProducts,
          sizeOf] at evaluates
        obtain ⟨_, _, checked⟩ := evaluates
        simp only [isMembers, isProducts, sizeOf, Option.getD_some] at new
        rw [new]
        exact League.setPocs_sized checked
  | pay run applies sized =>
      rw [payApply_leagues applies]
      exact sized
  | elsewhere run same sized =>
      rw [same]
      exact sized

end Runs

section Places

variable {league : League} {productId : ObjectId}

theorem findThreshold_eq
    {thresholds : List UInt64} {products : List Nat} {idx : Nat}
    (listed : ∃ product ∈ products, .leagueDataProduct product = productId) :
    findThreshold thresholds productId products (idx % 2 ^ 16) =
      (orThrow
        thresholds[(products.findIdx (.leagueDataProduct · == productId) +
          idx) % 2 ^ 16]? .notFound).map
        ((products.findIdx (.leagueDataProduct · == productId) + idx) %
          2 ^ 16, ·) := by
  induction products generalizing idx with
  | nil =>
      obtain ⟨_, member, _⟩ := listed
      cases member
  | cons product rest ih =>
      by_cases here : ObjectId.leagueDataProduct product = productId
      · rw [findThreshold, if_pos here, List.findIdx_cons,
          beq_iff_eq.mpr here]
        simp only [cond_true, Nat.zero_add]
        cases thresholds[idx % 2 ^ 16]? with
        | none => rfl
        | some threshold => rfl
      · have later :
            ∃ product ∈ rest, .leagueDataProduct product = productId := by
          obtain ⟨other, member, same⟩ := listed
          rcases List.mem_cons.mp member with isHead | inRest
          · exact absurd (isHead ▸ same) here
          · exact ⟨other, inRest, same⟩
        rw [findThreshold, if_neg here, List.findIdx_cons,
          beq_eq_false_iff_ne.mpr here, Nat.mod_add_mod,
          ih later]
        simp only [cond_false, Nat.add_assoc, Nat.add_comm 1 idx]

theorem findThreshold_eq_ok {idx : Nat} {threshold : UInt64}
    (listed :
      ∃ product ∈ league.dataProducts,
        .leagueDataProduct product = productId) :
    findThreshold league.pocsThresholds productId league.dataProducts 0 =
        .ok (idx, threshold) ↔
      idx = league.productIndex productId ∧
        league.pocsThresholds[idx]? = some threshold := by
  have ends :
      findThreshold league.pocsThresholds productId league.dataProducts
          (0 % 2 ^ 16) = _ :=
    findThreshold_eq listed
  simp only [Nat.zero_mod, Nat.add_zero] at ends
  rw [ends]
  unfold League.productIndex
  generalize league.dataProducts.findIdx
    (.leagueDataProduct · == productId) % 2 ^ 16 = place
  constructor
  · intro returns
    cases at_place : league.pocsThresholds[place]? with
    | none =>
        rw [at_place] at returns
        cases returns
    | some found =>
        rw [at_place] at returns
        cases returns
        exact ⟨rfl, at_place⟩
  · rintro ⟨rfl, at_place⟩
    rw [at_place]
    rfl

theorem productIndex_lt
    (listed :
      ∃ product ∈ league.dataProducts,
        .leagueDataProduct product = productId) :
    league.productIndex productId < league.dataProducts.length := by
  obtain ⟨product, member, same⟩ := listed
  exact Nat.lt_of_le_of_lt (Nat.mod_le _ _)
    (List.findIdx_lt_length_of_exists
      ⟨product, member, beq_iff_eq.mpr same⟩)

end Places

section Arithmetic

variable {league : League} {pocs : Pocs} {idx : Nat} {amount adjusted : Int}

/-- The totals are not both zero, and their sum fits into a `share_type`. -/
def Pocs.TotalsFit (pocs : Pocs) : Prop :=
  0 < pocs.totalSell.toNat + pocs.totalBuy.toNat ∧
    pocs.totalSell.toNat + pocs.totalBuy.toNat < 2 ^ 63

/-- The sum by which the fee is divided and the difference by which it is
multiplied are the exact ones. -/
structure Pocs.Exact (pocs : Pocs) : Prop where
  sum :
    int64 (pocs.totalSell + pocs.totalBuy).toNat =
      pocs.totalSell.toNat + pocs.totalBuy.toNat
  difference :
    int64 (pocs.totalSell - pocs.totalBuy).toNat =
      pocs.totalSell.toNat - pocs.totalBuy.toNat

theorem totalsFit_iff :
    (int64 (pocs.totalSell + pocs.totalBuy).toNat ≠ 0 ∧ pocs.Exact) ↔
      pocs.TotalsFit := by
  have sellSize := pocs.totalSell.toNat_lt
  have buySize := pocs.totalBuy.toNat_lt
  have sum := UInt64.toNat_add pocs.totalSell pocs.totalBuy
  have difference := UInt64.toNat_sub pocs.totalSell pocs.totalBuy
  constructor
  · rintro ⟨nonzero, exact⟩
    have sumExact := exact.sum
    unfold int64 at sumExact nonzero
    unfold Pocs.TotalsFit
    omega
  · rintro ⟨positive, fits⟩
    refine ⟨?_, ?_, ?_⟩
    all_goals
      unfold int64
      omega

/-- The part of the fee that the difference of the totals is. -/
theorem part_bounds
    {sell buy : Nat} (nonneg : 0 ≤ amount) (positive : 0 < sell + buy) :
    -amount ≤ (amount * ((sell : Int) - buy)).tdiv (sell + buy) ∧
      (amount * ((sell : Int) - buy)).tdiv (sell + buy) ≤ amount := by
  have divisor : (0 : Int) < sell + buy := by
    omega
  have low : -amount * ((sell : Int) + buy) ≤ amount * (sell - buy) := by
    nlinarith
  have high : amount * ((sell : Int) - buy) ≤ amount * (sell + buy) :=
    Int.mul_le_mul_of_nonneg_left (by omega) nonneg
  constructor
  · calc
      -amount = (-amount * ((sell : Int) + buy)).tdiv (sell + buy) :=
        (Int.mul_tdiv_cancel _ (by omega)).symm
      _ ≤ (amount * ((sell : Int) - buy)).tdiv (sell + buy) :=
        Int.tdiv_le_tdiv divisor low
  · calc
      (amount * ((sell : Int) - buy)).tdiv (sell + buy) ≤
          (amount * ((sell : Int) + buy)).tdiv (sell + buy) :=
        Int.tdiv_le_tdiv divisor high
      _ = amount := Int.mul_tdiv_cancel _ (by omega)

def League.feeBaseAt (league : League) (idx : Nat) : Int :=
  (league.feeBases[idx]?.getD 1).toNat

/-- What an adjusted fee may be at most. -/
def League.feeLimit (league : League) (idx : Nat) (amount : Int) : Int :=
  amount * max 2 (league.feeBaseAt idx * 2)

theorem League.twice_le_feeLimit (nonneg : 0 ≤ amount) :
    2 * amount ≤ league.feeLimit idx amount := by
  unfold League.feeLimit
  rw [Int.mul_comm 2]
  exact Int.mul_le_mul_of_nonneg_left (le_max_left _ _) nonneg

theorem int64_le_of_nonneg {value : Int} (nonneg : 0 ≤ value) :
    int64 value ≤ value := by
  unfold int64
  omega

theorem League.raiseFee_le {rest : Int} (nonneg : 0 ≤ amount)
    (restNonneg : 0 ≤ rest) (atMostTwice : rest ≤ 2 * amount)
    (returns : league.raiseFee idx pocs rest = .ok adjusted) :
    adjusted ≤ league.feeLimit idx amount := by
  have plain : rest ≤ league.feeLimit idx amount :=
    Int.le_trans atMostTwice (League.twice_le_feeLimit nonneg)
  unfold League.raiseFee at returns
  split at returns
  · next feeBase found =>
      split at returns
      · rw [eq_of_share returns]
        unfold League.feeLimit League.feeBaseAt
        rw [found, Option.getD_some]
        calc
          rest * int64 feeBase.toNat ≤ rest * feeBase.toNat :=
            Int.mul_le_mul_of_nonneg_left
              (int64_le_of_nonneg (Int.natCast_nonneg _)) restNonneg
          _ ≤ 2 * amount * feeBase.toNat :=
            Int.mul_le_mul_of_nonneg_right atMostTwice
              (Int.natCast_nonneg _)
          _ = amount * ((feeBase.toNat : Int) * 2) := by ring
          _ ≤ amount * max 2 ((feeBase.toNat : Int) * 2) :=
            Int.mul_le_mul_of_nonneg_left (le_max_right _ _) nonneg
      · cases returns
        exact plain
  · cases returns
    exact plain

theorem League.contributionFee_le (nonneg : 0 ≤ amount) (fit : pocs.TotalsFit)
    (returns : league.contributionFee idx pocs amount = .ok adjusted) :
    adjusted ≤ league.feeLimit idx amount := by
  obtain ⟨_, exact⟩ := totalsFit_iff.mpr fit
  simp only [League.contributionFee, shareQuotient, bind_eq_ok,
    fcAssert_eq_ok] at returns
  obtain ⟨product, multiplied, part, ⟨_, _, divided⟩, rest, subtracted,
    raised⟩ := returns
  obtain rfl := eq_of_share multiplied
  obtain rfl := eq_of_share divided
  obtain rfl := eq_of_share subtracted
  rw [exact.sum, exact.difference] at raised
  obtain ⟨low, high⟩ := part_bounds nonneg fit.1
  exact League.raiseFee_le nonneg (by omega) (by omega) raised

end Arithmetic

section Payments

variable {m : Market} {o : PayDataTransactionOperation}
  {dto : DataTransaction} {leagueId : LeagueId} {league : League}

structure LeaguePayment
    (m : Market) (o : PayDataTransactionOperation) (dto : DataTransaction)
    (leagueId : LeagueId) (league : League) : Prop where
  validated : o.validate = .ok ()
  found : m.findTransaction o.requestId = some dto
  ofLeague : dto.leagueId = some leagueId
  held : m.leagues[leagueId]? = some league
  listed :
    ∃ product ∈ league.dataProducts, .leagueDataProduct product = dto.productId

/-- The totals of the buyer count: they reach the threshold. -/
def Contributes
    (m : Market) (o : PayDataTransactionOperation) (dto : DataTransaction)
    (leagueId : LeagueId) (league : League) (pocs : Pocs) : Prop :=
  m.ledger.headBlockTime ≥ HARDFORK_1001_TIME ∧
    m.findPocs leagueId o.source = some pocs ∧
      ∃ idx listed threshold,
        findThreshold league.pocsThresholds dto.productId league.dataProducts
            0 = .ok (idx, listed) ∧
          orOfProduct m dto.productId listed = .ok threshold ∧
            pocs.totalBuy + pocs.totalSell ≥ threshold

/-- The accesses of the payment have something to read, the fee is neither
divided by zero nor computed with totals that wrapped around, and it is in its
limits.  The fee bases are looked up where there are enough of them only. -/
structure PaymentSafe
    (m : Market) (o : PayDataTransactionOperation) (dto : DataTransaction)
    (leagueId : LeagueId) (league : League) : Prop where
  price : ∃ price, productPrice m dto = .ok price
  threshold :
    m.ledger.headBlockTime ≥ HARDFORK_1001_TIME →
      ∃ found,
        findThreshold league.pocsThresholds dto.productId league.dataProducts
          0 = .ok found
  weight : ∃ weight, league.pocsWeight dto.productId = .ok weight
  divides :
    ∀ pocs, Contributes m o dto leagueId league pocs →
      int64 (pocs.totalSell + pocs.totalBuy).toNat ≠ 0
  exact :
    ∀ pocs, Contributes m o dto leagueId league pocs → pocs.Exact
  bounded :
    ∀ fee coreFee, payPrepareFee m o = .ok (fee, coreFee) →
      0 ≤ fee ∧
        fee ≤
          league.feeLimit (league.productIndex dto.productId) o.fee.amount

/-- There are a member and a price at the place of the product, and totals that
count fit. -/
structure PaymentCovered
    (m : Market) (o : PayDataTransactionOperation) (dto : DataTransaction)
    (leagueId : LeagueId) (league : League) : Prop where
  member :
    m.ledger.headBlockTime ≥ HARDFORK_1001_TIME →
      league.productIndex dto.productId < league.members.length
  price : league.productIndex dto.productId < league.prices.length
  totals :
    ∀ pocs, Contributes m o dto leagueId league pocs → pocs.TotalsFit

theorem LeaguePayment.price_iff
    (payment : LeaguePayment m o dto leagueId league) :
    (∃ price, productPrice m dto = .ok price) ↔
      league.productIndex dto.productId < league.prices.length := by
  simp only [productPrice, payment.ofLeague, payment.held, orThrow, bind,
    Except.bind, if_pos (productIndex_lt payment.listed)]
  constructor
  · rintro ⟨price, returns⟩
    by_contra outside
    rw [List.getElem?_eq_none (Nat.le_of_not_lt outside)] at returns
    cases returns
  · intro inside
    rw [List.getElem?_eq_getElem inside]
    exact ⟨_, rfl⟩

theorem LeaguePayment.weight
    (payment : LeaguePayment m o dto leagueId league) (sized : league.Sized) :
    ∃ weight, league.pocsWeight dto.productId = .ok weight := by
  have inside :
      league.productIndex dto.productId <
        league.productPocsWeights.length := by
    rw [sized.weights]
    exact productIndex_lt payment.listed
  simp only [League.pocsWeight, List.getElem?_eq_getElem inside, orThrow]
  split
  · exact ⟨_, rfl⟩
  · exact ⟨_, rfl⟩

theorem LeaguePayment.bounded (payment : LeaguePayment m o dto leagueId league)
    (totals : ∀ pocs, Contributes m o dto leagueId league pocs → pocs.TotalsFit)
    {fee coreFee : Int} (prepared : payPrepareFee m o = .ok (fee, coreFee)) :
    0 ≤ fee ∧
      fee ≤
        league.feeLimit (league.productIndex dto.productId) o.fee.amount := by
  have nonneg : 0 ≤ o.fee.amount := by
    have validated := payment.validated
    simp only [PayDataTransactionOperation.validate, bind_eq_ok,
      fcAssert_eq_ok] at validated
    obtain ⟨_, nonneg, _⟩ := validated
    exact nonneg
  have plain :
      o.fee.amount ≤
        league.feeLimit (league.productIndex dto.productId) o.fee.amount :=
    Int.le_trans (by omega) (League.twice_le_feeLimit nonneg)
  simp only [payPrepareFee, payment.found, bind_eq_ok] at prepared
  obtain ⟨_, adjusted, _, feePrepared, same⟩ := prepared
  cases same
  refine ⟨(prepareFee_eq_ok feePrepared).1, ?_⟩
  simp only [payFeeAmount, payment.ofLeague] at adjusted
  split at adjusted
  · next late =>
      simp only [leagueFee, payment.held, orThrow, bind_eq_ok] at adjusted
      obtain ⟨_, same, ⟨idx, listed⟩, looked, threshold, chosen, adjusted⟩ :=
        adjusted
      cases same
      obtain ⟨place, _⟩ := (findThreshold_eq_ok payment.listed).mp looked
      split at adjusted
      · cases adjusted
        exact plain
      · next pocs foundPocs =>
          split at adjusted
          · next reached =>
              have fit : pocs.TotalsFit :=
                totals pocs ⟨late, foundPocs, idx, listed, threshold, looked,
                  chosen, reached⟩
              rw [← place]
              exact League.contributionFee_le nonneg fit adjusted
          · cases adjusted
            exact plain
  · cases adjusted
    exact plain

/-- In every database that is reached from one without leagues by a run in which
the updates list members and products anew, a payment is safe exactly when there
are a member and a price at the place of the product and its totals fit. -/
theorem league_payment_safe_iff
    {start : Market} (none : start.leagues = [])
    (run : LeagueRun ListsAnew start m)
    (payment : LeaguePayment m o dto leagueId league) :
    PaymentSafe m o dto leagueId league ↔
      PaymentCovered m o dto leagueId league := by
  have sized : league.Sized :=
    run.sized none league (List.mem_of_getElem? payment.held)
  constructor
  · intro safe
    refine ⟨?_, payment.price_iff.mp safe.price, ?_⟩
    · intro late
      obtain ⟨⟨idx, threshold⟩, looked⟩ := safe.threshold late
      obtain ⟨place, found⟩ := (findThreshold_eq_ok payment.listed).mp looked
      rw [← place, ← sized.thresholds]
      exact (List.getElem?_eq_some_iff.mp found).1
    · intro pocs contributes
      exact totalsFit_iff.mp
        ⟨safe.divides pocs contributes, safe.exact pocs contributes⟩
  · intro covered
    refine
      { price := payment.price_iff.mpr covered.price
        threshold := ?_
        weight := payment.weight sized
        divides := fun pocs contributes =>
          (totalsFit_iff.mpr (covered.totals pocs contributes)).1
        exact := fun pocs contributes =>
          (totalsFit_iff.mpr (covered.totals pocs contributes)).2
        bounded := fun fee coreFee prepared =>
          payment.bounded covered.totals prepared }
    intro late
    have inside := covered.member late
    rw [← sized.thresholds] at inside
    exact ⟨_, (findThreshold_eq_ok payment.listed).mpr
      ⟨rfl, List.getElem?_eq_getElem inside⟩⟩

end Payments

section Sample

def leagueMarket : Market where
  ledger :=
    { plainDatabase with
      accounts := [plainAccount 0, plainAccount 1]
      balances := [⟨0, 0, 1000⟩, ⟨0, 1, 50⟩] }
  accounts :=
    [⟨"merchant", 0xffffffff, 0, 0⟩, ⟨"datasource", 0, 0xffffffff, 0⟩]
  leagues := []
  leagueDataProducts := [⟨[], 1⟩, ⟨[], 1⟩]
  freeDataProducts := []
  otherObjects := [.other protocolIds dataMarketCategoryObjectType 0]
  commissionPercent := ⟨1000, 1000, "merchant", 100⟩
  dataTransactions := []
  nextDataTransactionId := 0
  pocs := [⟨0, 0, 1, 3⟩]
  copyrights := []
  secondHandData := []

def leagueOfOne : LeagueCreateOperation :=
  ⟨[0, 1], [100, 100], 0, 1, [1], none⟩

def sampleLeague : League :=
  ⟨[0, 1], [100, 100], [1], [0], [1], [1, 1]⟩

def askedFor (product : Nat) : DataTransaction :=
  { id := 0
    requestId := "request"
    productId := .leagueDataProduct product
    version := ""
    params := ""
    status := dataTransactionStatusConfirmed
    createDateTime := 0
    requester := 0
    leagueId := some 0
    memo := ""
    datasourcesStatus := [⟨1, .uploaded⟩] }

/-- The database with the league and the data transaction. -/
def askedLeague (product : Nat) : Market :=
  { leagueCreateApply leagueMarket leagueOfOne with
    dataTransactions := [askedFor product] }

def paysLeague : PayDataTransactionOperation :=
  ⟨⟨10, 1⟩, 0, 1, ⟨100, 0⟩, "request"⟩

theorem askedLeague_run (product : Nat) :
    LeagueRun ListsAnew leagueMarket (askedLeague product) := by
  have created :
      LeagueRun ListsAnew leagueMarket
        (leagueCreateApply leagueMarket leagueOfOne) :=
    .create .start (by decide) rfl
  exact .elsewhere created rfl

/-- The first product is paid: three bought for one sold raise the fee by
half. -/
theorem league_payment_safe_first :
    PaymentSafe (askedLeague 0) paysLeague (askedFor 0) 0 sampleLeague ∧
      payPrepareFee (askedLeague 0) paysLeague = .ok (15, 15) := by
  have payment :
      LeaguePayment (askedLeague 0) paysLeague (askedFor 0) 0 sampleLeague :=
    ⟨rfl, rfl, rfl, rfl, 0, by decide, rfl⟩
  refine ⟨(league_payment_safe_iff rfl (askedLeague_run 0) payment).mpr ?_,
    by decide +kernel⟩
  refine ⟨fun _ => by decide, by decide, ?_⟩
  rintro pocs ⟨_, found, _⟩
  obtain rfl : (⟨0, 0, 1, 3⟩ : Pocs) = pocs := Option.some.inj found
  exact ⟨by decide, by decide⟩

/-- The payment of the second product passes the checks, and its fee depends on
the second threshold of a league with one. -/
theorem second_threshold_missing :
    LeagueRun ListsAnew leagueMarket (askedLeague 1) ∧
      LeaguePayment (askedLeague 1) paysLeague (askedFor 1) 0 sampleLeague ∧
        payEvaluate (askedLeague 1) paysLeague = .ok () ∧
          payPrepareFee (askedLeague 1) paysLeague = .error .notFound ∧
            ¬ PaymentSafe (askedLeague 1) paysLeague (askedFor 1) 0
              sampleLeague := by
  refine ⟨askedLeague_run 1, ⟨rfl, rfl, rfl, rfl, 1, by decide, rfl⟩,
    by decide +kernel, by decide +kernel, ?_⟩
  intro safe
  obtain ⟨found, looked⟩ := safe.threshold (by decide)
  have missing :
      findThreshold sampleLeague.pocsThresholds (askedFor 1).productId
        sampleLeague.dataProducts 0 = .error .notFound := by
    decide
  rw [missing] at looked
  cases looked

end Sample

end GxbCore.DataMarket
