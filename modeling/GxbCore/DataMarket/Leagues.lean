import GxbCore.DataMarket.DataTransactions
import GxbCore.Ledger.CoreConversion

/-!
# Leagues and the fee of a payment

A league lists members and products.  The thresholds and the fee bases of the
contributions have the length of the members, and the weights that of the
products, but the payment of a product looks all of them up at the place of the
product.  From the sales and purchases that are counted for the buyer, its fee
is lowered or raised.
-/

namespace GxbCore.DataMarket

open Ledger

section Objects

/-- `pocs_threshold_league_t` -/
structure PocsThresholdLeague where
  pocsThresholds : List UInt64
  feeBases : List UInt64
  productPocsWeights : List UInt64
  deriving DecidableEq, Repr

/-- `league_create_operation`, with the first of its extensions that is about
contributions. -/
structure LeagueCreateOperation where
  dataProducts : List Nat
  prices : List UInt64
  categoryId : Nat
  issuer : AccountId
  members : List AccountId
  pocs : Option PocsThresholdLeague
  deriving DecidableEq, Repr

/-- `league_update_operation`, with the first of its extensions that is about
contributions. -/
structure LeagueUpdateOperation where
  league : LeagueId
  newDataProducts : Option (List Nat)
  newPrices : Option (List UInt64)
  newMembers : Option (List AccountId)
  pocs : Option PocsThresholdLeague
  deriving DecidableEq, Repr

end Objects

section Leagues

def protocolIds : UInt8 :=
  1

def dataMarketCategoryObjectType : UInt8 :=
  16

/-- The sizes of the extension are those of the members and the products. -/
def PocsThresholdLeague.checkSizes
    (members products : Nat) (ext : PocsThresholdLeague) :
    Except Fault Unit := do
  fcAssert (members = ext.pocsThresholds.length) "pocs_thresholds size error"
  fcAssert (members = ext.feeBases.length) "fee_bases size error"
  fcAssert (products = ext.productPocsWeights.length)
    "product_pocs_weights size error"

def checkExtension
    (members products : Nat) : Option PocsThresholdLeague → Except Fault Unit
  | none => .ok ()
  | some ext => ext.checkSizes members products

/-- The numbers of the contributions: zero, one and one as defaults, then those
of the extension. -/
def League.setPocs
    (obj : League) (members products : Nat)
    (pocs : Option PocsThresholdLeague) : League :=
  match pocs with
  | none =>
      { obj with
        pocsThresholds := List.replicate members 0
        feeBases := List.replicate members 1
        productPocsWeights := List.replicate products 1 }
  | some ext =>
      { obj with
        pocsThresholds := ext.pocsThresholds
        feeBases := ext.feeBases
        productPocsWeights := ext.productPocsWeights }

/-- `league_create_evaluator::do_evaluate` -/
def leagueCreateEvaluate (m : Market) (o : LeagueCreateOperation) :
    Except Fault Unit := do
  let _ ← o.members.mapM fun datasource => do
    let account ← m.getAccount datasource
    fcAssert account.isDatasourceMember ""
  fcAssert
    (∀ product ∈ o.dataProducts,
      (m.findObject (.leagueDataProduct product)).isSome)
    "This product_id is not found, product_id is ${id}"
  checkExtension o.members.length o.dataProducts.length o.pocs
  let issuer ← m.ledger.getAccount o.issuer
  fcAssert issuer.isLifetimeMember ""
  fcAssert
    (m.findObject
      (.other protocolIds dataMarketCategoryObjectType o.categoryId)).isSome
    ""

/-- `league_create_evaluator::do_apply` -/
def leagueCreateApply (m : Market) (o : LeagueCreateOperation) : Market :=
  let obj : League :=
    { dataProducts := o.dataProducts
      prices := o.prices
      members := o.members
      pocsThresholds := []
      feeBases := []
      productPocsWeights := [] }
  { m with
    leagues :=
      m.leagues ++
        [obj.setPocs o.members.length o.dataProducts.length o.pocs] }

/-- `->size()` of an optional vector: of one that is not there it reads memory
that was never written, in which `unset` happens to be. -/
def sizeOf {α : Type} (unset : Nat) : Option (List α) → Nat
  | some items => items.length
  | none => unset

/-- `league_update_evaluator::do_evaluate` -/
def leagueUpdateEvaluate
    (isProposedTrx : Bool) (unset : Nat × Nat) (o : LeagueUpdateOperation) :
    Except Fault Unit := do
  fcAssert isProposedTrx ""
  checkExtension (sizeOf unset.1 o.newMembers)
    (sizeOf unset.2 o.newDataProducts) o.pocs

/-- `league_update_evaluator::do_apply` -/
def leagueUpdateApply
    (unset : Nat × Nat) (m : Market) (o : LeagueUpdateOperation) :
    Except Fault Market := do
  let obj ← orThrow m.leagues[o.league]? .notFound
  let changed :=
    { obj with
      dataProducts := o.newDataProducts.getD obj.dataProducts
      prices := o.newPrices.getD obj.prices
      members := o.newMembers.getD obj.members }
  return { m with
    leagues :=
      m.leagues.set o.league
        (changed.setPocs (sizeOf unset.1 o.newMembers)
          (sizeOf unset.2 o.newDataProducts) o.pocs) }

end Leagues

section PocsFee

/-- The loop that looks for the threshold at the place of the product, with the
`uint16_t` place at which it ends. -/
def findThreshold (pocsThresholds : List UInt64) (productId : ObjectId) :
    List Nat → Nat → Except Fault (Nat × UInt64)
  | [], idx => .ok (idx, 0)
  | product :: rest, idx =>
      if .leagueDataProduct product = productId then do
        let pocsThreshold ← orThrow pocsThresholds[idx]? .notFound
        return (idx, pocsThreshold)
      else
        findThreshold pocsThresholds productId rest ((idx + 1) % 2 ^ 16)

def orOfProduct (m : Market) (productId : ObjectId) (pocsThreshold : UInt64) :
    Except Fault UInt64 :=
  if 0 = pocsThreshold then do
    let leagueDataProductObj ←
      orThrow m.leagueDataProducts[productId.number]? .notFound
    return leagueDataProductObj.pocsThreshold
  else
    .ok pocsThreshold

/-- The buyer is charged more by the fee base of the league at the place. -/
def League.raiseFee
    (leagueObj : League) (idx : Nat) (pocs : Pocs) (amount : Int) :
    Except Fault Int :=
  match leagueObj.feeBases[idx]? with
  | some feeBase =>
      if pocs.totalBuy > pocs.totalSell ∧ feeBase > 1 then
        share (amount * int64 feeBase.toNat)
      else
        .ok amount
  | none => .ok amount

/-- The fee by the contributions: the differences and sums of the totals are
computed with 64 bits and no sign, and then read as a `share_type`. -/
def League.contributionFee
    (leagueObj : League) (idx : Nat) (pocs : Pocs) (amount : Int) :
    Except Fault Int := do
  let product ←
    share (amount * int64 (pocs.totalSell - pocs.totalBuy).toNat)
  let part ←
    shareQuotient product (int64 (pocs.totalSell + pocs.totalBuy).toNat)
  let rest ← share (amount - part)
  leagueObj.raiseFee idx pocs rest

/-- `find` of the index by league and account. -/
def Market.findPocs
    (m : Market) (leagueId : LeagueId) (account : AccountId) : Option Pocs :=
  m.pocs.find? fun b => b.leagueId == leagueId && b.accountId == account

def leagueFee
    (m : Market) (o : PayDataTransactionOperation) (leagueId : LeagueId)
    (productId : ObjectId) : Except Fault Int := do
  let leagueObj ← orThrow m.leagues[leagueId]? .notFound
  let (idx, listed) ←
    findThreshold leagueObj.pocsThresholds productId leagueObj.dataProducts 0
  let pocsThreshold ← orOfProduct m productId listed
  match m.findPocs leagueId o.source with
  | none => return o.fee.amount
  | some pocs =>
      if pocs.totalBuy + pocs.totalSell ≥ pocsThreshold then
        leagueObj.contributionFee idx pocs o.fee.amount
      else
        return o.fee.amount

def payFeeAmount
    (m : Market) (o : PayDataTransactionOperation) (dto : DataTransaction) :
    Except Fault Int :=
  match dto.leagueId with
  | some leagueId =>
      if m.ledger.headBlockTime ≥ HARDFORK_1001_TIME then
        leagueFee m o leagueId dto.productId
      else
        .ok o.fee.amount
  | none => .ok o.fee.amount

/-- `pay_data_transaction_evaluator::prepare_fee`: the transaction fee, and the
fee in the core asset. -/
def payPrepareFee (m : Market) (o : PayDataTransactionOperation) :
    Except Fault (Int × Int) :=
  match m.findTransaction o.requestId with
  | none => do
      let coreFeePaid ← m.ledger.prepareFee o.source o.fee
      return (0, coreFeePaid)
  | some dto => do
      let transactionFee ← payFeeAmount m o dto
      let coreFeePaid ←
        m.ledger.prepareFee o.source ⟨transactionFee, o.fee.assetId⟩
      return (transactionFee, coreFeePaid)

end PocsFee

end GxbCore.DataMarket
