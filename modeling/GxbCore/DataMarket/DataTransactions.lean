import GxbCore.Ledger.Transfers

/-!
# Data transactions

A data transaction is a merchant's request to buy data of a product.  It lists
the datasources that may deliver, the members of a league or the one of a free
product, each with a status of its own.  The operations find it by its request
id and are modelled with their two halves, `do_evaluate` and `do_apply`.

The JSON text of a product's schema is read by a library: `SchemaReader` stands
for it.
-/

namespace GxbCore.DataMarket

open Ledger

section Objects

/-- `object_id_type`, with the two kinds of products told apart. -/
inductive ObjectId where
  | leagueDataProduct (number : Nat)
  | freeDataProduct (number : Nat)
  | other (space type : UInt8) (number : Nat)
  deriving DecidableEq, Repr

/-- `instance`, which is all that a cast to the id of a free product keeps. -/
def ObjectId.number : ObjectId → Nat
  | leagueDataProduct number => number
  | freeDataProduct number => number
  | other _ _ number => number

abbrev LeagueId := Nat

structure SchemaContext where
  version : String
  schemaContext : String
  deriving DecidableEq, Repr

/-- `read_json`, then `get<string>` of a key with the empty string as default. -/
abbrev SchemaReader := String → String → Except Fault String

structure LeagueDataProduct where
  schemaContexts : List SchemaContext
  pocsThreshold : UInt64
  deriving DecidableEq, Repr

structure FreeDataProduct where
  datasource : AccountId
  price : UInt64
  schemaContexts : List SchemaContext
  deriving DecidableEq, Repr

structure League where
  dataProducts : List Nat
  prices : List UInt64
  members : List AccountId
  pocsThresholds : List UInt64
  feeBases : List UInt64
  productPocsWeights : List UInt64
  deriving DecidableEq, Repr

/-- `data_transaction_datasource_status` -/
inductive DatasourceStatus where
  | init
  | uploaded
  | payed
  | noData
  | error
  deriving DecidableEq, Repr

/-- `data_transaction_datasource_status_object` -/
structure DatasourceEntry where
  datasource : AccountId
  status : DatasourceStatus
  deriving DecidableEq, Repr

def dataTransactionStatusInit : UInt8 :=
  0

def dataTransactionStatusConfirmed : UInt8 :=
  1

def dataTransactionStatusUserRejected : UInt8 :=
  99

structure DataTransaction where
  id : Nat
  requestId : String
  productId : ObjectId
  version : String
  params : String
  status : UInt8
  createDateTime : Time
  requester : AccountId
  leagueId : Option LeagueId
  memo : String
  datasourcesStatus : List DatasourceEntry
  deriving DecidableEq, Repr

structure Pocs where
  leagueId : LeagueId
  accountId : AccountId
  totalSell : UInt64
  totalBuy : UInt64
  deriving DecidableEq, Repr

structure DatasourceCopyright where
  copyrightHash : String
  datasourceAccountId : AccountId
  dataTransactionRequestId : String
  createDateTime : Time
  deriving DecidableEq, Repr

structure SecondHandData where
  secondHandDatasourceId : AccountId
  copyrightHash : String
  datasourceAccountId : AccountId
  dataTransactionRequestId : String
  createDateTime : Time
  deriving DecidableEq, Repr

/-- What the market reads of an `account_object`. -/
structure MarketAccount where
  name : String
  merchantExpirationDate : Time
  datasourceExpirationDate : Time
  dataTransactionMemberExpirationDate : Time
  deriving DecidableEq, Repr

def MarketAccount.isMerchantMember (a : MarketAccount) : Bool :=
  a.merchantExpirationDate = 0xffffffff

def MarketAccount.isDatasourceMember (a : MarketAccount) : Bool :=
  a.datasourceExpirationDate = 0xffffffff

def MarketAccount.isDataTransactionMember (a : MarketAccount) : Bool :=
  a.dataTransactionMemberExpirationDate = 0xffffffff

/-- `data_transaction_commission_percent_t` -/
structure CommissionPercent where
  leagueDataMarketCommissionPercent : UInt16
  freeDataMarketCommissionPercent : UInt16
  commissionAccount : String
  reservePercent : UInt16
  deriving DecidableEq, Repr

end Objects

/-- The database with the objects of the data market. -/
structure Market where
  ledger : Database
  accounts : List MarketAccount
  leagues : List League
  leagueDataProducts : List LeagueDataProduct
  freeDataProducts : List FreeDataProduct
  otherObjects : List ObjectId
  commissionPercent : CommissionPercent
  dataTransactions : List DataTransaction
  nextDataTransactionId : Nat
  pocs : List Pocs
  copyrights : List DatasourceCopyright
  secondHandData : List SecondHandData
  deriving DecidableEq, Repr

namespace Market

def getAccount (m : Market) (id : AccountId) :
    Except Fault MarketAccount :=
  orThrow m.accounts[id]? .notFound

def getAccountByName (m : Market) (name : String) : Option AccountId :=
  m.accounts.findIdx? (·.name == name)

/-- `find_object`, and `get_schema_contexts_from_variant` of what it finds: other
objects than products have none. -/
def findObject (m : Market) (id : ObjectId) : Option (List SchemaContext) :=
  match id with
  | .leagueDataProduct number =>
      m.leagueDataProducts[number]?.map (·.schemaContexts)
  | .freeDataProduct number =>
      m.freeDataProducts[number]?.map (·.schemaContexts)
  | .other .. => if id ∈ m.otherObjects then some [] else none

/-- `find` of the index by request id. -/
def findTransaction (m : Market) (requestId : String) :
    Option DataTransaction :=
  m.dataTransactions.find? (·.requestId == requestId)

/-- `modify` of the data transaction with the id. -/
def modifyTransaction
    (m : Market) (id : Nat)
    (change : DataTransaction → DataTransaction) : Market :=
  { m with
    dataTransactions :=
      m.dataTransactions.map fun dto =>
        if dto.id = id then change dto else dto }

end Market

def DataTransaction.setDatasourceStatus
    (dto : DataTransaction) (datasource : AccountId)
    (status : DatasourceStatus) : DataTransaction :=
  { dto with
    datasourcesStatus :=
      dto.datasourcesStatus.map fun statusObj =>
        if statusObj.datasource = datasource then
          { statusObj with status := status }
        else
          statusObj }

section Operations

structure DataTransactionCreateOperation where
  requestId : String
  productId : ObjectId
  version : String
  params : String
  requester : AccountId
  createDateTime : Time
  leagueId : Option LeagueId
  deriving DecidableEq, Repr

structure DataTransactionUpdateOperation where
  requestId : String
  newStatus : UInt8
  newRequester : AccountId
  newMemo : Option String
  deriving DecidableEq, Repr

/-- `data_transaction_datasource_upload_operation`, with the copyright hash of
its extensions if there is one. -/
structure DatasourceUploadOperation where
  requestId : String
  requester : AccountId
  datasource : AccountId
  copyrightHash : Option String
  deriving DecidableEq, Repr

/-- `data_transaction_datasource_validate_error_operation` -/
structure DatasourceValidateErrorOperation where
  requestId : String
  datasource : AccountId
  deriving DecidableEq, Repr

structure PayDataTransactionOperation where
  fee : Asset
  source : AccountId
  target : AccountId
  amount : Asset
  requestId : String
  deriving DecidableEq, Repr

def PayDataTransactionOperation.validate (o : PayDataTransactionOperation) :
    Except Fault Unit := do
  fcAssert (0 ≤ o.fee.amount) ""
  fcAssert (o.source ≠ o.target) ""
  fcAssert (0 < o.amount.amount) ""

end Operations

section Create

def maxSizeRequestId : Nat :=
  100

/-- `data_transaction_create_evaluator::do_evaluate` -/
def createEvaluate (m : Market) (o : DataTransactionCreateOperation) :
    Except Fault Unit := do
  let requester ← m.getAccount o.requester
  fcAssert requester.isMerchantMember ""
  fcAssert (o.requestId.utf8ByteSize < maxSizeRequestId)
    "request_id ${r} too long, must <= 100"
  fcAssert (m.findTransaction o.requestId).isNone "request_id already exists!"
  fcAssert (m.findObject o.productId).isSome
    "product id not found, product_id ${p}"
  match o.leagueId with
  | none => return ()
  | some leagueId =>
      let league ←
        orThrow m.leagues[leagueId]? (.assertion "league_id not found")
      fcAssert (o.requester ∈ league.members)
        "requester ${r} is not league member!"

/-- Does the schema of the version ask for privacy?  Every schema of the version
is read. -/
def isPrivate
    (readJson : SchemaReader) (schemaContexts : List SchemaContext)
    (version : String) : Except Fault Bool :=
  schemaContexts.foldlM
    (fun found item =>
      if version = item.version then do
        let flag ← readJson item.schemaContext "privacy"
        return found || flag == "true"
      else
        .ok found)
    false

def datasourcesOf (m : Market) (o : DataTransactionCreateOperation) :
    Except Fault (List DatasourceEntry) :=
  match o.leagueId with
  | some leagueId => do
      let league ← orThrow m.leagues[leagueId]? .notFound
      return league.members.map fun member => ⟨member, .init⟩
  | none => do
      let freeDataObj ←
        orThrow m.freeDataProducts[o.productId.number]? .notFound
      return [⟨freeDataObj.datasource, .init⟩]

/-- The status of a new data transaction. -/
def createdStatus
    (readJson : SchemaReader) (m : Market)
    (o : DataTransactionCreateOperation) : Except Fault UInt8 :=
  match m.findObject o.productId with
  | none => .ok dataTransactionStatusInit
  | some schemaContexts => do
      let asked ← isPrivate readJson schemaContexts o.version
      return if asked then dataTransactionStatusInit
        else dataTransactionStatusConfirmed

/-- `data_transaction_create_evaluator::do_apply` -/
def createApply
    (readJson : SchemaReader) (m : Market)
    (o : DataTransactionCreateOperation) : Except Fault Market := do
  let status ← createdStatus readJson m o
  let datasourcesStatus ← datasourcesOf m o
  return { m with
    nextDataTransactionId := m.nextDataTransactionId + 1
    dataTransactions :=
      m.dataTransactions ++
        [{ id := m.nextDataTransactionId
           requestId := o.requestId
           productId := o.productId
           version := o.version
           params := o.params
           status := status
           createDateTime := o.createDateTime
           requester := o.requester
           leagueId := o.leagueId
           memo := ""
           datasourcesStatus := datasourcesStatus }] }

end Create

section Update

/-- `data_transaction_update_evaluator::do_evaluate` -/
def updateEvaluate (m : Market) (o : DataTransactionUpdateOperation) :
    Except Fault Unit := do
  let account ← m.getAccount o.newRequester
  fcAssert account.isDataTransactionMember ""
  let dto ← orThrow (m.findTransaction o.requestId) (.assertion "")
  fcAssert (dataTransactionStatusInit = dto.status)
    "previoud status must be 0"
  fcAssert
    (dataTransactionStatusConfirmed = o.newStatus ∨
      dataTransactionStatusUserRejected = o.newStatus)
    "new_status cannot out of \x7b1,99\x7d"

/-- `data_transaction_update_evaluator::do_apply` -/
def updateApply (m : Market) (o : DataTransactionUpdateOperation) :
    Except Fault Market :=
  match m.findTransaction o.requestId with
  | none => .ok m
  | some dto =>
      .ok (m.modifyTransaction dto.id fun obj =>
        { obj with
          status := o.newStatus
          memo := o.newMemo.getD obj.memo })

end Update

section Upload

/-- `data_transaction_datasource_upload_evaluator::do_evaluate` -/
def uploadEvaluate (m : Market) (o : DatasourceUploadOperation) :
    Except Fault Unit := do
  let account ← m.getAccount o.requester
  fcAssert account.isDataTransactionMember ""
  let dto ← orThrow (m.findTransaction o.requestId) (.assertion "")
  fcAssert (∃ statusObj ∈ dto.datasourcesStatus,
      statusObj.datasource = o.datasource)
    "datasource account is not found datasources status!"
  fcAssert (dataTransactionStatusConfirmed = dto.status)
    "data_transaction status ${status} != 1"

/-- Does the schema of the version ask for the copyright to be verified?  The
schemas after the first that does are not read. -/
def copyrightVerify
    (readJson : SchemaReader) (version : String) :
    List SchemaContext → Except Fault Bool
  | [] => .ok false
  | item :: rest =>
      if version = item.version then do
        let flag ← readJson item.schemaContext "copyright_verify"
        if flag = "true" then return true
        else copyrightVerify readJson version rest
      else
        copyrightVerify readJson version rest

/-- Record the copyright of uploaded data, or that the data are second hand. -/
def recordCopyright
    (m : Market) (o : DatasourceUploadOperation) (dto : DataTransaction)
    (copyrightHash : String) : Market :=
  match m.copyrights.find? (·.copyrightHash == copyrightHash) with
  | some dco =>
      if dco.datasourceAccountId ≠ o.datasource then
        { m with
          secondHandData :=
            m.secondHandData ++
              [⟨o.datasource, copyrightHash, dco.datasourceAccountId,
                o.requestId, dto.createDateTime⟩] }
      else
        m
  | none =>
      { m with
        copyrights :=
          m.copyrights ++
            [⟨copyrightHash, o.datasource, o.requestId,
              dto.createDateTime⟩] }

/-- `data_transaction_datasource_upload_evaluator::do_apply` -/
def uploadApply
    (readJson : SchemaReader) (m : Market) (o : DatasourceUploadOperation) :
    Except Fault Market :=
  match m.findTransaction o.requestId with
  | none => .ok m
  | some dto => do
      let marked :=
        m.modifyTransaction dto.id
          (·.setDatasourceStatus o.datasource .uploaded)
      let verify ←
        copyrightVerify readJson dto.version
          ((m.findObject dto.productId).getD [])
      match o.copyrightHash with
      | none => return marked
      | some copyrightHash =>
          return if verify then recordCopyright marked o dto copyrightHash
            else marked

end Upload

section ValidateError

/-- `data_transaction_datasource_validate_error_evaluator::do_evaluate` -/
def validateErrorEvaluate
    (m : Market) (o : DatasourceValidateErrorOperation) :
    Except Fault Unit := do
  let account ← m.getAccount o.datasource
  fcAssert account.isDatasourceMember ""
  let dto ← orThrow (m.findTransaction o.requestId) (.assertion "")
  fcAssert (dataTransactionStatusConfirmed = dto.status)
    "data_transaction status ${status} != 1"
  fcAssert (∀ statusObj ∈ dto.datasourcesStatus,
      statusObj.datasource = o.datasource → statusObj.status = .init)
    "datasources_status status must be 0"

/-- `data_transaction_datasource_validate_error_evaluator::do_apply` -/
def validateErrorApply
    (m : Market) (o : DatasourceValidateErrorOperation) :
    Except Fault Market :=
  match m.findTransaction o.requestId with
  | none => .ok m
  | some dto =>
      .ok (m.modifyTransaction dto.id
        (·.setDatasourceStatus o.datasource .error))

end ValidateError

section Pay

def HARDFORK_1001_TIME : Time :=
  1506787200

def HARDFORK_1003_TIME : Time :=
  1509292800

def GRAPHENE_DEFAULT_COMMISSION_PERCENT : UInt16 :=
  1000

/-- The place of the product in the league, as a `uint16_t`. -/
def League.productIndex (league : League) (productId : ObjectId) : Nat :=
  league.dataProducts.findIdx (.leagueDataProduct · == productId) % 2 ^ 16

/-- The price that the payment has to match. -/
def productPrice (m : Market) (dto : DataTransaction) :
    Except Fault UInt64 :=
  match dto.leagueId with
  | some leagueId => do
      let leagueObj ← orThrow m.leagues[leagueId]? .notFound
      let idx := leagueObj.productIndex dto.productId
      if idx < leagueObj.dataProducts.length then
        orThrow leagueObj.prices[idx]? .notFound
      else
        throw (.assertion
          "cannot find product price from league, product_id ${p}, league_id ${l}")
  | none => do
      let freeDataObj ←
        orThrow m.freeDataProducts[dto.productId.number]? .notFound
      return freeDataObj.price

def checkPayment (o : PayDataTransactionOperation) (db : Database) :
    Except Fault Unit := do
  let fromAccount ← db.getAccount o.source
  let toAccount ← db.getAccount o.target
  let assetType ← db.getAsset o.amount.assetId
  fcAssert (isAuthorizedAsset db fromAccount o.amount.assetId assetType)
    "'from' account ${from} is not whitelisted for asset ${asset}"
  fcAssert (isAuthorizedAsset db toAccount o.amount.assetId assetType)
    "'to' account ${to} is not whitelisted for asset ${asset}"
  fcAssert
    (assetType.isTransferRestricted →
      o.source = assetType.issuer ∨ o.target = assetType.issuer)
    "Asset \x7basset\x7d has transfer_restricted flag enabled"
  checkBalance o.source o.amount db

/-- `pay_data_transaction_evaluator::do_evaluate` -/
def payEvaluate (m : Market) (o : PayDataTransactionOperation) :
    Except Fault Unit :=
  match m.findTransaction o.requestId with
  | none => .ok ()
  | some dto => do
      fcAssert (dataTransactionStatusConfirmed = dto.status)
        "dto status must be confirmed"
      fcAssert (∃ statusObj ∈ dto.datasourcesStatus,
          statusObj.datasource = o.target ∧ statusObj.status = .uploaded)
        "datasource ${d} not found or status not uploaded"
      fcAssert (m.findObject dto.productId).isSome
        "product not found, product_id ${p}"
      let price ← productPrice m dto
      fcAssert (o.amount.amount = int64 price.toNat)
        "pay amount doesn't match product price"
      checkPayment o m.ledger

def commissionPercentOf (m : Market) (dto : DataTransaction) : UInt16 :=
  if m.ledger.headBlockTime ≥ HARDFORK_1001_TIME then
    if dto.leagueId.isSome then
      m.commissionPercent.leagueDataMarketCommissionPercent
    else
      m.commissionPercent.freeDataMarketCommissionPercent
  else
    GRAPHENE_DEFAULT_COMMISSION_PERCENT

/-- Move the money: what the datasource and the commission account get is in the
asset with the id 0, whatever asset was paid in. -/
def payMoney
    (m : Market) (o : PayDataTransactionOperation) (dto : DataTransaction) :
    Except Fault Database := do
  let commissionAmount ←
    cutFee o.amount.amount (commissionPercentOf m dto).toNat
  let datasourceAmount ← share (o.amount.amount - commissionAmount)
  let db ← m.ledger.adjustBalance o.source o.amount.neg
  let db ← db.adjustBalance o.target ⟨datasourceAmount, 0⟩
  let afterFork := decide (m.ledger.headBlockTime ≥ HARDFORK_1003_TIME)
  let reservePercent :=
    if afterFork then m.commissionPercent.reservePercent else 0
  let commissionAccount :=
    if afterFork then
      (m.getAccountByName m.commissionPercent.commissionAccount).getD 0
    else
      0
  let reservedCut ← cutFee commissionAmount reservePercent.toNat
  let commission ← share (commissionAmount - reservedCut)
  db.adjustBalance commissionAccount ⟨commission, 0⟩

/-- Count a trade of the league for one account. -/
def updatePocs
    (leagueId : LeagueId) (weight : UInt64) (account : AccountId)
    (isBuy : Bool) (pocs : List Pocs) : List Pocs :=
  let bought := if isBuy then weight else 0
  let sold := if isBuy then 0 else weight
  if pocs.any (fun b => b.leagueId == leagueId && b.accountId == account) then
    pocs.map fun b =>
      if b.leagueId = leagueId ∧ b.accountId = account then
        { b with
          totalSell := b.totalSell + sold
          totalBuy := b.totalBuy + bought }
      else
        b
  else
    pocs ++ [⟨leagueId, account, sold, bought⟩]

def League.pocsWeight (league : League) (productId : ObjectId) :
    Except Fault UInt64 :=
  let idx := league.productIndex productId
  if idx < league.pocsThresholds.length then
    orThrow league.productPocsWeights[idx]? .notFound
  else
    .ok 1

def updateLeaguePocs
    (m : Market) (leagueId : LeagueId) (productId : ObjectId)
    (o : PayDataTransactionOperation) : Except Fault Market := do
  let leagueObj ← orThrow m.leagues[leagueId]? .notFound
  let weight ← leagueObj.pocsWeight productId
  return { m with
    pocs :=
      updatePocs leagueId weight o.target false
        (updatePocs leagueId weight o.source true m.pocs) }

/-- `pay_data_transaction_evaluator::do_apply` -/
def payApply (m : Market) (o : PayDataTransactionOperation) :
    Except Fault Market :=
  match m.findTransaction o.requestId with
  | none => .ok m
  | some dto => do
      let db ← payMoney m o dto
      let marked :=
        { m with ledger := db }.modifyTransaction dto.id
          (·.setDatasourceStatus o.target .payed)
      match dto.leagueId with
      | none => return marked
      | some leagueId => updateLeaguePocs marked leagueId dto.productId o

end Pay

/-- `data_transaction_plugin::check_data_transaction`: the plugin removes the
data transactions that are older than their lifetime in hours. -/
def checkDataTransaction (dataTransactionLifetime : Nat) (m : Market) :
    Market :=
  if 0 < dataTransactionLifetime then
    { m with
      dataTransactions :=
        m.dataTransactions.filter fun dto =>
          decide (m.ledger.headBlockTime.toNat ≤
            dto.createDateTime.toNat + dataTransactionLifetime * 3600) }
  else
    m

end GxbCore.DataMarket
