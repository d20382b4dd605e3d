import TokenGateway.Billing.Subscription
import TokenGateway.Reseller.Ledger

namespace TokenGateway.Billing

open Base Reseller

/-!
# Admission: debiting a request before it is served

`model/billing_balance.go`.  `preConsumeBillingBalances` is the request-admission boundary and
`reserveBillingBalances` extends an admitted request; both debit the funding source and the
token in one transaction.
-/

variable (cal : Calendar) (now : Int)

/-! ### Pre-consume -/

/-- `BillingBalancePreConsumeParams`; the model name is only passed on. -/
structure BillingBalancePreConsumeParams where
  personalFact : Option PersonalBillingFact := none
  requestId : String
  (userId amount : Int)
  billingSource : BillingSource
  tokenId : Int
  (applyToken tokenUnlimited : Bool)

variable (db : Database) (params : BillingBalancePreConsumeParams)

/-- The `switch params.BillingSource` of `PreConsumeBillingBalances`. -/
def preConsumeFundingTx : Except BillingError (Option SubscriptionPreConsumeResult × Database) :=
  if 0 < params.amount then
    match params.billingSource with
    | .subscription => do
        let (result, db) ← preConsumeUserSubscription cal db params.requestId params.userId
          params.amount now
        .ok (some result, db)
    | .wallet => do
        let userId := params.userId
        let db ← debitWalletTx db userId params.amount
          (.billingWalletQuotaInsufficient s!" for user {userId}")
        .ok (none, db)
    | .other name => .error (.text s!"unsupported billing source \"{name}\"")
  else .ok (none, db)

/-- The transaction of `PreConsumeBillingBalances`. -/
def preConsumeBillingBalancesTx :
    Except BillingError (Option SubscriptionPreConsumeResult × Database) := do
  let replay ← personalBillingReplayTx db params.personalFact
  if replay then .ok (none, db)
  else
    validatePersonalFundingTx db params.userId params.billingSource params.personalFact
    let (subscription, db) ← preConsumeFundingTx cal now db params
    let db ← preConsumeTokenBalanceTx db params.tokenId params.amount params.applyToken
      params.tokenUnlimited
    let subscriptionId := match subscription with
      | some result => result.userSubscriptionId
      | none => 0
    let db ← recordPersonalFundingTx db params.personalFact params.userId params.amount
      params.tokenId params.applyToken params.billingSource subscriptionId
    let db ← applyPersonalBillingFactTx db params.personalFact
    .ok (subscription, db)

def preConsumeBillingBalances :
    Except BillingError (Option SubscriptionPreConsumeResult × Database) :=
  if params.userId ≤ 0 ∨ params.amount < 0 then
    .error (.text "invalid billing pre-consume params")
  else preConsumeBillingBalancesTx cal now db params

/-! ### Reserve -/

structure BillingBalanceReserveParams where
  personalFact : Option PersonalBillingFact := none
  requireAvailableQuota : Bool
  (userId amount : Int)
  billingSource : BillingSource
  (subscriptionId tokenId : Int)
  (applyToken tokenUnlimited : Bool)

/-- The `switch params.BillingSource` of `ReserveBillingBalances`. -/
def reserveFundingTx (params : BillingBalanceReserveParams) : Except BillingError Database :=
  match params.billingSource with
  | .subscription => postConsumeUserSubscriptionDeltaTx db params.subscriptionId params.amount
  | .wallet =>
      if params.requireAvailableQuota then
        debitWalletTx db params.userId params.amount (.billingWalletQuotaInsufficient "")
      else adjustUserWalletInTx db params.userId (-params.amount)
  | .other name => .error (.text s!"unsupported billing source \"{name}\"")

/-- `ReserveBillingBalances`: wallet reserve may run into debt unless the quota has to be
    available. -/
def reserveBillingBalances (params : BillingBalanceReserveParams) : Except BillingError Database :=
  if params.userId ≤ 0 ∨ params.amount ≤ 0 then
    .error (.text "invalid billing reserve params")
  else do
    let replay ← personalBillingReplayTx db params.personalFact
    if replay then .ok db
    else
      validatePersonalFundingTx db params.userId params.billingSource params.personalFact
      let db ← reserveFundingTx db params
      let db ← preConsumeTokenBalanceTx db params.tokenId params.amount params.applyToken
        params.tokenUnlimited
      applyPersonalBillingFactTx db params.personalFact

end TokenGateway.Billing
