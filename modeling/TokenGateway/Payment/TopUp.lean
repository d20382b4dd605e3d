import TokenGateway.Billing.Balance

namespace TokenGateway.Payment

open Base Billing

/-!
# Top-up orders

`model/topup.go`, `model/billing_money_snapshot.go` and `common/quota_balance.go`.  An order is
completed by the callback of its provider or by an administrator; each completion is one
transaction that marks the order and credits the wallet of its user.

* `quotaBalanceFromDecimalStrict`, `billingMoneyFact` — from money to quota, and its evidence;
* `creditTopUpQuota` — one of the two credit helpers, the other is `adjustUserWalletInTx`;
* `rechargeEpay`, `recharge`, `rechargeCreem`, `rechargeWaffo`, `rechargeWaffoPancake` — the
  callbacks of the providers;
* `manualCompleteTopUp`, `updatePendingTopUpStatus`.

`Money` and the settings are floats that the source reads as their exact decimals.
-/

/-! ### From money to quota -/

/-- `QuotaBalanceFromDecimalStrict`: truncate toward zero, then reject what is out of range. -/
def quotaBalanceFromDecimalStrict (value : Decimal) (minValue maxValue : Int) :
    Except BillingError Int :=
  if maxValue < minValue then
    .error (.text s!"invalid quota balance range [{minValue}, {maxValue}]")
  else
    let truncated := value.truncate
    if truncated < minValue ∨ maxValue < truncated then
      .error (.text s!"quota balance {truncated} is outside [{minValue}, {maxValue}]")
    else .ok truncated

/-- `common.QuotaPerUnit` and `operation_setting.USDExchangeRate`. -/
structure MoneySettings where
  (quotaPerUnit usdExchangeRate : Decimal)
  deriving DecidableEq

/-- `ValidateBillingMoneySetting`: the pattern of the source allows eight places. -/
def validateBillingMoneySetting (value : Decimal) : Except BillingError Unit :=
  if value.coef ≤ 0 then .error (.text "money setting must be positive and finite")
  else if 24 < value.text.length ∨ 8 < (Decimal.normalize value.coef value.scale).scale then
    .error (.text "money setting must have at most 8 decimal places and 24 characters")
  else .ok ()

variable (settings : MoneySettings)

def currentBillingMoneySnapshot : Except BillingError BillingMoneySnapshot :=
  let rate := settings.usdExchangeRate
  let scale := settings.quotaPerUnit
  match validateBillingMoneySetting rate, validateBillingMoneySetting scale with
  | .ok _, .ok _ =>
      .ok { exchangeRate := Decimal.normalize rate.coef rate.scale
            quotaPerUnit := Decimal.normalize scale.coef scale.scale
            amount := Decimal.ofInt 0 }
  | _, _ => .error (.text "monetary conversion configuration is invalid")

/-- `BillingMoneySnapshot.WithQuota`; quotients have 16 places. -/
def withQuota (s : BillingMoneySnapshot) (quota : Int) : Except BillingError BillingMoneySnapshot :=
  if s.exchangeRate.coef ≤ 0 then .error (.text "invalid monetary exchange rate")
  else if s.quotaPerUnit.coef ≤ 0 then .error (.text "invalid monetary scale")
  else
    let amount := ((Decimal.ofInt quota).divRound s.quotaPerUnit 16).mul s.exchangeRate
    .ok { s with amount := amount.round 8 }

def billingMoneyFact (quota : Int) :
    Except BillingError BillingMoneySnapshot := do
  let snapshot ← currentBillingMoneySnapshot settings
  withQuota snapshot quota

/-- The quota of `units` of currency, as a credit to a wallet. -/
def topUpQuota (units : Decimal) : Except BillingError Int :=
  quotaBalanceFromDecimalStrict (units.mul settings.quotaPerUnit) 1 maxWalletQuota

/-! ### Crediting -/

/-- `creditTopUpQuota`: the wallet ceiling and the increment are one conditional update, which
    may set the Stripe customer too. -/
def creditTopUpQuota (db : Database) (userId creditedQuota : Int)
    (stripeCustomer : Option String) : Except BillingError Database := do
  requireOrdinaryUser db userId
  if creditedQuota ≤ 0 ∨ maxWalletQuota < creditedQuota then .error .invalidTopUpQuota
  else match db.users.get? userId with
    | none => .error .recordNotFound
    | some user =>
        if user.quota ≤ maxWalletQuota - creditedQuota then
          .ok { db with users := db.users.set { user with
            quota := user.quota + creditedQuota
            stripeCustomer := stripeCustomer.getD user.stripeCustomer } }
        else .error .topUpQuotaLimitExceeded

/-- `tx.Save(topUp)`. -/
def saveTopUp (db : Database) (topUp : TopUp) : Database :=
  { db with topUps := db.topUps.set topUp }

variable (now : Int) (db : Database)

/-- The columns of a completed order: its time, its status, its credit and the evidence. -/
def completeTopUp (topUp : TopUp) (quota : Int) :
    Except BillingError TopUp := do
  let snapshot ← billingMoneyFact settings quota
  .ok { topUp with
    completeTime := now
    status := .success
    creditedQuota := quota
    moneySnapshot := some snapshot }

/-- Complete the order, then credit the wallet. -/
def creditOrder (topUp : TopUp) (quota : Int) : Except BillingError Database := do
  let topUp ← completeTopUp settings now topUp quota
  adjustUserWalletInTx (saveTopUp db topUp) topUp.userId quota

/-- The error that most callbacks report for any failure of their transaction. -/
def reportFailure {α : Type} : Except BillingError α → Except BillingError α
  | .ok a => .ok a
  | .error _ => .error (.text "充值失败，请稍后重试")

/-! ### The callbacks of the providers -/

/-- `RechargeEpay`: whether the order was done already, and the database.  Neither
    `CreditedQuota` nor `MoneySnapshot` is written. -/
def rechargeEpay (tradeNo : String)
    (actualPaymentMethod : String) : Except BillingError (Bool × Database) :=
  if tradeNo = "" then .error (.text "未提供支付单号")
  else match db.topUps.get? tradeNo with
    | none => .error .topUpNotFound
    | some topUp =>
        if topUp.paymentProvider ≠ .epay then .error .paymentMethodMismatch
        else if topUp.status = .success then .ok (true, db)
        else if topUp.status ≠ .pending then .error .topUpStatusInvalid
        else
          let method := if actualPaymentMethod ≠ "" then actualPaymentMethod
            else topUp.paymentMethod
          match topUpQuota settings (Decimal.ofInt topUp.amount) with
          | .error _ => .error .invalidTopUpQuota
          | .ok quotaToAdd => do
              let db := saveTopUp db { topUp with
                paymentMethod := method, completeTime := now, status := .success }
              let db ← creditTopUpQuota db topUp.userId quotaToAdd none
              .ok (false, db)

/-- The update of `stripe_customer` in `Recharge`. -/
def updateStripeCustomer (userId : Int) (customerId : String) : Database :=
  match db.users.get? userId with
  | some user => { db with users := db.users.set { user with stripeCustomer := customerId } }
  | none => db

/-- `Recharge`, for Stripe: the wallet is credited by both helpers. -/
def recharge (referenceId : String) (customerId : String) : Except BillingError Database :=
  if referenceId = "" then .error (.text "未提供支付单号")
  else reportFailure <| match db.topUps.get? referenceId with
    | none => .error (.text "充值订单不存在")
    | some topUp =>
        if topUp.paymentProvider ≠ .stripe then .error .paymentMethodMismatch
        else if topUp.status ≠ .pending then .error (.text "充值订单状态错误")
        else do
          let quota ← topUpQuota settings topUp.money
          let db ← adjustUserWalletInTx db topUp.userId quota
          let db := updateStripeCustomer db topUp.userId customerId
          let topUp ← completeTopUp settings now topUp quota
          creditTopUpQuota (saveTopUp db topUp) topUp.userId quota (some customerId)

/-- `RechargeCreem`: the amount is the quota itself; an empty email of the user is filled in. -/
def rechargeCreem (referenceId : String) (customerEmail : String) : Except BillingError Database :=
  if referenceId = "" then .error (.text "未提供支付单号")
  else reportFailure <| match db.topUps.get? referenceId with
    | none => .error (.text "充值订单不存在")
    | some topUp =>
        if topUp.paymentProvider ≠ .creem then .error .paymentMethodMismatch
        else if topUp.status ≠ .pending then .error (.text "充值订单状态错误")
        else
          let quota := topUp.amount
          if quota ≤ 0 ∨ maxWalletQuota < quota then .error (.walletQuotaOutOfRange "")
          else do
            let db ← creditOrder settings now db topUp quota
            if customerEmail = "" then .ok db
            else match db.users.get? topUp.userId with
              | none => .error .recordNotFound
              | some user =>
                  if user.email = "" then
                    .ok { db with users := db.users.set { user with email := customerEmail } }
                  else .ok db

/-- The two Waffo callbacks differ in their provider. -/
def rechargeWaffoOrder (provider : PaymentProvider) (settings : MoneySettings) (now : Int)
    (db : Database) (tradeNo : String) : Except BillingError Database :=
  if tradeNo = "" then .error (.text "未提供支付单号")
  else reportFailure <| match db.topUps.get? tradeNo with
    | none => .error (.text "充值订单不存在")
    | some topUp =>
        if topUp.paymentProvider ≠ provider then .error .paymentMethodMismatch
        else if topUp.status = .success then .ok db
        else if topUp.status ≠ .pending then .error (.text "充值订单状态错误")
        else do
          let quotaToAdd ← topUpQuota settings (Decimal.ofInt topUp.amount)
          creditOrder settings now db topUp quotaToAdd

def rechargeWaffo := rechargeWaffoOrder .waffo

def rechargeWaffoPancake := rechargeWaffoOrder .waffoPancake

/-! ### Completion by hand, and failure -/

/-- The units `ManualCompleteTopUp` takes an order to be in: the money of a Stripe order, the
    amount of any other one. -/
def manualUnits (topUp : TopUp) : Decimal :=
  if topUp.paymentProvider = .stripe then topUp.money else Decimal.ofInt topUp.amount

def manualCompleteTopUp (tradeNo : String) : Except BillingError Database :=
  if tradeNo = "" then .error (.text "未提供订单号")
  else match db.topUps.get? tradeNo with
    | none => .error (.text "充值订单不存在")
    | some topUp =>
        if topUp.status = .success then .ok db
        else if topUp.status ≠ .pending then .error (.text "订单状态不是待支付，无法补单")
        else do
          let quotaToAdd ← topUpQuota settings (manualUnits topUp)
          creditOrder settings now db topUp quotaToAdd

/-- `UpdatePendingTopUpStatus`; an empty expected provider is `none`. -/
def updatePendingTopUpStatus (tradeNo : String)
    (expectedPaymentProvider : Option PaymentProvider) (targetStatus : TopUpStatus) :
    Except BillingError Database :=
  if tradeNo = "" then .error (.text "未提供支付单号")
  else match db.topUps.get? tradeNo with
    | none => .error .topUpNotFound
    | some topUp =>
        if expectedPaymentProvider.isSome ∧
            expectedPaymentProvider ≠ some topUp.paymentProvider then
          .error .paymentMethodMismatch
        else if topUp.status ≠ .pending then .error .topUpStatusInvalid
        else .ok (saveTopUp db { topUp with status := targetStatus })

end TokenGateway.Payment
