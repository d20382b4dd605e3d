import TokenGateway.Base.Table
import TokenGateway.Base.Decimal

namespace TokenGateway.Billing

open Base

/-!
# The main database of the billing subsystem

The rows that the settlement, reseller and top-up code reads and writes, and the
`Database` of their tables.  Columns that none of the modelled functions reads
(timestamps kept for display, cache keys, upstream payloads) are left out.

A string column that holds one of a fixed set of words is an inductive type; where the
source has a `default` branch for any other word, the type has a constructor for it.  The
JSON texts of the source (`PersonalFact`, `Snapshot`, `Fact`) are the values they encode.
-/

/-! ### Errors and bounds -/

/-- The errors of the billing transactions: the sentinel errors of the source, with the
    text a wrapping call adds to them, and the texts of those built in place. -/
inductive BillingError where
  | recordNotFound
  | duplicatedKey
  | taskSettlementJournalConflict (detail : String)
  | walletQuotaOutOfRange (detail : String)
  | billingWalletQuotaInsufficient (detail : String)
  | billingTokenQuotaInsufficient (detail : String)
  | resellerForbidden
  | resellerInvalid
  | resellerConflict
  | resellerOperationConflict
  | resellerBalanceConflict
  | paymentMethodMismatch
  | topUpNotFound
  | topUpStatusInvalid
  | invalidTopUpQuota
  | topUpQuotaLimitExceeded
  | database (detail : String)
  | text (message : String)
  deriving DecidableEq

/-- `common.MaxQuota`, the bound of a single charge. -/
def maxQuota : Int := 2147483647

def maxWalletQuota : Int := 500000000000000

def minWalletQuota : Int := -2147483648

def maxInt64 : Int := 9223372036854775807

def minInt64 : Int := -9223372036854775808

/-! ### Accounts -/

/-- `User.ResellerKind`; the empty text is an ordinary user. -/
inductive ResellerKind where
  | ordinary
  | agent
  | agentCustomer
  | other (kind : String)
  deriving DecidableEq

/-- A user with the wallet balance `quota`. -/
structure User where
  (id quota : Int)
  (usedQuota requestCount : Int := 0)
  resellerKind : ResellerKind := .ordinary
  enabled : Bool := true
  role : Int := 1
  (stripeCustomer email : String := "")

structure Token where
  (id remainQuota : Int)
  usedQuota : Int := 0
  unlimitedQuota : Bool := false

structure Channel where
  id : Int
  usedQuota : Int := 0

/-! ### Subscriptions -/

inductive SubscriptionStatus where
  | active
  | expired
  | cancelled
  deriving DecidableEq

/-- A subscription of a user.  Usage starts at zero and every writer keeps it non-negative;
    `amountTotal = 0` is unlimited. -/
structure UserSubscription where
  (id userId planId amountTotal amountUsed : Int)
  startTime : Int := 0
  endTime : Int
  status : SubscriptionStatus := .active
  (lastResetTime nextResetTime : Int := 0)
  amountUsed_nonneg : 0 ≤ amountUsed := by decide

/-- `NormalizeResetPeriod` of the plan's text: any other word is `never`. -/
inductive ResetPeriod where
  | never
  | daily
  | weekly
  | monthly
  | custom
  deriving DecidableEq

structure SubscriptionPlan where
  id : Int
  quotaResetPeriod : ResetPeriod
  quotaResetCustomSeconds : Int := 0
  title : String := ""

inductive PreConsumeStatus where
  | consumed
  | refunded
  deriving DecidableEq

/-- The idempotency record of one subscription pre-consume.  Only positive amounts are
    pre-consumed, and the row keeps that. -/
structure SubscriptionPreConsumeRecord where
  requestId : String
  (userId userSubscriptionId preConsumed : Int)
  status : PreConsumeStatus
  preConsumed_pos : 0 < preConsumed := by decide

/-! ### Tasks -/

inductive TaskStatus where
  | notStart
  | submitted
  | queued
  | inProgress
  | failure
  | success
  | unknown
  deriving DecidableEq

/-- The invoice confirmation kept on a task: `none` is unknown, `some 0` is explicitly free
    or refunded. -/
structure TaskInvoiceExpense where
  invoiceOriginAt : Int := 0
  invoiceExpenseApplied : Bool := false
  invoiceExpenseQuota : Option Int := none
  invoiceExpenseSource : String := ""
  deriving DecidableEq

/-! ### Personal billing facts -/

/-- `PersonalBillingFact.Kind`. -/
inductive FactKind where
  | reserve
  | pending
  | settle
  | refund
  | other (kind : String)
  deriving DecidableEq

/-- `ResellerRequest.State`; `initial` is the empty text of a row not yet written, which as
    an `ExpectedState` asks for nothing. -/
inductive RequestState where
  | initial
  | reserved
  | outcomeUnknown
  | pending
  | settled
  | partiallyRefunded
  | refunded
  deriving DecidableEq

/-- The entity a journal or a fact is about; `absent` is the empty text. -/
inductive SettlementEntity where
  | absent
  | task
  | midjourney
  | other (name : String)
  deriving DecidableEq

/-- The immutable money fact of one operation on a personal-priced request. -/
structure PersonalBillingFact where
  pricingVersion : Int := 0
  pricingSource : String := ""
  (pricingRevision organizationId : Int := 0)
  saturated : Bool := false
  usage : List (String × String) := []
  entityType : SettlementEntity := .absent
  entityId : Int := 0
  expectedState : RequestState := .initial
  (requestId operationId : String)
  kind : FactKind
  (userId agentUserId : Int)
  model : String := ""
  (channelId revision agentRevision : Int := 0)
  (customerRatio agentRatio : Int := 1000000)
  (baseQuota customerTarget agentTarget : Int)
  deriving DecidableEq

/-- `BillingSource`; the legacy empty text is `other ""`. -/
inductive BillingSource where
  | wallet
  | subscription
  | other (name : String)
  deriving DecidableEq

/-- What the billing code reads of a `Task` row, and of a `Midjourney` row; the last five
    columns are of its `PrivateData`, and `personalPricing` of the billing context there. -/
structure Task where
  (id userId quota : Int)
  status : TaskStatus := .notStart
  expense : TaskInvoiceExpense := {}
  (channelId tokenId : Int := 0)
  billingSource : BillingSource := .wallet
  subscriptionId : Int := 0
  personalPricing : Option PersonalBillingFact := none
  deriving DecidableEq

/-! ### Settlement journals -/

/-- `TaskSettlementJournal.Operation`. -/
inductive SettlementOperation where
  | settle
  | refund
  | recalculate
  | reserve
  deriving DecidableEq

/-- The part of the log payload that the main database reads. -/
structure LogPayload where
  createdAt : Int
  deriving DecidableEq

/-- The monetary and ownership fields of a journal: what a retry has to repeat exactly. -/
structure JournalFact where
  personalFact : Option PersonalBillingFact := none
  invoiceTaskEntity : SettlementEntity := .absent
  invoiceTaskId : Int := 0
  invoiceExpenseQuota : Option Int := none
  operation : SettlementOperation
  entityType : SettlementEntity := .absent
  (entityId entityExpectedQuota entityFinalQuota : Int := 0)
  (expectedQuota finalQuota userId : Int)
  (channelId tokenId : Int := 0)
  billingSource : BillingSource
  subscriptionId : Int := 0
  subscriptionPreConsumeRequestId : String := ""
  subscriptionPreConsumed : Int := 0
  delta : Int
  usageDelta : Int := 0
  (applyUsage applyToken : Bool := false)
  deriving DecidableEq

/-- The durable billing fact of one balance adjustment, with its outbox state. -/
structure TaskSettlementJournal extends JournalFact where
  requestId : String
  applied : Bool := false
  logPayload : Option LogPayload := none
  logDone : Bool := false
  deriving DecidableEq

/-! ### The reseller ledger -/

/-- `ResellerIdentity`; `active` is `Activation == "active"`. -/
structure ResellerIdentity where
  userId : Int
  kind : ResellerKind
  agentUserId : Int := 0
  active : Bool := true

structure ResellerAccount where
  userId : Int
  enabled : Bool := true
  (balance reserved revision : Int := 0)
  deriving DecidableEq

/-- `ResellerQuotaAdjustment.Mode`. -/
inductive AdjustmentMode where
  | add
  | subtract
  deriving DecidableEq

structure ResellerQuotaAdjustment where
  (operationKey operationId : String)
  accountKind : ResellerKind
  (userId operatorId : Int)
  mode : AdjustmentMode
  quota : Int
  reason : String
  (before after : Int)

structure ResellerRequest where
  id : String
  (agentUserId customerUserId : Int)
  entityType : SettlementEntity := .absent
  entityId : Int := 0
  model : String := ""
  channelId : Int := 0
  snapshot : Option PersonalBillingFact := none
  state : RequestState := .initial
  (version baseQuota reservedQuota : Int := 0)
  (customerQuota agentQuota : Option Int := none)
  originalOperationId : String := ""

/-- One published change of a request; `processedAt = 0` is pending.  The rows are in the
    order of their ids, which is all that is read of an id. -/
structure ResellerEvent where
  (operationId requestId : String)
  version : Int
  kind : FactKind
  (agentUserId customerUserId : Int)
  snapshot : PersonalBillingFact
  (baseQuota customerTarget agentTarget customerDelta reserveDelta spendDelta : Int)
  originalOperationId : String
  (processedRevision processedAt : Int := 0)

/-- The receipt of an applied fact; it survives journal cleanup. -/
structure ResellerBillingReceipt where
  operationId : String
  fact : PersonalBillingFact

/-- The last event version of a request that its agent's account contains. -/
structure ResellerProjection where
  requestId : String
  version : Int
  deriving DecidableEq

structure ResellerFundingSnapshot where
  requestId : String
  (tokenId subscriptionId : Int)
  applyToken : Bool
  billingSource : BillingSource

/-! ### Top-up orders -/

/-- `BillingMoneySnapshot`; its texts are the decimals they write. -/
structure BillingMoneySnapshot where
  (exchangeRate quotaPerUnit amount : Decimal)
  deriving DecidableEq

inductive PaymentProvider where
  | epay
  | stripe
  | creem
  | waffo
  | waffoPancake
  | balance
  | other (name : String)
  deriving DecidableEq

/-- `TopUp.Status`. -/
inductive TopUpStatus where
  | pending
  | success
  | failed
  | expired
  | other (name : String)
  deriving DecidableEq

/-- A top-up order; `amount` and `money` are read in the units of its provider. -/
structure TopUp where
  tradeNo : String
  (userId amount : Int)
  money : Decimal
  creditedQuota : Int := 0
  moneySnapshot : Option BillingMoneySnapshot := none
  paymentMethod : String := ""
  paymentProvider : PaymentProvider
  completeTime : Int := 0
  status : TopUpStatus := .pending

/-! ### The database -/

/-- The main database: one table per model, each with its unique key. -/
structure Database where
  users : Table User User.id := ∅
  tokens : Table Token Token.id := ∅
  channels : Table Channel Channel.id := ∅
  subscriptions : Table UserSubscription UserSubscription.id := ∅
  plans : Table SubscriptionPlan SubscriptionPlan.id := ∅
  preConsumeRecords : Table SubscriptionPreConsumeRecord SubscriptionPreConsumeRecord.requestId := ∅
  (tasks midjourneys : Table Task Task.id := ∅)
  journals : Table TaskSettlementJournal TaskSettlementJournal.requestId := ∅
  identities : Table ResellerIdentity ResellerIdentity.userId := ∅
  accounts : Table ResellerAccount ResellerAccount.userId := ∅
  adjustments : Table ResellerQuotaAdjustment ResellerQuotaAdjustment.operationKey := ∅
  requests : Table ResellerRequest ResellerRequest.id := ∅
  events : Table ResellerEvent ResellerEvent.operationId := ∅
  receipts : Table ResellerBillingReceipt ResellerBillingReceipt.operationId := ∅
  projections : Table ResellerProjection ResellerProjection.requestId := ∅
  fundingSnapshots : Table ResellerFundingSnapshot ResellerFundingSnapshot.requestId := ∅
  topUps : Table TopUp TopUp.tradeNo := ∅

end TokenGateway.Billing
