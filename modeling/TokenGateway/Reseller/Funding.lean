import TokenGateway.Billing.Audit
import TokenGateway.Billing.TaskBilling

namespace TokenGateway.Reseller

open Base Billing

/-!
# What moves the money of a personal request

The debit of a request and the fact that records it are written by different paths:

* `preConsumeBillingBalances`, `reserveBillingBalances` — directly (`Billing.Admission`);
* `reservePersonal` — `service/reseller_pricing.go`: a session raises its reservation;
* `recordPersonalReservation` — a fact without a debit (`Reseller.Ledger`);
* settlement, refund and reservation journals (`Billing.Journal`);
* `applyPersonalRefundToBase` — `model/reseller_refund.go`: a cumulative refund.

`PersonalStep` is one of their transactions.
-/

/-! ### Personal prices -/

/-- `common.QuotaFromDecimalChecked`: rounded, and saturated to a single charge; the flag is
    the clamp. -/
def quotaFromDecimalChecked (d : Decimal) : Int × Bool :=
  let quota := (d.round 0).coef
  if maxQuota < quota then (maxQuota, true)
  else if quota < -maxQuota - 1 then (-maxQuota - 1, true)
  else (quota, false)

/-- `base * ratio / ResellerRatioScale`, to the 16 places of a decimal quotient. -/
def scaledQuota (base ratio : Int) : Int × Bool :=
  quotaFromDecimalChecked (((Decimal.ofInt base).mul (.ofInt ratio)).divRound (.ofInt 1000000) 16)

/-- `PersonalQuota`; ratios are in millionths. -/
def personalQuota (base ratio : Int) : Except BillingError (Int × Bool) :=
  if base < 0 ∨ ratio < 1 ∨ 2 * 1000000 < ratio then .error .resellerInvalid
  else .ok (scaledQuota base ratio)

def realtimeCustomerQuota (base ratio version : Int) : Except BillingError (Int × Bool) :=
  if version = 0 then personalQuota base ratio
  else if version ≠ 2 ∨ base < 0 ∨ ratio < 10000 ∨ 5000000 < ratio ∨ ratio.tmod 10000 ≠ 0 then
    .error .resellerInvalid
  else .ok (scaledQuota base ratio)

/-! ### The cumulative refund -/

/-- The agent's part of a refund fact: its target, and the saturation flag so far. -/
def refundAgent (fact : PersonalBillingFact) (remainingBase : Int) :
    Except BillingError (Int × Bool) :=
  if 0 < fact.agentUserId then personalQuota remainingBase fact.agentRatio
  else .ok (0, fact.saturated)

/-- The refund fact: the last fact of the request, priced at what remains of its base. -/
def refundFact (fact : PersonalBillingFact) (key : String) (remainingBase : Int) :
    Except BillingError PersonalBillingFact := do
  let customer ← realtimeCustomerQuota remainingBase fact.customerRatio fact.pricingVersion
  let agent ← refundAgent fact remainingBase
  .ok { fact with
    saturated := agent.2 || customer.2
    kind := .refund
    operationId := key
    expectedState := .initial
    baseQuota := remainingBase
    customerTarget := customer.1
    agentTarget := agent.1 }

/-- The journal of a cumulative refund of `paid`. -/
def refundToBaseJournal (state : ResellerRequest) (funding : ResellerFundingSnapshot)
    (fact : PersonalBillingFact) (paid : Int) : TaskSettlementJournal :=
  { personalFact := some fact
    requestId := "personal-refund:" ++ fact.operationId
    operation := .refund
    expectedQuota := paid
    finalQuota := fact.customerTarget
    userId := state.customerUserId
    channelId := state.channelId
    tokenId := funding.tokenId
    billingSource := funding.billingSource
    subscriptionId := funding.subscriptionId
    delta := fact.customerTarget - paid
    applyToken := funding.applyToken
    logDone := true }

/-- The refund journal of a request that is charged, for its funding identity. -/
def planRefundToBase (db : Database) (state : ResellerRequest) (key : String)
    (remainingBase : Int) : Except BillingError TaskSettlementJournal :=
  match state.customerQuota, state.agentQuota with
  | some paid, some _ =>
      if state.baseQuota < remainingBase then .error .resellerInvalid
      else match state.snapshot with
        | none => .error (.text "unexpected end of JSON input")
        | some last => do
            let fact ← refundFact last key remainingBase
            match db.fundingSnapshots.get? state.id with
            | none => .error .recordNotFound
            | some funding => .ok (refundToBaseJournal state funding fact paid)
  | _, _ => .error .resellerInvalid

/-- `ApplyPersonalRefundToBase`: the applied journal, if any.  `digest` is the hash of an
    operation id. -/
def applyPersonalRefundToBase (digest : String → String) (db : Database)
    (requestId operationId : String) (remainingBase : Int) :
    Except BillingError (Option TaskSettlementJournal × Database) :=
  if requestId = "" ∨ 64 < requestId.utf8ByteSize ∨ operationId = "" ∨
      64 < operationId.utf8ByteSize ∨ remainingBase < 0 then .error .resellerInvalid
  else
    let key := digest (requestId ++ ":" ++ operationId)
    match db.requests.get? requestId with
    | none => .error .recordNotFound
    | some state =>
        match db.receipts.get? key with
        | some receipt =>
            if receipt.fact.requestId ≠ requestId ∨ receipt.fact.kind ≠ .refund ∨
                receipt.fact.baseQuota ≠ remainingBase then .error .resellerConflict
            else .ok (none, db)
        | none => do
            let journal ← planRefundToBase db state key remainingBase
            let (_, db) ← ensureTaskSettlementJournalTx db journal
            let (applied, _, db) ← applyTaskSettlementJournal db journal.requestId
            .ok (some applied, db)

/-! ### The reservation of a session -/

/-- A `BillingSession` with personal pricing; `agentUserId` is of its price snapshot. -/
structure PersonalSession extends BillingSession where
  agentUserId : Int
  personalReservation : Option PersonalBillingFact := none
  extraReserved : Int := 0

/-- The previous reservation already says what the new fact would. -/
def PersonalSession.alreadyReserved (s : PersonalSession) (fact : PersonalBillingFact)
    (target : Int) : Bool :=
  s.personalReservation.any fun previous =>
    previous.channelId = fact.channelId ∧ previous.baseQuota = fact.baseQuota ∧
      previous.customerTarget = target ∧ previous.agentTarget = fact.agentTarget

def PersonalSession.personalReserveParams (s : PersonalSession) (fact : PersonalBillingFact)
    (delta : Int) : BillingBalanceReserveParams :=
  { personalFact := some fact, requireAvailableQuota := true, userId := s.relayInfo.userId,
    amount := delta, billingSource := s.funding.source,
    subscriptionId := s.relayInfo.subscriptionId, tokenId := s.relayInfo.tokenId,
    applyToken := !s.relayInfo.isPlayground, tokenUnlimited := s.relayInfo.tokenUnlimited }

/-- The transaction of a reservation: a debit with its fact, or the fact alone. -/
def PersonalSession.reserveTx (s : PersonalSession) (db : Database) (fact : PersonalBillingFact)
    (delta : Int) : Except BillingError Database :=
  if 0 < delta then reserveBillingBalances db (s.personalReserveParams fact delta)
  else recordPersonalReservation db fact

/-- `reservePersonal`; `priced` is the fact that `personalBillingFact` prices for the base. -/
def reservePersonal (s : PersonalSession) (db : Database)
    (priced : Except BillingError PersonalBillingFact) :
    Except BillingError (PersonalSession × Database) :=
  if s.settled ∨ s.refunded then .error .resellerConflict
  else if s.trusted ∧ s.agentUserId = 0 ∧ s.relayInfo.imageRequest = false then .ok (s, db)
  else do
    let fact ← priced
    let target := max fact.customerTarget s.preConsumedQuota
    if s.alreadyReserved fact target then .ok (s, db)
    else
      let fact := { fact with customerTarget := target }
      let delta := target - s.preConsumedQuota
      let db ← s.reserveTx db fact delta
      let session := BillingSession.syncRelayInfo { s.toBillingSession with
        trusted := if s.relayInfo.imageRequest then false else s.trusted
        preConsumedQuota := target
        tokenConsumed := s.tokenConsumed + delta }
      .ok ({ s with
        toBillingSession := session
        personalReservation := some fact
        extraReserved := s.extraReserved + delta }, db)

/-! ### Steps -/

/-- A transaction that moves the money of personal requests, or records a fact of one. -/
inductive PersonalStep where
  | preConsume (now : Int) (params : BillingBalancePreConsumeParams)
  | reserve (params : BillingBalanceReserveParams)
  | record (fact : PersonalBillingFact)
  | outbox (step : OutboxStep)
  | refundToBase (requestId operationId : String) (remainingBase : Int)

/-- The database after a step; a step that fails leaves it as it was. -/
def personalStep (cal : Calendar) (digest : String → String) (db : Database) :
    PersonalStep → Database
  | .preConsume now params => commit db ((preConsumeBillingBalances cal now db params).map Prod.snd)
  | .reserve params => commit db (reserveBillingBalances db params)
  | .record fact => commit db (recordPersonalReservation db fact)
  | .outbox step => outboxStep db step
  | .refundToBase requestId operationId remainingBase =>
      commit db ((applyPersonalRefundToBase digest db requestId operationId remainingBase).map
        Prod.snd)

end TokenGateway.Reseller
