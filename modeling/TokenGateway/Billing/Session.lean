import TokenGateway.Billing.Outbox

namespace TokenGateway.Billing

open Base Reseller

/-!
# Billing sessions

`service/billing_session.go`, for requests without personal pricing.  A session pre-consumes a
request, may reserve more, and ends in a settlement or a refund.  Both ends are journals that
are persisted, applied, logged and deleted in separate transactions; the session's flags are
set only after the last of them.

* `BillingSession` and its calls — `preConsume`, `reserve`, `settle`, `settleTaskSubmission`,
  `refund`;
* `InFlight` / `advance` — the transactions of a settlement or refund after its journal was
  persisted;
* `SessionStep` / `sessionStep` — the calls on a session, interleaved with the sweep.
-/

/-! ### The session -/

/-- `WalletFunding` or `SubscriptionFunding`, with what its pre-consume recorded. -/
inductive FundingSource where
  | wallet
  | subscription (subscriptionId preConsumed : Int)
  deriving DecidableEq

def FundingSource.source : FundingSource → BillingSource
  | .wallet => .wallet
  | .subscription _ _ => .subscription

/-- What a session reads of `RelayInfo`; `imageRequest` is the test of `Reserve` for an image
    request. -/
structure RelayInfo where
  requestId : String
  userId : Int
  channelId : Int := 0
  tokenId : Int
  (isPlayground tokenUnlimited imageRequest forcePreConsume : Bool := false)
  subscriptionId : Int := 0
  deriving DecidableEq

/-- `BillingSession` without personal pricing. -/
structure BillingSession where
  relayInfo : RelayInfo
  funding : FundingSource
  (preConsumedQuota tokenConsumed : Int := 0)
  (trusted fundingSettled settled refunded : Bool := false)
  deriving DecidableEq

namespace BillingSession

variable (s : BillingSession)

def syncRelayInfo : BillingSession :=
  match s.funding with
  | .subscription subscriptionId _ =>
      { s with relayInfo := { s.relayInfo with subscriptionId := subscriptionId } }
  | .wallet => { s with relayInfo := { s.relayInfo with subscriptionId := 0 } }

/-- `shouldTrust`; `rich` is the comparison of token and wallet with the trust quota. -/
def shouldTrust (rich : Bool) : Bool := !s.relayInfo.forcePreConsume && rich && s.funding = .wallet

variable (amount : Int)

/-- The parameters of the admission transaction. -/
def preConsumeParams : BillingBalancePreConsumeParams :=
  { requestId := s.relayInfo.requestId, userId := s.relayInfo.userId, amount := amount,
    billingSource := s.funding.source, tokenId := s.relayInfo.tokenId,
    applyToken := !s.relayInfo.isPlayground, tokenUnlimited := s.relayInfo.tokenUnlimited }

/-- The session after a committed admission of `amount`. -/
def afterPreConsume (result : Option SubscriptionPreConsumeResult) : BillingSession :=
  let funding := match s.funding, result with
    | .subscription _ _, some result => .subscription result.userSubscriptionId result.preConsumed
    | funding, _ => funding
  syncRelayInfo { s with
    tokenConsumed := if 0 < amount then amount else s.tokenConsumed
    funding := funding
    preConsumedQuota := amount }

/-- `preConsume`; `fault` is a failed transaction. -/
def preConsume (cal : Calendar) (now : Int) (db : Database) (quota : Int) (rich fault : Bool) :
    BillingSession × Database :=
  let trust := s.shouldTrust rich
  let amount := if trust then 0 else quota
  let s := if trust then { s with trusted := true } else s
  if fault then (s, db)
  else match preConsumeBillingBalances cal now db (s.preConsumeParams amount) with
    | .error _ => (s, db)
    | .ok (result, db) => (s.afterPreConsume amount result, db)

/-- The early return of `Reserve`. -/
def reserveReturns (targetQuota : Int) : Bool :=
  s.settled || s.refunded || (s.trusted && !s.relayInfo.imageRequest) ||
    targetQuota ≤ s.preConsumedQuota

/-- The parameters of the reserve transaction. -/
def reserveParams : BillingBalanceReserveParams :=
  { requireAvailableQuota := s.relayInfo.imageRequest, userId := s.relayInfo.userId,
    amount := amount, billingSource := s.funding.source,
    subscriptionId := s.relayInfo.subscriptionId, tokenId := s.relayInfo.tokenId,
    applyToken := !s.relayInfo.isPlayground, tokenUnlimited := s.relayInfo.tokenUnlimited }

/-- The session after a committed reserve of `amount`. -/
def afterReserve : BillingSession :=
  syncRelayInfo { s with
    preConsumedQuota := s.preConsumedQuota + amount
    tokenConsumed := s.tokenConsumed + amount
    trusted := if s.relayInfo.imageRequest then false else s.trusted }

def reserve (db : Database) (targetQuota : Int) (fault : Bool) : BillingSession × Database :=
  if s.reserveReturns targetQuota then (s, db)
  else
    let delta := targetQuota - s.preConsumedQuota
    if fault then (s, db)
    else match reserveBillingBalances db (s.reserveParams delta) with
      | .error _ => (s, db)
      | .ok db => (s.afterReserve delta, db)

def needsRefundLocked : Bool :=
  !(s.settled || s.refunded || s.fundingSettled) &&
    (0 < s.tokenConsumed || match s.funding with
      | .subscription _ preConsumed => 0 < preConsumed
      | .wallet => false)

/-- A session without a request id takes a new one before it persists a journal. -/
def withRequestId (newId : String) : BillingSession :=
  if s.relayInfo.requestId = "" then { s with relayInfo := { s.relayInfo with requestId := newId } }
  else s

end BillingSession

/-! ### The journals of a session -/

/-- `organizationInvoiceTaskIntent`. -/
structure InvoiceTaskIntent where
  (id quota : Int)
  confirmed : Bool
  deriving DecidableEq

/-- The arguments of `settle`; the intent travels in the request context. -/
structure SettleArgs where
  actualQuota : Int
  channelId : Int := 0
  applyUsage : Bool := false
  log : Option LogPayload := none
  intent : Option InvoiceTaskIntent := none
  deriving DecidableEq

/-- `attachOrganizationInvoiceTaskIntent`, for journals without a personal fact. -/
def attachOrganizationInvoiceTaskIntent (intent : Option InvoiceTaskIntent)
    (j : TaskSettlementJournal) : TaskSettlementJournal :=
  match intent with
  | none => j
  | some intent =>
      { j with
        invoiceTaskEntity := .task
        invoiceTaskId := intent.id
        invoiceExpenseQuota := if intent.confirmed then some intent.quota
          else j.invoiceExpenseQuota }

/-- `prepareTaskSettlementJournalLog`: without a log there is nothing left to write. -/
def prepareTaskSettlementJournalLog (log : Option LogPayload) (j : TaskSettlementJournal) :
    TaskSettlementJournal :=
  match log with
  | none => { j with logDone := true }
  | some payload => { j with logPayload := some payload }

namespace BillingSession

variable (s : BillingSession)

/-- The early return of `settle`: settled before, or nothing to adjust, count or log. -/
def settleReturns (args : SettleArgs) : Bool :=
  s.settled || (args.actualQuota - s.preConsumedQuota = 0 && !args.applyUsage && args.log = none)

/-- The journal of `settle`. -/
def settleJournal (args : SettleArgs) : TaskSettlementJournal :=
  prepareTaskSettlementJournalLog args.log <| attachOrganizationInvoiceTaskIntent args.intent
    { requestId := "settle:" ++ s.relayInfo.requestId
      operation := .settle
      expectedQuota := s.preConsumedQuota
      finalQuota := args.actualQuota
      userId := s.relayInfo.userId
      tokenId := s.relayInfo.tokenId
      billingSource := s.funding.source
      subscriptionId := s.relayInfo.subscriptionId
      delta := args.actualQuota - s.preConsumedQuota
      channelId := args.channelId
      usageDelta := args.actualQuota
      applyUsage := args.applyUsage
      applyToken := !s.relayInfo.isPlayground }

/-- The journal of `settleTaskSubmission`; its entity is the task it is persisted with. -/
def submissionJournal (actualQuota : Int) (log : Option LogPayload) : TaskSettlementJournal :=
  prepareTaskSettlementJournalLog log
    { requestId := "settle:" ++ s.relayInfo.requestId
      operation := .settle
      entityExpectedQuota := 0
      entityFinalQuota := actualQuota
      expectedQuota := s.preConsumedQuota
      finalQuota := actualQuota
      userId := s.relayInfo.userId
      channelId := s.relayInfo.channelId
      tokenId := s.relayInfo.tokenId
      billingSource := s.funding.source
      subscriptionId := s.relayInfo.subscriptionId
      delta := actualQuota - s.preConsumedQuota
      usageDelta := actualQuota
      applyUsage := true
      applyToken := !s.relayInfo.isPlayground }

/-- The journal of `Refund`. -/
def refundJournal : TaskSettlementJournal :=
  let (record, preConsumed) := match s.funding with
    | .subscription _ preConsumed => (s.relayInfo.requestId, preConsumed)
    | .wallet => ("", 0)
  prepareTaskSettlementJournalLog none
    { requestId := "refund:" ++ s.relayInfo.requestId
      operation := .refund
      expectedQuota := s.preConsumedQuota
      finalQuota := 0
      userId := s.relayInfo.userId
      tokenId := s.relayInfo.tokenId
      billingSource := s.funding.source
      subscriptionId := s.relayInfo.subscriptionId
      delta := -s.preConsumedQuota
      applyToken := !s.relayInfo.isPlayground && 0 < s.tokenConsumed
      subscriptionPreConsumeRequestId := record
      subscriptionPreConsumed := preConsumed }

end BillingSession

/-! ### Calls and transactions, one by one -/

/-- What is left of a settlement or refund whose journal is persisted. -/
inductive Stage where
  | apply
  | log
  | delete
  deriving DecidableEq

/-- A settlement or refund between two of its transactions; `stored` is the journal as the
    call read it last. -/
structure InFlight where
  stored : TaskSettlementJournal
  stage : Stage
  refunding : Bool

/-- A session, the main database, and the call in flight on the session.  Calls on one session
    are sequential. -/
structure SessionState where
  db : Database
  session : BillingSession
  inFlight : Option InFlight := none

/-- The calls on a session, the next transaction of the call in flight, and one transaction of
    a sweep.  `fault` is a failure of the database in that transaction. -/
inductive SessionStep where
  | preConsume (quota now : Int) (rich fault : Bool)
  | reserve (targetQuota : Int) (fault : Bool)
  | settle (args : SettleArgs) (fault : Bool)
  | settleTaskSubmission (actualQuota : Int) (task : Task) (log : Option LogPayload)
      (fault : Bool)
  | refund (fault : Bool)
  | advance (fault : Bool)
  | sweep (step : SweepStep)
  deriving DecidableEq

/-- The call is over: `settle` and `settleTaskSubmission` set their flags on success, `Refund`
    takes its flag back on failure. -/
def endCall (s : SessionState) (refunding success : Bool) : SessionState :=
  let session :=
    if refunding then { s.session with refunded := success }
    else if success then { s.session with fundingSettled := true, settled := true }
    else s.session
  { s with session := session, inFlight := none }

/-- `settle`, up to the transaction that persists its journal. -/
def settleCall (newId : String) (s : SessionState) (args : SettleArgs) (fault : Bool) :
    SessionState :=
  if s.session.settleReturns args then { s with session := { s.session with settled := true } }
  else
    let session := s.session.withRequestId newId
    let s := { s with session := session }
    if fault then s
    else match ensureTaskSettlementJournalTx s.db (session.settleJournal args) with
      | .error _ => s
      | .ok (stored, db) =>
          { s with db := db, inFlight := some { stored, stage := .apply, refunding := false } }

/-- `settleTaskSubmission`, up to the transaction that persists the task and its journal. -/
def submissionCall (newId : String) (s : SessionState) (actualQuota : Int) (task : Task)
    (log : Option LogPayload) (fault : Bool) : SessionState :=
  if s.session.settled then s
  else
    let session := s.session.withRequestId newId
    let s := { s with session := session }
    if fault then s
    else match ensureTaskSettlementJournalWithTask s.db
        (session.submissionJournal actualQuota log) { task with quota := 0 } with
      | .error _ => s
      | .ok (stored, db) =>
          { s with db := db, inFlight := some { stored, stage := .apply, refunding := false } }

/-- `Refund`, up to the transaction that persists its journal. -/
def refundCall (newId : String) (s : SessionState) (fault : Bool) : SessionState :=
  if !s.session.needsRefundLocked then s
  else
    let session := s.session.withRequestId newId
    let s := { s with session := session }
    if fault then s
    else match ensureTaskSettlementJournalTx s.db session.refundJournal with
      | .error _ => s
      | .ok (stored, db) =>
          { s with
            db := db
            session := { session with refunded := true }
            inFlight := some { stored, stage := .apply, refunding := true } }

/-- The next transaction of `applyPersistedTaskSettlementJournal`. -/
def advance (s : SessionState) (call : InFlight) (fault : Bool) : SessionState :=
  match call.stage with
  | .apply =>
      if fault then endCall s call.refunding false
      else if call.stored.applied then { s with inFlight := some { call with stage := .log } }
      else match applyTaskSettlementJournal s.db call.stored.requestId with
        | .error _ => endCall s call.refunding false
        | .ok (stored, _, db) =>
            { s with db := db, inFlight := some { call with stored := stored, stage := .log } }
  | .log =>
      match completeTaskSettlementJournalLog s.db call.stored fault with
      | .error _ => endCall s call.refunding false
      | .ok db => { s with db := db, inFlight := some { call with stage := .delete } }
  | .delete =>
      -- a failed delete is only logged
      let db := if fault then s.db else deleteTaskSettlementJournal s.db call.stored.requestId
      endCall { s with db := db } call.refunding true

/-- One step on a session; a call waits while another is in flight. -/
def sessionStep (cal : Calendar) (newId : String) (s : SessionState) : SessionStep → SessionState
  | .sweep step => { s with db := sweepStep s.db step }
  | .advance fault =>
      match s.inFlight with
      | none => s
      | some call => advance s call fault
  | .preConsume quota now rich fault =>
      if s.inFlight.isSome then s
      else
        let (session, db) := s.session.preConsume cal now s.db quota rich fault
        { s with session := session, db := db }
  | .reserve targetQuota fault =>
      if s.inFlight.isSome then s
      else
        let (session, db) := s.session.reserve s.db targetQuota fault
        { s with session := session, db := db }
  | .settle args fault => if s.inFlight.isSome then s else settleCall newId s args fault
  | .settleTaskSubmission actualQuota task log fault =>
      if s.inFlight.isSome then s else submissionCall newId s actualQuota task log fault
  | .refund fault => if s.inFlight.isSome then s else refundCall newId s fault

end TokenGateway.Billing
