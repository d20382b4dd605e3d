import TokenGateway.Billing.Session

namespace TokenGateway.Billing

open Base Reseller

/-!
# The audit of a billing session

A session is run together with an audit of what its own transactions did: how much they
debited the funding source and the token, and which of its journals moved money.

* `AuditedSession` / `auditStep` — the session with its audit;
* `SessionExact` — the property: a settlement or a refund, never both, and the net debit that
  belongs to it;
* `FreshSession`, `StepSafe` — where a session starts, and the condition on its steps;
* `SessionInv` — the invariant that carries the proof (`Billing.AuditSafe`).
-/

/-! ### What a step does -/

variable (newId : String) (s : BillingSession)

/-- The request id a session bills under. -/
def BillingSession.billingId : String :=
  if s.relayInfo.requestId = "" then newId else s.relayInfo.requestId

/-- The account of the session's funding source. -/
def BillingSession.account : Account :=
  match s.funding with
  | .wallet => .wallet s.relayInfo.userId
  | .subscription subscriptionId _ => .subscription subscriptionId

/-- The operation id of the session's refund or settlement. -/
def BillingSession.journalId (refund : Bool) : String :=
  (if refund then "refund:" else "settle:") ++ s.billingId newId

/-- The journal that a step applies. -/
def appliedId (s : SessionState) : SessionStep → Option String
  | .sweep (.apply requestId) => some requestId
  | .advance false =>
      match s.inFlight with
      | some call =>
          if call.stage = .apply ∧ call.stored.applied = false then some call.stored.requestId
          else none
      | none => none
  | _ => none

/-- A step that is a transaction of the session: every call, and the sweep of its journals. -/
def ownStep : SessionStep → Bool
  | .sweep (.apply requestId) =>
      requestId = s.journalId newId false ∨ requestId = s.journalId newId true
  | .sweep _ => false
  | _ => true

/-- What a committed admission debited: the wallet, or the usage of a subscription counted from
    its due reset. -/
def admissionDebit (db : Database) (userId : Int) :
    Except BillingError (Option SubscriptionPreConsumeResult × Database) → Int
  | .ok (some result, _) => result.amountUsedAfter - result.amountUsedBefore
  | .ok (none, db') => balance db (.wallet userId) - balance db' (.wallet userId)
  | .error _ => 0

/-- What the session's transactions in a step debit from its funding source. -/
def fundingDebit (cal : Calendar) (newId : String) (s : SessionState) (step : SessionStep) : Int :=
  match step with
  | .preConsume quota now rich fault =>
      if s.inFlight.isSome || fault then 0
      else
        let amount := if s.session.shouldTrust rich then 0 else quota
        admissionDebit s.db s.session.relayInfo.userId
          (preConsumeBillingBalances cal now s.db (s.session.preConsumeParams amount))
  | step =>
      if ownStep newId s.session step then
        let next := sessionStep cal newId s step
        balance s.db next.session.account - balance next.db next.session.account
      else 0

/-- What they debit from its token. -/
def tokenDebit (cal : Calendar) (newId : String) (s : SessionState) (step : SessionStep) : Int :=
  if ownStep newId s.session step then
    let tokenId := s.session.relayInfo.tokenId
    balance s.db (.tokenRemain tokenId) - balance (sessionStep cal newId s step).db
      (.tokenRemain tokenId)
  else 0

/-! ### The audited session -/

/-- A session and its audit: the net debits so far, which journals moved money, the actual
    quotas it was asked to settle, and whether it has persisted a journal. -/
structure AuditedSession extends SessionState where
  (fundingNet tokenNet : Int := 0)
  (settleMoved refundMoved : Bool := false)
  actuals : List Int := []
  opened : Bool := false

/-- The settlement, or the refund, moved money. -/
def AuditedSession.moved (s : AuditedSession) (refund : Bool) : Bool :=
  if refund then s.refundMoved else s.settleMoved

/-- The actual quota a step settles. -/
def settledQuota : SessionStep → List Int
  | .settle args _ => [args.actualQuota]
  | .settleTaskSubmission actualQuota _ _ _ => [actualQuota]
  | _ => []

def auditStep (cal : Calendar) (newId : String) (s : AuditedSession) (step : SessionStep) :
    AuditedSession :=
  let next := sessionStep cal newId s.toSessionState step
  let moves := fun refund =>
    let id := s.session.journalId newId refund
    decide (appliedId s.toSessionState step = some id) && appliesNow s.db id
  { toSessionState := next
    fundingNet := s.fundingNet + fundingDebit cal newId s.toSessionState step
    tokenNet := s.tokenNet + tokenDebit cal newId s.toSessionState step
    settleMoved := s.settleMoved || moves false
    refundMoved := s.refundMoved || moves true
    actuals := settledQuota step ++ s.actuals
    opened := s.opened || next.inFlight.isSome }

/-! ### The property -/

/-- The session bills a token: it is no playground request, and the token exists. -/
def TokenBilled (s : SessionState) : Prop :=
  s.session.relayInfo.isPlayground = false ∧ 0 < s.session.relayInfo.tokenId ∧
    (s.db.tokens.get? s.session.relayInfo.tokenId).isSome

instance (s : SessionState) : Decidable (TokenBilled s) := inferInstanceAs (Decidable (_ ∧ _ ∧ _))

/-- Settlement and refund never both move money.  With no journal left to apply, the net debit
    is what was pre-consumed, or the actual quota of one settlement, or zero after the refund;
    and the token moved by the same net amount. -/
structure SessionExact (newId : String) (s : AuditedSession) : Prop where
  exclusive : ¬ (s.settleMoved = true ∧ s.refundMoved = true)
  net : (∀ refund row, s.db.journals.get? (s.session.journalId newId refund) = some row →
    row.applied = true) →
    (s.settleMoved = false ∧ s.refundMoved = false ∧ s.fundingNet = s.session.preConsumedQuota) ∨
      (s.settleMoved = true ∧ s.fundingNet ∈ s.actuals) ∨
      (s.refundMoved = true ∧ s.fundingNet = 0)
  token : s.tokenNet = if TokenBilled s.toSessionState then s.fundingNet else 0

/-! ### The start and the condition on the steps -/

/-- A new session of a new request: nothing is consumed, and no journal or record of the
    database is about the request id. -/
structure FreshSession (newId : String) (db : Database) (s : BillingSession) : Prop where
  preConsumedQuota : s.preConsumedQuota = 0
  tokenConsumed : s.tokenConsumed = 0
  funding : s.funding = .wallet ∨ s.funding = .subscription 0 0
  subscriptionId : s.relayInfo.subscriptionId = 0
  journals : ∀ refund, db.journals.get? (s.journalId newId refund) = none
  records : db.preConsumeRecords.get? (s.billingId newId) = none
  unnamed : ∀ j ∈ db.journals.rows, j.subscriptionPreConsumeRequestId ≠ s.billingId newId

/-- The usage of a subscription covers what a journal gives back to it. -/
def UsageCovers (db : Database) (j : JournalFact) : Prop :=
  j.billingSource = .subscription → balance db (.subscription j.subscriptionId) ≤ j.delta

/-- A call that persists a journal comes while the session has persisted none, or while the same
    journal is still stored. -/
def OpensSafely (s : AuditedSession) (refund : Bool) : Prop :=
  s.opened = false ∨ (s.db.journals.get? (s.session.journalId newId refund)).isSome

/-- The condition on a step.  A call that fails, that returns at once, or that waits for another
    one is always fine. -/
def StepSafe (s : AuditedSession) : SessionStep → Prop
  | .preConsume _ _ _ fault =>
      s.inFlight.isSome ∨ fault = true ∨ (s.session.preConsumedQuota = 0 ∧ s.opened = false)
  | .reserve targetQuota fault =>
      s.inFlight.isSome ∨ fault = true ∨ s.session.reserveReturns targetQuota = true ∨
        s.opened = false
  | .settle args fault =>
      s.inFlight.isSome ∨ fault = true ∨ s.session.settleReturns args = true ∨
        OpensSafely newId s false
  | .settleTaskSubmission _ _ _ fault =>
      s.inFlight.isSome ∨ fault = true ∨ s.session.settled = true ∨ OpensSafely newId s false
  | .refund fault =>
      s.inFlight.isSome ∨ fault = true ∨ s.session.needsRefundLocked = false ∨
        OpensSafely newId s true
  | step =>
      ∀ refund row, appliedId s.toSessionState step = some (s.session.journalId newId refund) →
        s.db.journals.get? (s.session.journalId newId refund) = some row →
        row.applied = false → UsageCovers s.db row.toJournalFact

end TokenGateway.Billing
